import HouseStyle.Learning.Learner
import HouseStyle.Learning.Queue

/-!
# Working through a queue

A worker takes one batch after the other out of a project's queue and learns it, until
the queue is empty. Workers can be held: then a worker waits with its batch before it
reads the first file, and the queue fills up behind it.
-/

namespace HouseStyle

/-- What a worker needs to know. -/
structure WorkContext where
  projectId : String
  policy : LearningPolicy
  sources : Sources
  now : Int
  /-- Whether workers wait before they read files. -/
  isHeld : Bool

/-- A project's queue and store, what came of the batches so far, and the batch that waits
for its files. -/
structure Work where
  store : PatternStore
  queue : ChangeQueue
  results : List (Except LearnError LearningDelta)
  events : List Event
  waiting : Option LearningTask

namespace Work

/-- Add what came of a batch. -/
def record (work : Work) (learned : Learned) : Work :=
  { work with
    store := learned.store
    results := work.results ++ [learned.result]
    events := work.events ++ learned.events }

/-- Learn a batch that has been taken out of the queue, or wait with it. -/
def takeOn (context : WorkContext) (work : Work) (batch : ChangeBatch) : Work :=
  let origin : Origin := ⟨batch.trigger, batch.revision, none⟩
  match LearningTask.begin context.policy work.store batch.changes origin with
  | .error error => work.record (.unchanged work.store (.error error))
  | .ok task =>
    if task.readsFiles && context.isHeld then { work with waiting := some task }
    else
      work.record (task.finish context.policy context.sources context.projectId context.now
        work.store)

/-- Take on at most so many batches, as long as none waits. -/
def runFor (context : WorkContext) : Nat → Work → Work
  | 0, work => work
  | left + 1, work =>
    if work.waiting.isSome then work
    else
      match work.queue.drain? context.policy.batchFiles with
      | none => work
      | some (batch, queue) => runFor context left (takeOn context { work with queue } batch)

/-- Take on batches until the queue is empty or a batch waits. Every batch takes at least
one change out of the queue. -/
def run (work : Work) (context : WorkContext) : Work :=
  runFor context work.queue.pending.length work

/-- Go on with the batch that waited, and then with the queue. -/
def resume (work : Work) (context : WorkContext) : Work :=
  match work.waiting with
  | none => work.run context
  | some task =>
    let learned := task.finish context.policy context.sources context.projectId context.now
      work.store
    ({ work with waiting := none }.record learned).run context

end Work

end HouseStyle
