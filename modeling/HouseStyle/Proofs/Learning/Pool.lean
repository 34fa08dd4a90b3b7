import HouseStyle.Proofs.Learning.Handover
import Mathlib.Logic.Function.Basic

/-!
# A pool of workers

Callers submit changes of several projects, and workers learn them. A caller puts its changes into
the queue of the project, schedules the project, counts a ticket for it as outstanding and sends
the ticket; a project that is scheduled already gets no second ticket. A worker with a ticket
drains the queue batch by batch. When nothing is left it takes the project off the schedule, and
then looks once more, since changes may have come in between.

Each of these is a step of its own, and the steps of all callers and workers may be interleaved in
any way. The ticket of a scheduled project is in one place at a time: with a caller, in the channel
or with a worker. The channel is bounded, which only keeps a caller waiting for its next step; so
every run of a bounded channel is a run here.
-/

namespace HouseStyle

lemma ChangeQueue.drain?_of_empty {queue : ChangeQueue} (h : queue.pending = []) (limit : Nat) :
    queue.drain? limit = none := by
  simp [drain?, topTrigger?, h]

/-! ## Callers and workers -/

/-- Where a call that submits changes of a project stands. -/
inductive Submission (π : Type) where
  /-- The changes are in the queue. -/
  | queued (project : π)
  /-- The project was not scheduled, and is now. -/
  | claimed (project : π)
  /-- The ticket is counted as outstanding. -/
  | counted (project : π)

/-- The project for which the caller has a ticket. -/
def Submission.ticket? {π : Type} : Submission π → Option π
  | queued _ => none
  | claimed project | counted project => some project

/-- Where a worker stands that has taken a ticket. -/
inductive Shift (π : Type) where
  | draining (project : π)
  | learning (project : π) (batch : ChangeBatch)
  /-- There was nothing to drain. -/
  | emptied (project : π)
  /-- The project has been taken off the schedule. -/
  | released (project : π)
  /-- Something is pending again. -/
  | refilled (project : π)
  | finishing

/-- The project for which the worker has the ticket. -/
def Shift.ticket? {π : Type} : Shift π → Option π
  | draining project | learning project _ | emptied project => some project
  | released _ | refilled _ | finishing => none

/-- The work on all projects, and where the callers and workers stand. -/
structure Pool (ι ω π : Type) where
  work : π → Work
  isScheduled : π → Bool
  /-- The batches that were drained so far. -/
  drained : π → List ChangeBatch
  /-- The batches whose results are recorded, each with what its worker knew. -/
  learned : π → List (WorkContext × ChangeBatch)
  /-- The tickets in the channel. -/
  tickets : List π
  outstanding : Nat
  caller : ι → Option (Submission π)
  worker : ω → Option (Shift π)

/-- One step of one caller or worker. -/
inductive PoolStep (ι ω π : Type) where
  /-- Put changes into the queue, all while it is locked. -/
  | submit (caller : ι) (project : π) (changes : List FileChange) (trigger : Trigger)
  /-- Schedule the project. The call returns when it was scheduled before. -/
  | claim (caller : ι)
  | count (caller : ι)
  | send (caller : ι)
  /-- Drop what is pending. -/
  | cancel (project : π)
  | receive (worker : ω)
  | drain (worker : ω)
  /-- Learn a batch, and record what came of it. -/
  | learn (worker : ω) (context : WorkContext)
  /-- Take the project off the schedule. -/
  | release (worker : ω)
  /-- Look whether something is pending. -/
  | recheck (worker : ω)
  /-- Schedule the project again, unless it is scheduled by now. -/
  | reclaim (worker : ω)
  | finish (worker : ω)

namespace Pool

variable {ι ω π : Type} [DecidableEq ι] [DecidableEq ω] [DecidableEq π]

def start (stores : π → PatternStore) : Pool ι ω π where
  work project := .start (stores project)
  isScheduled _ := false
  drained _ := []
  learned _ := []
  tickets := []
  outstanding := 0
  caller _ := none
  worker _ := none

def putQueue (pool : Pool ι ω π) (project : π) (queue : ChangeQueue) : Pool ι ω π :=
  { pool with work := Function.update pool.work project { pool.work project with queue } }

def putCaller (pool : Pool ι ω π) (caller : ι) (submission : Option (Submission π)) :
    Pool ι ω π :=
  { pool with caller := Function.update pool.caller caller submission }

def putWorker (pool : Pool ι ω π) (worker : ω) (shift : Option (Shift π)) : Pool ι ω π :=
  { pool with worker := Function.update pool.worker worker shift }

omit [DecidableEq ω] [DecidableEq π] in
lemma putCaller_self (pool : Pool ι ω π) (caller : ι) (submission : Option (Submission π)) :
    (pool.putCaller caller submission).caller caller = submission :=
  Function.update_self _ _ _

omit [DecidableEq ι] [DecidableEq π] in
lemma putWorker_self (pool : Pool ι ω π) (worker : ω) (shift : Option (Shift π)) :
    (pool.putWorker worker shift).worker worker = shift :=
  Function.update_self _ _ _

def setScheduled (pool : Pool ι ω π) (project : π) (isScheduled : Bool) : Pool ι ω π :=
  { pool with isScheduled := Function.update pool.isScheduled project isScheduled }

/-- A batch has been drained. -/
def putDrained (pool : Pool ι ω π) (project : π) (batch : ChangeBatch) (queue : ChangeQueue) :
    Pool ι ω π :=
  { pool.putQueue project queue with
    drained := Function.update pool.drained project (pool.drained project ++ [batch]) }

/-- The result of a batch is recorded. -/
def putLearned (pool : Pool ι ω π) (project : π) (context : WorkContext) (batch : ChangeBatch) :
    Pool ι ω π :=
  { pool with
    work := Function.update pool.work project ((pool.work project).answer context batch)
    learned := Function.update pool.learned project (pool.learned project ++ [(context, batch)]) }

/-- What a step does, where it fits what its caller or worker is about. A batch has at most
`limit` changes. -/
inductive Takes (limit : Nat) (pool : Pool ι ω π) : PoolStep ι ω π → Pool ι ω π → Prop where
  | submit {caller : ι} (project : π) (changes : List FileChange) (trigger : Trigger) :
    pool.caller caller = none →
    Takes limit pool (.submit caller project changes trigger)
      ((pool.putQueue project
        (.pushAll trigger (pool.work project).queue changes)).putCaller caller
          (some (.queued project)))
  | claim {caller : ι} {project : π} :
    pool.caller caller = some (.queued project) → pool.isScheduled project = false →
    Takes limit pool (.claim caller)
      ((pool.setScheduled project true).putCaller caller (some (.claimed project)))
  /-- Somebody else has the ticket. -/
  | leave {caller : ι} {project : π} :
    pool.caller caller = some (.queued project) → pool.isScheduled project = true →
    Takes limit pool (.claim caller) (pool.putCaller caller none)
  | count {caller : ι} {project : π} : pool.caller caller = some (.claimed project) →
    Takes limit pool (.count caller)
      { pool.putCaller caller (some (.counted project)) with outstanding := pool.outstanding + 1 }
  | send {caller : ι} {project : π} : pool.caller caller = some (.counted project) →
    Takes limit pool (.send caller)
      { pool.putCaller caller none with tickets := pool.tickets ++ [project] }
  | cancel (project : π) :
    Takes limit pool (.cancel project) (pool.putQueue project (pool.work project).queue.clear)
  | receive {worker : ω} {project : π} {tickets : List π} : pool.worker worker = none →
    pool.tickets = project :: tickets →
    Takes limit pool (.receive worker)
      { pool.putWorker worker (some (.draining project)) with tickets }
  | drain {worker : ω} {project : π} {batch : ChangeBatch} {queue : ChangeQueue} :
    pool.worker worker = some (.draining project) →
    (pool.work project).queue.drain? limit = some (batch, queue) →
    Takes limit pool (.drain worker)
      ((pool.putDrained project batch queue).putWorker worker (some (.learning project batch)))
  | empty {worker : ω} {project : π} : pool.worker worker = some (.draining project) →
    (pool.work project).queue.drain? limit = none →
    Takes limit pool (.drain worker) (pool.putWorker worker (some (.emptied project)))
  | learn {worker : ω} {project : π} {batch : ChangeBatch} (context : WorkContext) :
    pool.worker worker = some (.learning project batch) →
    Takes limit pool (.learn worker context)
      ((pool.putLearned project context batch).putWorker worker (some (.draining project)))
  | release {worker : ω} {project : π} : pool.worker worker = some (.emptied project) →
    Takes limit pool (.release worker)
      ((pool.setScheduled project false).putWorker worker (some (.released project)))
  | refill {worker : ω} {project : π} : pool.worker worker = some (.released project) →
    (pool.work project).queue.pending ≠ [] →
    Takes limit pool (.recheck worker) (pool.putWorker worker (some (.refilled project)))
  | done {worker : ω} {project : π} : pool.worker worker = some (.released project) →
    (pool.work project).queue.pending = [] →
    Takes limit pool (.recheck worker) (pool.putWorker worker (some .finishing))
  | reclaim {worker : ω} {project : π} : pool.worker worker = some (.refilled project) →
    pool.isScheduled project = false →
    Takes limit pool (.reclaim worker)
      ((pool.setScheduled project true).putWorker worker (some (.draining project)))
  /-- Somebody else has a ticket by now. -/
  | yield {worker : ω} {project : π} : pool.worker worker = some (.refilled project) →
    pool.isScheduled project = true →
    Takes limit pool (.reclaim worker) (pool.putWorker worker (some .finishing))
  | finish {worker : ω} : pool.worker worker = some .finishing →
    Takes limit pool (.finish worker)
      { pool.putWorker worker none with outstanding := pool.outstanding - 1 }

/-- Steps that are taken one after another. -/
inductive Run (limit : Nat) : Pool ι ω π → List (PoolStep ι ω π) → Pool ι ω π → Prop where
  | nil (pool : Pool ι ω π) : Run limit pool [] pool
  | cons {pool mid after : Pool ι ω π} {move : PoolStep ι ω π} {moves : List (PoolStep ι ω π)} :
    pool.Takes limit move mid → Run limit mid moves after → Run limit pool (move :: moves) after

variable {limit : Nat} {pool mid after : Pool ι ω π} {project : π} {caller : ι} {worker : ω}
  {move : PoolStep ι ω π} {moves more : List (PoolStep ι ω π)}

lemma Run.append (one : Run limit pool moves mid) (two : Run limit mid more after) :
    Run limit pool (moves ++ more) after := by
  induction one with
  | nil => exact two
  | cons takes _ ih => exact .cons takes (ih two)

/-! ## What happens to a queue -/

/-- The steps that touch the queue of a project. -/
inductive Touches (limit : Nat) (pool : Pool ι ω π) (project : π) (move : PoolStep ι ω π)
    (after : Pool ι ω π) : Prop where
  | filled {caller : ι} {changes : List FileChange} {trigger : Trigger} :
    move = .submit caller project changes trigger →
    after.caller caller = some (.queued project) →
    (after.work project).queue = .pushAll trigger (pool.work project).queue changes →
    Touches limit pool project move after
  | cleared : move = .cancel project →
    (after.work project).queue = (pool.work project).queue.clear →
    Touches limit pool project move after
  | drained {worker : ω} {batch : ChangeBatch} : move = .drain worker →
    (pool.work project).queue.drain? limit = some (batch, (after.work project).queue) →
    after.drained project = pool.drained project ++ [batch] →
    Touches limit pool project move after

lemma Takes.queue (takes : pool.Takes limit move after) (project : π) :
    ((after.work project).queue = (pool.work project).queue ∧
      after.drained project = pool.drained project) ∨ Touches limit pool project move after := by
  cases takes with
  | @submit caller there changes trigger hcaller =>
    by_cases hthere : project = there
    · subst hthere
      exact .inr (.filled rfl (by simp [putCaller]) (by simp [putCaller, putQueue]))
    · exact .inl (by simp [putCaller, putQueue, hthere])
  | cancel there =>
    by_cases hthere : project = there
    · subst hthere
      exact .inr (.cleared rfl (by simp [putQueue]))
    · exact .inl (by simp [putQueue, hthere])
  | @drain worker there batch queue hworker hdrain =>
    by_cases hthere : project = there
    · subst hthere
      have hqueue : (pool.work project).queue.drain? limit = some (batch,
          ((pool.putDrained project batch queue).work project).queue) := by
        simpa [putDrained, putQueue] using hdrain
      exact .inr (.drained rfl hqueue (by simp [putWorker, putDrained]))
    · exact .inl (by simp [putWorker, putDrained, putQueue, hthere])
  | @learn worker there batch context hworker =>
    by_cases hthere : project = there
    · subst hthere
      exact .inl (by simp [putWorker, putLearned, Work.answer, Work.record])
    · exact .inl (by simp [putWorker, putLearned, hthere])
  | claim | leave | count | send | receive | empty | release | refill | done | reclaim | yield
  | finish => exact .inl ⟨rfl, rfl⟩

/-! ## A worker that is alone -/

/-- Only the work on one project and the stand of one worker have changed. -/
structure Went (pool after : Pool ι ω π) (project : π) (work : Work) (worker : ω)
    (shift : Option (Shift π)) : Prop where
  work : after.work = Function.update pool.work project work
  worker : after.worker = Function.update pool.worker worker shift
  caller : after.caller = pool.caller
  isScheduled : after.isScheduled = pool.isScheduled
  tickets : after.tickets = pool.tickets
  outstanding : after.outstanding = pool.outstanding

omit [DecidableEq ι] in
lemma Went.trans {work last : Work} {shift final : Option (Shift π)}
    (one : Went pool mid project work worker shift)
    (two : Went mid after project last worker final) :
    Went pool after project last worker final where
  work := by rw [two.work, one.work, Function.update_idem]
  worker := by rw [two.worker, one.worker, Function.update_idem]
  caller := two.caller.trans one.caller
  isScheduled := two.isScheduled.trans one.isScheduled
  tickets := two.tickets.trans one.tickets
  outstanding := two.outstanding.trans one.outstanding

lemma exists_stop {work : Work} (hworker : pool.worker worker = some (.draining project))
    (hempty : (pool.work project).queue.pending = []) (hsame : work = pool.work project) :
    ∃ moves after, Run limit pool moves after ∧
      Went pool after project work worker (some (.emptied project)) := by
  refine ⟨_, _, .cons (.empty hworker (ChangeQueue.drain?_of_empty hempty limit)) (.nil _), ?_⟩
  constructor
  · rw [hsame, Function.update_eq_self]
    rfl
  all_goals rfl

/-- A worker drains and learns one batch. -/
lemma exists_round {batch : ChangeBatch} {queue : ChangeQueue}
    (hworker : pool.worker worker = some (.draining project))
    (hdrain : (pool.work project).queue.drain? limit = some (batch, queue))
    (context : WorkContext) :
    ∃ after, Run limit pool [.drain worker, .learn worker context] after ∧
      Went pool after project ({ pool.work project with queue }.answer context batch) worker
        (some (.draining project)) := by
  refine ⟨_, .cons (.drain hworker hdrain)
    (.cons (.learn context (putWorker_self _ _ _)) (.nil _)), ?_⟩
  constructor
  · simp [putWorker, putLearned, putDrained, putQueue]
  · simp [putWorker, putLearned, putDrained, putQueue]
  all_goals rfl

/-- A worker that nobody interrupts does with a queue what a worker does that runs through it. -/
lemma exists_serve {context : WorkContext} (hopen : context.isHeld = false) {n : Nat}
    (hworker : pool.worker worker = some (.draining project))
    (idle : (pool.work project).waiting = none) (nodup : (pool.work project).queue.paths.Nodup)
    (hpending : (pool.work project).queue.pending.length ≤ n) :
    ∃ moves after, Run context.policy.batchFiles pool moves after ∧
      Went pool after project (Work.runFor context n (pool.work project)) worker
        (some (.emptied project)) := by
  induction n generalizing pool with
  | zero =>
    have hempty : (pool.work project).queue.pending = [] :=
      List.length_eq_zero_iff.mp (Nat.le_zero.mp hpending)
    exact exists_stop hworker hempty rfl
  | succ n ih =>
    by_cases hempty : (pool.work project).queue.pending = []
    · refine exists_stop hworker hempty ?_
      simp [Work.runFor, idle, ChangeQueue.drain?_of_empty hempty]
    · obtain ⟨batch, rest, hdrain, taken⟩ :=
        ChangeQueue.drain?_taken nodup hempty context.policy.batchFiles
      obtain ⟨next, round, went⟩ := exists_round hworker hdrain context
      have hshorter : rest.length < (pool.work project).queue.pending.length := by
        have hlength := taken.perm.length_eq
        have hsome := List.length_pos_iff.mpr taken.some
        simp only [List.length_append, List.length_map] at hlength
        omega
      have hwork := congrFun went.work project
      rw [Function.update_self] at hwork
      have hdraining : next.worker worker = some (.draining project) := by simp [went.worker]
      obtain ⟨moves, after, run, went'⟩ := ih hdraining (by rw [hwork]; exact idle)
        (by rw [hwork]; exact nodup.sublist (taken.rest.map _))
        (by rw [hwork]; exact Nat.lt_succ_iff.mp (Nat.lt_of_lt_of_le hshorter hpending))
      refine ⟨_, after, round.append run, ?_⟩
      have hrun : Work.runFor context (n + 1) (pool.work project) =
          Work.runFor context n (next.work project) := by
        simp only [Work.runFor, idle, Option.isSome_none, Bool.false_eq_true, if_false, hdrain,
          hwork, Work.takeOn_eq hopen]
      rw [hrun]
      exact went.trans went'

/-- One more ticket is outstanding. -/
def withTicket (pool : Pool ι ω π) (project : π) : Pool ι ω π :=
  { pool.setScheduled project true with outstanding := pool.outstanding + 1 }

/-- A call that submits changes hands a ticket to a worker. -/
lemma exists_handed (limit : Nat) (hcaller : pool.caller caller = none)
    (hworker : pool.worker worker = none) (htickets : pool.tickets = [])
    (hfree : pool.isScheduled project = false) (changes : List FileChange) (trigger : Trigger) :
    ∃ moves after, Run limit pool (.submit caller project changes trigger :: moves) after ∧
      Went (pool.withTicket project) after project
        (SchedulerCall.perform (pool.work project) (.submit changes trigger)) worker
        (some (.draining project)) := by
  refine ⟨_, _, .cons (.submit project changes trigger hcaller)
    (.cons (.claim (putCaller_self _ _ _) hfree)
    (.cons (.count (putCaller_self _ _ _)) (.cons (.send (putCaller_self _ _ _))
    (.cons (.receive hworker (show _ = [project] by
      simp [putCaller, setScheduled, putQueue, htickets])) (.nil _))))), ?_⟩
  constructor
  · rfl
  · rfl
  · simp [putCaller, putWorker, putQueue, setScheduled, withTicket, hcaller]
  · rfl
  · exact htickets.symm
  · rfl

/-- A worker that finds nothing more finishes its ticket. -/
lemma exists_finished {work : Work} (hfree : pool.isScheduled project = false)
    (hempty : work.queue.pending = [])
    (went : Went (pool.withTicket project) mid project work worker (some (.emptied project))) :
    ∃ after, Run limit mid [.release worker, .recheck worker, .finish worker] after ∧
      Went pool after project work worker none := by
  have hemptied : mid.worker worker = some (.emptied project) := by simp [went.worker]
  have hpending : (mid.work project).queue.pending = [] := by simp [went.work, hempty]
  refine ⟨_, .cons (.release hemptied)
    (.cons (.done (putWorker_self _ _ _) hpending)
    (.cons (.finish (putWorker_self _ _ _)) (.nil _))), ?_⟩
  constructor
  · exact went.work
  · simp [putWorker, setScheduled, went.worker, withTicket]
  · exact went.caller
  · show Function.update mid.isScheduled project false = _
    rw [went.isScheduled]
    simp [withTicket, setScheduled, ← hfree]
  · exact went.tickets
  · show mid.outstanding - 1 = _
    rw [went.outstanding]
    rfl

/-- When nothing else is going on, a call that submits changes and the worker that takes its ticket
do to the project what they do one after the other, and leave the pool as they have found it. -/
theorem exists_submit_alone {context : WorkContext} (hopen : context.isHeld = false)
    (hcaller : pool.caller caller = none) (hworker : pool.worker worker = none)
    (htickets : pool.tickets = []) (hfree : pool.isScheduled project = false)
    (idle : (pool.work project).waiting = none) (nodup : (pool.work project).queue.paths.Nodup)
    (changes : List FileChange) (trigger : Trigger) :
    ∃ moves after, Run context.policy.batchFiles pool
        (.submit caller project changes trigger :: moves) after ∧
      Went pool after project (SchedulerCall.perform
        (SchedulerCall.perform (pool.work project) (.submit changes trigger)) (.work context))
        worker none := by
  obtain ⟨moves, mid, handed, went⟩ := exists_handed context.policy.batchFiles hcaller hworker
    htickets hfree changes trigger
  have hwork := congrFun went.work project
  rw [Function.update_self] at hwork
  have hnodup : (mid.work project).queue.paths.Nodup := by
    rw [hwork]
    exact (ChangeQueue.pushAll_grown trigger _ changes).1.nodup nodup
  have hidle : (mid.work project).waiting = none := by
    rw [hwork]
    exact idle
  have hdraining : mid.worker worker = some (.draining project) := by simp [went.worker]
  obtain ⟨moves', done, served, went'⟩ := exists_serve hopen hdraining hidle hnodup (Nat.le_refl _)
  obtain ⟨batches, handedOver⟩ := Work.exists_handedOver hopen hidle hnodup
  have hempty : ((mid.work project).run context).queue.pending = [] := by
    rw [handedOver.run, (Work.answers_queue context batches _).1]
    rfl
  obtain ⟨after, finished, went''⟩ := exists_finished hfree hempty (went.trans went')
  refine ⟨moves ++ (moves' ++ [.release worker, .recheck worker, .finish worker]), after, ?_, ?_⟩
  · exact handed.append (served.append finished)
  · rw [← hwork]
    exact went''

end Pool

end HouseStyle
