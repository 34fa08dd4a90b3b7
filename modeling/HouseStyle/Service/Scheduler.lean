import HouseStyle.Service.Basic

/-!
# The scheduler

Changes are queued per project and learned in the background by a limited number of
workers. A project waits for a worker at most once, and the worker that takes it goes
on until its queue is empty, so the batches of one project never overlap.
-/

namespace HouseStyle.Service

/-- What a worker on a project needs to know. -/
def workContext (service : Service) (id : String) (project : OpenProject) : WorkContext where
  projectId := id
  policy := service.learningPolicy
  sources := service.sources project.path
  now := service.host.now
  isHeld := service.scheduler.isHeld

def putSlot (service : Service) (id : String) (slot : Slot) : Service :=
  { service with scheduler.slots := putKeyed id slot service.scheduler.slots }

/-- Put the work on a slot back. The slot stays scheduled while a batch of it waits. -/
def putWork (service : Service) (id : String) (slot : Slot) (work : Work) : Service :=
  let service := (service.withStore slot.project.store work.store).announceAll work.events
  let service := service.putSlot id
    { slot with queue := work.queue, results := work.results, isScheduled := work.waiting.isSome }
  match work.waiting with
  | none => service
  | some task =>
    { service with
      scheduler.waiting :=
        service.scheduler.waiting ++ [⟨slot.number, id, slot.project, task⟩] }

/-- The work that a slot has left. -/
def workOf (service : Service) (slot : Slot) : Work :=
  ⟨service.store slot.project.store, slot.queue, slot.results, [], none⟩

/-- Let a worker go through the queue of a project. -/
def serve (service : Service) (id : String) : Service :=
  match service.scheduler.slots.lookup id with
  | none => service
  | some slot =>
    service.putWork id slot ((service.workOf slot).run (service.workContext id slot.project))

/-- Whether a worker is free. -/
def hasFreeWorker (service : Service) : Bool :=
  service.scheduler.waiting.length < service.settings.workers.threadCount

/-- Serve waiting projects in turn while workers are free. -/
def settleFor : Nat → Service → Service
  | 0, service => service
  | left + 1, service =>
    match service.scheduler.tickets with
    | [] => service
    | id :: tickets =>
      if service.hasFreeWorker then
        settleFor left (({ service with scheduler.tickets := tickets } : Service).serve id)
      else service

/-- Serve as many waiting projects as the workers can take. -/
def settle (service : Service) : Service := settleFor service.scheduler.tickets.length service

/-- Go on with a batch that waited. Its results are lost when its project has gone. -/
def resume (service : Service) (batch : WaitingBatch) : Service :=
  let context := service.workContext batch.projectId batch.project
  let slot := (service.scheduler.slots.lookup batch.projectId).filter (·.number == batch.slot)
  match slot with
  | some slot =>
    let work := { service.workOf slot with waiting := some batch.task }
    service.putWork batch.projectId slot (work.resume context)
  | none =>
    let store := service.store batch.project.store
    let learned := batch.task.finish context.policy context.sources context.projectId context.now
      store
    (service.withStore batch.project.store learned.store).announceAll learned.events

/-- From now on workers wait before they read files. -/
def holdWorkers (service : Service) : Service :=
  { service with scheduler.isHeld := true }

/-- Let the workers go on until all work is done. -/
def letWorkersGo (service : Service) : Service :=
  let waiting := service.scheduler.waiting
  let service : Service :=
    { service with scheduler.isHeld := false, scheduler.waiting := [] }
  (waiting.foldl resume service).settle

/-- Take no more work, and finish what is there. -/
def stopScheduler (service : Service) : Service :=
  let service := service.letWorkersGo
  { service with scheduler.isStopped := true }

/-- The slot of a project. -/
def slot (id : String) : ServiceM Slot := do
  match (← get).scheduler.slots.lookup id with
  | some slot => return slot
  | none =>
    orFail .learn (.error (.invalidBatch ("project " ++ id ++ " has no registered learner")))

/-- Give a project to the scheduler unless it is there already. -/
def schedule (id : String) (slot : Slot) : ServiceM Unit := do
  if slot.isScheduled then return
  let service ← get
  if service.scheduler.isStopped then
    orFail .learn (.error (.invalidBatch "learning scheduler is shut down"))
  let service := service.putSlot id { slot with isScheduled := true }
  set (settle { service with scheduler.tickets := service.scheduler.tickets ++ [id] })

/-- Queue changes of a project, and see that a worker will take them. -/
def submit (id : String) (changes : List FileChange) (trigger : Trigger) : ServiceM Unit := do
  let found ← slot id
  let queue := changes.foldl (fun queue change => queue.push change trigger) found.queue
  let found := { found with queue }
  modify fun service => service.putSlot id found
  schedule id found

/-- How many changes of a project wait in its queue. -/
def pending (service : Service) (id : String) : Nat :=
  match service.scheduler.slots.lookup id with
  | some slot => slot.queue.pending.length
  | none => 0

/-- Drop the queued changes of a project, and count them. -/
def cancelPending (id : String) : ServiceM Nat := do
  let found ← slot id
  modify fun service => service.putSlot id { found with queue := found.queue.clear }
  return found.queue.pending.length

/-- Take the results of a project's batches. -/
def takeResults (id : String) : ServiceM (List (Except LearnError LearningDelta)) := do
  match (← get).scheduler.slots.lookup id with
  | none => return []
  | some slot =>
    modify fun service => service.putSlot id { slot with results := [] }
    return slot.results

/-- Forget the queue of a project, and tell whether there was one. -/
def unregister (id : String) : ServiceM Bool := do
  let service ← get
  set { service with scheduler.slots := eraseKeyed id service.scheduler.slots }
  return hasKey id service.scheduler.slots

end HouseStyle.Service
