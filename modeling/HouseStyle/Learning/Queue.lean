import HouseStyle.Change
import HouseStyle.Path

/-!
# The queue of pending changes

One entry per path: a change of a path that is already pending takes its place in
the queue, with the more urgent of the two triggers. Renames of files with pending
edits are taken apart, because the stored rows of such a file are out of date and
must not move to the new path. A batch is drained from the most urgent trigger class
only, oldest entries first.
-/

namespace HouseStyle

structure PendingChange where
  change : FileChange
  trigger : Trigger
  /-- The place in the queue. -/
  order : Nat
  deriving DecidableEq, Repr, Inhabited

structure ChangeQueue where
  pending : List PendingChange
  nextOrder : Nat
  /-- How many changes were replaced or dropped before they ran. -/
  superseded : Nat
  deriving DecidableEq, Repr, Inhabited

/-- What is drained at once. `revision` is the last one that a drained change carries. -/
structure ChangeBatch where
  trigger : Trigger
  changes : List FileChange
  revision : Option String
  deriving DecidableEq, Repr, Inhabited

namespace ChangeQueue

def empty : ChangeQueue := ⟨[], 0, 0⟩

def find? (queue : ChangeQueue) (path : String) : Option PendingChange :=
  queue.pending.find? (·.change.path == path)

def erase (queue : ChangeQueue) (path : String) : ChangeQueue :=
  { queue with pending := queue.pending.filter (·.change.path != path) }

/-- Put an entry in, in place of the one for the same path. -/
def put (queue : ChangeQueue) (entry : PendingChange) : ChangeQueue :=
  { queue with
    pending := entry :: queue.pending.filter (·.change.path != entry.change.path) }

def putIfAbsent (queue : ChangeQueue) (entry : PendingChange) : ChangeQueue :=
  if (queue.find? entry.change.path).isSome then queue else queue.put entry

/-- Put an entry at the end of the queue. -/
def putLast (queue : ChangeQueue) (change : FileChange) (trigger : Trigger) : ChangeQueue :=
  { queue with nextOrder := queue.nextOrder + 1 }.put ⟨change, trigger, queue.nextOrder⟩

def countSuperseded (queue : ChangeQueue) : ChangeQueue :=
  { queue with superseded := queue.superseded + 1 }

/-- A rename whose source has a pending edit becomes a removal of the source, in the place
of the edit, and an addition of the target. -/
def pushSplitRename (queue : ChangeQueue) (source : PendingChange) (change : FileChange)
    (trigger : Trigger) : ChangeQueue :=
  let trigger := source.trigger.max trigger
  let queue := queue.countSuperseded.put ⟨.deleted source.change.path, trigger, source.order⟩
  let added := { FileChange.added change.path with revision := change.revision }
  match queue.find? change.path with
  | some target => queue.countSuperseded.put ⟨added, trigger, target.order⟩
  | none => queue.putLast added trigger

/-- Replace a pending change of the same path. A file that was renamed and then edited is
removed under its old path and read under the new one. -/
def pushOver (queue : ChangeQueue) (existing : PendingChange) (change : FileChange)
    (trigger : Trigger) : ChangeQueue :=
  let queue := (queue.erase change.path).countSuperseded
  let trigger := existing.trigger.max trigger
  if existing.change.kind = .renamed ∧ change.kind.needsExtraction then
    let queue := match existing.change.previousPath with
      | some source => queue.putIfAbsent ⟨.deleted source, trigger, existing.order⟩
      | none => queue
    let revision := change.revision.or existing.change.revision
    queue.put ⟨{ FileChange.modified change.path with revision }, trigger, existing.order⟩
  else queue.put ⟨change, trigger, existing.order⟩

def normalized (change : FileChange) : FileChange :=
  { change with
    path := Path.normalize change.path
    previousPath := change.previousPath.map Path.normalize }

/-- The pending edit of the file that a change renames. -/
def editedSource? (queue : ChangeQueue) (change : FileChange) : Option PendingChange :=
  if change.kind = .renamed then
    (change.previousPath.bind queue.find?).filter (·.change.kind.needsExtraction)
  else none

def push (queue : ChangeQueue) (change : FileChange) (trigger : Trigger) : ChangeQueue :=
  let change := normalized change
  match queue.editedSource? change with
  | some source => queue.pushSplitRename source change trigger
  | none =>
    match queue.find? change.path with
    | some existing => queue.pushOver existing change trigger
    | none => queue.putLast change trigger

/-- The most urgent trigger that is pending. -/
def topTrigger? (queue : ChangeQueue) : Option Trigger :=
  (queue.pending.map (·.trigger)).foldl (fun top t => some ((top.getD t).max t)) none

/-- Older entries first, entries of one order by their paths. -/
def earlier (a b : PendingChange) : Bool :=
  a.order < b.order || (a.order == b.order && a.change.path ≤ b.change.path)

/-- Take the oldest entries of the most urgent trigger, at least one and at most `limit`. -/
def drain? (queue : ChangeQueue) (limit : Nat) : Option (ChangeBatch × ChangeQueue) :=
  queue.topTrigger?.map fun trigger =>
    let ready := (queue.pending.filter (·.trigger == trigger)).mergeSort earlier
    let taken := ready.take (max limit 1)
    let paths := taken.map (·.change.path)
    let changes := taken.map (·.change)
    (⟨trigger, changes, (changes.filterMap (·.revision)).getLast?⟩,
      { queue with pending := queue.pending.filter fun p => !paths.contains p.change.path })

/-- Drop everything that is pending. -/
def clear (queue : ChangeQueue) : ChangeQueue :=
  { queue with pending := [], superseded := queue.superseded + queue.pending.length }

end ChangeQueue

end HouseStyle
