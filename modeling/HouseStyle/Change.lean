/-!
# File changes

What happened to a file, and what made the program look at it. A change of kind
`renamed` carries the path the file had before.
-/

namespace HouseStyle

inductive ChangeKind where
  | added
  | modified
  | deleted
  | renamed
  deriving DecidableEq, Repr, Inhabited

namespace ChangeKind

def all : List ChangeKind := [added, modified, deleted, renamed]

def name : ChangeKind → String
  | added => "added"
  | modified => "modified"
  | deleted => "deleted"
  | renamed => "renamed"

def ofName? (text : String) : Option ChangeKind := all.find? (·.name == text)

/-- Whether the file has to be read again. -/
def needsExtraction : ChangeKind → Bool
  | added | modified => true
  | deleted | renamed => false

end ChangeKind

/-- What a batch of changes was started by. -/
inductive Trigger where
  | watch
  | gitCommit
  | manual
  deriving DecidableEq, Repr, Inhabited

namespace Trigger

def all : List Trigger := [watch, gitCommit, manual]

def name : Trigger → String
  | watch => "watch"
  | gitCommit => "git-commit"
  | manual => "manual"

def ofName? (text : String) : Option Trigger := all.find? (·.name == text)

/-- Work asked for by hand goes first, work found by watching goes last. -/
def priority : Trigger → Nat
  | watch => 1
  | gitCommit => 2
  | manual => 3

/-- The more urgent of two triggers. -/
def max (a b : Trigger) : Trigger := if a.priority ≤ b.priority then b else a

end Trigger

structure FileChange where
  path : String
  kind : ChangeKind
  previousPath : Option String
  revision : Option String
  deriving DecidableEq, Repr, Inhabited

namespace FileChange

def added (path : String) : FileChange := ⟨path, .added, none, none⟩
def modified (path : String) : FileChange := ⟨path, .modified, none, none⟩
def deleted (path : String) : FileChange := ⟨path, .deleted, none, none⟩
def renamed (source target : String) : FileChange := ⟨target, .renamed, some source, none⟩

def withRevision (change : FileChange) (revision : String) : FileChange :=
  { change with revision := some revision }

end FileChange

/-- A batch may be called off until its merge starts. -/
inductive Cancellation where
  | running
  | cancelled
  deriving DecidableEq, Repr

/-- Where a batch came from. `cancellation` is absent for work that cannot be called off. -/
structure Origin where
  trigger : Trigger
  revision : Option String
  cancellation : Option Cancellation
  deriving DecidableEq, Repr

namespace Origin

def ofTrigger (trigger : Trigger) : Origin := ⟨trigger, none, none⟩
def manual : Origin := ofTrigger .manual
def watch : Origin := ofTrigger .watch
def gitCommit (revision : String) : Origin := ⟨.gitCommit, some revision, none⟩

def withCancellation (origin : Origin) (token : Cancellation) : Origin :=
  { origin with cancellation := some token }

def isCancelled (origin : Origin) : Bool := origin.cancellation == some .cancelled

/-- Call the batch off, when it can be. -/
def cancel (origin : Origin) : Origin :=
  { origin with cancellation := origin.cancellation.map fun _ => .cancelled }

end Origin

end HouseStyle
