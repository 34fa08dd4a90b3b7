/-!
# Learning modes

A batch is learned in full when it touches more than a given share of the tracked
files; then every stored pattern is computed anew from its evidence. Otherwise only
the patterns that the batch touches are.
-/

namespace HouseStyle

inductive LearningMode where
  | full
  | incremental
  | skip
  deriving DecidableEq, Repr, Inhabited

namespace LearningMode

def all : List LearningMode := [full, incremental, skip]

def name : LearningMode → String
  | full => "full"
  | incremental => "incremental"
  | skip => "skip"

def ofName? (text : String) : Option LearningMode := all.find? (·.name == text)

/-- Whether the changed files are more than `threshold` of all. Without any tracked file
there is nothing to learn again. -/
def needsFull (changed total : Nat) (threshold : Float) : Bool :=
  total != 0 && threshold < Float.ofNat changed / Float.ofNat total

def choose (changed total : Nat) (threshold : Float) : LearningMode :=
  if changed = 0 then skip
  else if needsFull changed total threshold then full
  else incremental

end LearningMode

end HouseStyle
