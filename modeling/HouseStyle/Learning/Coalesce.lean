import HouseStyle.Change
import HouseStyle.Error.Operation
import HouseStyle.Path

/-!
# Coalescing a batch

A batch is brought to one change per path before it is learned. The last change of a
path wins, in the place where the path first came up. A rename cannot be overwritten
like that: a file that is renamed and then changed again, and a file that is edited
and then renamed, are removed under the old path and read under the new one.
-/

namespace HouseStyle

namespace Coalesce

/-- The change that is kept for a path so far. -/
def pending? (kept : List FileChange) (path : String) : Option FileChange :=
  kept.find? (·.path == path)

/-- Put a change in the place of the one for the same path, or at the end. -/
def place (kept : List FileChange) (change : FileChange) : List FileChange :=
  if kept.any (·.path == change.path) then
    kept.map fun other => if other.path == change.path then change else other
  else kept ++ [change]

/-- Where the file comes from that a kept rename moves to this path. -/
def renameSource? (kept : List FileChange) (path : String) : Option String :=
  ((pending? kept path).filter (·.kind == .renamed)).bind (·.previousPath)

def isEdited (kept : List FileChange) (path : String) : Bool :=
  (pending? kept path).any (·.kind.needsExtraction)

/-- A path that is about to be overwritten gives its source up for removal. -/
def releaseSource (kept : List FileChange) (path : String) : List FileChange :=
  match renameSource? kept path with
  | some source => place kept (.deleted source)
  | none => kept

/-- Add a checked change. -/
def add (kept : List FileChange) (change : FileChange) : List FileChange :=
  let kept := releaseSource kept change.path
  match change.kind, change.previousPath with
  | .renamed, some source =>
    if isEdited kept source then
      place (place kept (.deleted source)) { change with kind := .added, previousPath := none }
    else place kept change
  | _, _ => place kept change

/-- A path as it is stored, if it stays below the root. -/
def checkedPath (path : String) : Except LearnError String :=
  let normalized := Path.normalize path
  match Path.problem? normalized with
  | some problem => .error (.invalidBatch (problem.message ++ ": '" ++ path ++ "'"))
  | none => .ok normalized

/-- A change with its paths checked. A rename of a file onto itself is an edit. -/
def checked (change : FileChange) : Except LearnError FileChange := do
  let path ← checkedPath change.path
  if change.kind = .renamed then
    match change.previousPath with
    | none => throw (.invalidBatch ("rename of " ++ path ++ " has no previous path"))
    | some previous =>
      let source ← checkedPath previous
      if source = path then
        return { change with path, kind := .modified, previousPath := none }
      else return { change with path, previousPath := some source }
  else return { change with path, previousPath := none }

end Coalesce

/-- One change per path, with checked paths, and at most `limit` of them. -/
def coalesce (limit : Nat) (changes : List FileChange) : Except LearnError (List FileChange) := do
  let kept ← changes.foldlM (fun kept change => do
    return Coalesce.add kept (← Coalesce.checked change)) []
  if limit < kept.length then
    throw (.invalidBatch ("batch has " ++ toString kept.length ++ " files, limit is " ++
      toString limit))
  return kept

end HouseStyle
