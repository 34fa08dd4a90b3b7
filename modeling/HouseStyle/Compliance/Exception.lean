import HouseStyle.Event
import HouseStyle.Scope.Basic
import HouseStyle.Store.PatternStore
import HouseStyle.Text.Blank

/-!
# Exceptions

An exception silences one pattern for the paths in a scope. A path is excepted from a
pattern when one of the pattern's exceptions covers it.
-/

namespace HouseStyle

/-- A path of a file to check, if it stays below the root. -/
def checkablePath (path : String) : Except DetectionError String :=
  let normalized := Path.normalize path
  match Path.problem? normalized with
  | some problem => .error (.invalidInput (path ++ ": " ++ problem.message))
  | none => .ok normalized

/-- Whether one of some scopes covers a path. The scopes are tried in order, and one that
does not compile ends the search. -/
def coveredBy (path : String) : List String → Except DetectionError Bool
  | [] => .ok false
  | text :: texts => do
    if (← Scope.compile text).covers path then return true else coveredBy path texts

namespace PatternStore

def scopesOf (store : PatternStore) (patternId : String) : List String :=
  (store.exceptionsForPattern patternId).map (·.scopeGlob)

/-- Whether an exception covers a normalized path. Scopes that do not compile cover nothing. -/
def silences (store : PatternStore) (patternId path : String) : Bool :=
  match coveredBy path (store.scopesOf patternId) with
  | .ok covered => covered
  | .error _ => false

/-- Whether an exception covers a path. -/
def isExcepted (store : PatternStore) (patternId path : String) : Except DetectionError Bool := do
  let path ← checkablePath path
  coveredBy path (store.scopesOf patternId)

/-- Add an exception. The scope has to compile. -/
def addException (store : PatternStore) (now : Int) (patternId reason scope : String) :
    Except DetectionError (PatternStore × ExceptionRow) := do
  if (Text.trim patternId.toList).isEmpty then throw (.invalidInput "pattern id is empty")
  let _ ← Scope.compile scope
  match store.insertException patternId scope reason now with
  | .ok (store, id) => return (store, ⟨id, patternId, scope, reason, now⟩)
  | .error error => throw (.storage error)

end PatternStore

end HouseStyle
