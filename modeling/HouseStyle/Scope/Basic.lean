import HouseStyle.Error.Operation
import HouseStyle.Path
import HouseStyle.Scope.Glob

/-!
# Scopes

A scope says for which paths an exception holds. Without wildcards it is a file or
directory: `legacy` covers `legacy` itself and everything below `legacy/`. With
wildcards it is a glob.
-/

namespace HouseStyle

inductive Scope where
  | below (path : String)
  | glob (text : String) (tokens : List GlobToken)
  deriving Repr

namespace Scope

def hasWildcard (text : String) : Bool :=
  text.toList.any fun c => c == '*' || c == '?' || c == '['

/-- Read a scope. The text is normalized like a path and must stay below the root. -/
def compile (text : String) : Except DetectionError Scope :=
  let normalized := Path.normalize text
  match Path.problem? normalized with
  | some problem => .error (.invalidGlob text problem.message)
  | none =>
    if hasWildcard normalized then
      match Glob.tokens normalized.toList with
      | .ok tokens => .ok (.glob normalized tokens)
      | .error problem => .error (.invalidGlob text problem.message)
    else .ok (.below normalized)

/-- The normalized text. -/
def text : Scope → String
  | below path => path
  | glob text _ => text

/-- Whether a normalized path lies in the scope. -/
def covers : Scope → String → Bool
  | below directory, path => path == directory || (directory.toList ++ ['/']).isPrefixOf path.toList
  | glob _ tokens, path => Glob.covers tokens path

end Scope

/-- Scopes that were compiled before, by the text they were asked for with, and how often
one of them was found here. -/
structure ScopeCache where
  compiled : List (String × Scope)
  hits : Nat

namespace ScopeCache

def empty : ScopeCache := ⟨[], 0⟩

/-- The scope of a text. One that does not compile is not kept. -/
def scope (cache : ScopeCache) (text : String) : Except DetectionError Scope × ScopeCache :=
  match cache.compiled.lookup text with
  | some scope => (.ok scope, { cache with hits := cache.hits + 1 })
  | none =>
    match Scope.compile text with
    | .ok scope => (.ok scope, { cache with compiled := (text, scope) :: cache.compiled })
    | .error error => (.error error, cache)

end ScopeCache

end HouseStyle
