/-!
# Concepts

A concept is a named declaration found in a source file, with the lines it spans.
-/

namespace HouseStyle

inductive ConceptKind where
  | function
  | arrowFunction
  | method
  | classType
  | interface
  | typeAlias
  | variable
  | constant
  | moduleUnit
  | testCase
  | other
  deriving DecidableEq, Repr, Inhabited

namespace ConceptKind

def all : List ConceptKind :=
  [.function, .arrowFunction, .method, .classType, .interface, .typeAlias, .variable, .constant,
    .moduleUnit, .testCase, .other]

def name : ConceptKind → String
  | .function => "function"
  | .arrowFunction => "arrow_function"
  | .method => "method"
  | .classType => "class"
  | .interface => "interface"
  | .typeAlias => "type_alias"
  | .variable => "variable"
  | .constant => "constant"
  | .moduleUnit => "module"
  | .testCase => "test_case"
  | .other => "other"

def ofName? (text : String) : Option ConceptKind := all.find? (·.name == text)

/-- A name that stands for no kind is counted among the others. -/
def ofName (text : String) : ConceptKind := (ofName? text).getD .other

/-- Arrow functions are named like functions. -/
def namingTarget : ConceptKind → ConceptKind
  | .arrowFunction => .function
  | kind => kind

end ConceptKind

structure Concept where
  name : String
  kind : ConceptKind
  confidence : Float
  lineStart : Nat
  lineEnd : Nat

/-- What an extractor found in a file. `degraded` tells that the file was not fully understood. -/
structure Extraction where
  concepts : List Concept
  degraded : Bool

/-- The answer for a file in a language that the extractor does not know. -/
def Extraction.unsupported : Extraction := ⟨[], true⟩

end HouseStyle
