import HouseStyle.Path

/-!
# Languages

The language of a source file is told by the extension of its name.
-/

namespace HouseStyle

inductive Language where
  | typeScript
  | javaScript
  | python
  | java
  | go
  | rust
  deriving DecidableEq, Repr, Inhabited

namespace Language

def ofExtension? : String → Option Language
  | "ts" | "tsx" | "mts" | "cts" => some typeScript
  | "js" | "jsx" | "mjs" | "cjs" => some javaScript
  | "py" | "pyi" => some python
  | "java" => some java
  | "go" => some go
  | "rs" => some rust
  | _ => none

def ofPath? (path : String) : Option Language :=
  (Path.splitExtension? (Path.fileName path)).bind fun (_, extension) => ofExtension? extension

/-- The name of the language in pattern contexts. -/
def tag : Language → String
  | typeScript => "typescript"
  | javaScript => "javascript"
  | python => "python"
  | java => "java"
  | go => "go"
  | rust => "rust"

def isScript : Language → Bool
  | typeScript | javaScript => true
  | _ => false

/-- Whether single and double quotes write the same string. -/
def hasFreeQuotes : Language → Bool
  | typeScript | javaScript | python => true
  | _ => false

end Language

end HouseStyle
