import HouseStyle.Concept
import HouseStyle.Json.Decode
import HouseStyle.Naming.Style

/-!
# Pattern contents

A content is one rule a project may follow. Contents of one slot exclude each
other: camel case variables and snake case variables compete, camel case variables
and double quotes do not.
-/

namespace HouseStyle

inductive FunctionStyle where
  | declaration
  | arrow
  deriving DecidableEq, Repr, Inhabited

namespace FunctionStyle

def all : List FunctionStyle := [declaration, arrow]

def name : FunctionStyle → String
  | declaration => "declaration"
  | arrow => "arrow"

def ofName? (text : String) : Option FunctionStyle := all.find? (·.name == text)

end FunctionStyle

inductive Indent where
  | tabs
  | twoSpaces
  | fourSpaces
  deriving DecidableEq, Repr, Inhabited

namespace Indent

def all : List Indent := [tabs, twoSpaces, fourSpaces]

def name : Indent → String
  | tabs => "tabs"
  | twoSpaces => "two_spaces"
  | fourSpaces => "four_spaces"

def ofName? (text : String) : Option Indent := all.find? (·.name == text)

end Indent

inductive QuoteStyle where
  | single
  | double
  deriving DecidableEq, Repr, Inhabited

namespace QuoteStyle

def all : List QuoteStyle := [single, double]

def name : QuoteStyle → String
  | single => "single"
  | double => "double"

def ofName? (text : String) : Option QuoteStyle := all.find? (·.name == text)

end QuoteStyle

/-- How the name of a test file tells it from the code it covers. -/
inductive TestConvention where
  | dotTest
  | dotSpec
  | testFirst
  | testLast
  deriving DecidableEq, Repr, Inhabited

namespace TestConvention

def all : List TestConvention := [dotTest, dotSpec, testFirst, testLast]

def name : TestConvention → String
  | dotTest => "dot_test"
  | dotSpec => "dot_spec"
  | testFirst => "test_prefix"
  | testLast => "test_suffix"

def ofName? (text : String) : Option TestConvention := all.find? (·.name == text)

end TestConvention

inductive TestLocation where
  | colocated
  | separate (directory : String)
  deriving DecidableEq, Repr, Inhabited

/-- The kind of rule a pattern states. -/
inductive Category where
  | naming
  | structural
  | implementation
  | style
  | testing
  deriving DecidableEq, Repr, Inhabited

namespace Category

def all : List Category := [naming, structural, implementation, style, testing]

def name : Category → String
  | naming => "naming"
  | structural => "structural"
  | implementation => "implementation"
  | style => "style"
  | testing => "testing"

def ofName? (text : String) : Option Category := all.find? (·.name == text)

end Category

inductive PatternContent where
  | naming (target : ConceptKind) (style : CaseStyle)
  | fileNaming (style : CaseStyle)
  | functionStyle (style : FunctionStyle)
  | indentation (indent : Indent)
  | quotes (quote : QuoteStyle)
  | testFileNaming (convention : TestConvention)
  | testLocation (location : TestLocation)
  deriving DecidableEq, Repr, Inhabited

namespace PatternContent

def category : PatternContent → Category
  | naming .. => .naming
  | fileNaming _ => .structural
  | functionStyle _ => .implementation
  | indentation _ | quotes _ => .style
  | testFileNaming _ | testLocation _ => .testing

/-- The slot a rule competes in. -/
def slot : PatternContent → String
  | naming target _ => "naming:" ++ target.name
  | fileNaming _ => "structural:file_naming"
  | functionStyle _ => "implementation:function_style"
  | indentation _ => "style:indentation"
  | quotes _ => "style:quotes"
  | testFileNaming _ => "testing:file_naming"
  | testLocation _ => "testing:location"

/-- The rule without its slot. The directory of separate tests is left out, since it is
a matter of the single project. -/
def value : PatternContent → String
  | naming _ style | fileNaming style => style.name
  | functionStyle style => style.name
  | indentation indent => indent.name
  | quotes quote => quote.name
  | testFileNaming convention => convention.name
  | testLocation .colocated => "colocated"
  | testLocation (.separate _) => "separate"

/-- What a rule is called across projects. -/
def signature (content : PatternContent) : String := content.slot ++ ":" ++ content.value

/-- The rule in words. -/
def describe : PatternContent → String
  | naming target style => target.name ++ " names use " ++ style.name
  | fileNaming style => "file names use " ++ style.name
  | functionStyle .declaration => "functions are declared with the function keyword"
  | functionStyle .arrow => "functions are declared as arrow functions"
  | indentation .tabs => "indentation uses tabs"
  | indentation .twoSpaces => "indentation uses two spaces"
  | indentation .fourSpaces => "indentation uses four spaces"
  | quotes quote => "string literals use " ++ quote.name ++ " quotes"
  | testFileNaming .dotTest => "test files are named *.test.*"
  | testFileNaming .dotSpec => "test files are named *.spec.*"
  | testFileNaming .testFirst => "test files are named test_*"
  | testFileNaming .testLast => "test files are named *_test"
  | testLocation .colocated => "tests live next to the code they cover"
  | testLocation (.separate directory) => "tests live under " ++ directory ++ "/"

private def ruled (category rule key value : String) : Json :=
  .object [("type", .text category), ("rule", .text rule), (key, .text value)]

def locationJson : TestLocation → Json
  | .colocated => .text "colocated"
  | .separate directory => .object [("separate", .object [("directory", .text directory)])]

/-- The stored form: the category, the rule, and what the rule says. -/
def toJson : PatternContent → Json
  | naming target style =>
    .object [("type", .text "naming"), ("target", .text target.name), ("style", .text style.name)]
  | fileNaming style => ruled "structural" "file_naming" "style" style.name
  | functionStyle style => ruled "implementation" "function_style" "style" style.name
  | indentation indent => ruled "style" "indentation" "indent" indent.name
  | quotes quote => ruled "style" "quotes" "quote" quote.name
  | testFileNaming convention => ruled "testing" "file_naming" "convention" convention.name
  | testLocation location =>
    .object [("type", .text "testing"), ("rule", .text "location"),
      ("location", locationJson location)]

private def choice? {α : Type} (ofName? : String → Option α) (value : Json) : Option α :=
  value.asTaggedChoice?.bind ofName?

private def single? {α : Type} (key : String) (decode : Json → Option α) (body : Json) :
    Option α :=
  match body.record? [(key, .required)] with
  | some [field] => Json.need? decode field
  | _ => none

def location? : Json → Option TestLocation
  | .object [("separate", body)] => (single? "directory" Json.asText? body).map .separate
  | value => if value.asTaggedChoice? = some "colocated" then some .colocated else none

private def ruled? (names : List String) (decode : String → Json → Option PatternContent)
    (body : Json) : Option PatternContent := do
  let (tag, rest) ← body.tagged? "rule"
  let rule ← tag.tagName? names
  decode rule rest

def ofCategory? (category : String) (body : Json) : Option PatternContent :=
  match category with
  | "naming" =>
    match body.record? [("target", .required), ("style", .required)] with
    | some [target, style] => do
      let target ← Json.need? (choice? ConceptKind.ofName?) target
      let style ← Json.need? (choice? CaseStyle.ofName?) style
      some (naming target style)
    | _ => none
  | "structural" =>
    ruled? ["file_naming"] (fun rule rest =>
      match rule with
      | "file_naming" => (single? "style" (choice? CaseStyle.ofName?) rest).map fileNaming
      | _ => none) body
  | "implementation" =>
    ruled? ["function_style"] (fun rule rest =>
      match rule with
      | "function_style" => (single? "style" (choice? FunctionStyle.ofName?) rest).map functionStyle
      | _ => none) body
  | "style" =>
    ruled? ["indentation", "quotes"] (fun rule rest =>
      match rule with
      | "indentation" => (single? "indent" (choice? Indent.ofName?) rest).map indentation
      | "quotes" => (single? "quote" (choice? QuoteStyle.ofName?) rest).map quotes
      | _ => none) body
  | "testing" =>
    ruled? ["file_naming", "location"] (fun rule rest =>
      match rule with
      | "file_naming" =>
        (single? "convention" (choice? TestConvention.ofName?) rest).map testFileNaming
      | "location" => (single? "location" location? rest).map testLocation
      | _ => none) body
  | _ => none

/-- The content a stored form stands for. It is read as a whole before its tags are looked
at, so nothing in it may be beyond what can be held. -/
def ofJson? (value : Json) : Option PatternContent := do
  if !value.isHeld then none
  let (tag, body) ← value.tagged? "type"
  let category ← tag.asText?
  ofCategory? category body

/-- The stored form with its keys sorted, from which the identity is computed. -/
def canonicalText (content : PatternContent) : String := content.toJson.sorted.render

end PatternContent

end HouseStyle
