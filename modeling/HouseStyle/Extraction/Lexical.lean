import HouseStyle.Extraction.Shape
import HouseStyle.Language
import HouseStyle.Naming.Convert
import HouseStyle.Text.Lines
import HouseStyle.Concept

/-!
# The lexical extractor

Finds declarations line by line, without parsing. Each language has an ordered list
of rules; the first rule whose shape a line begins with gives the concept. Lines
that begin like a comment are skipped.
-/

namespace HouseStyle.Extraction

open HouseStyle.Text
open Shape

/-- A shape and the kind of concept it declares. `promotes` tells that a name in capitals
makes the concept a constant. -/
structure Rule where
  shape : Shape
  kind : ConceptKind
  promotes : Bool

def rule (kind : ConceptKind) (shapes : List Shape) : Rule := ⟨all shapes, kind, false⟩

def promotingRule (kind : ConceptKind) (shapes : List Shape) : Rule := ⟨all shapes, kind, true⟩

/-- A colon and anything up to an equals sign, or nothing. -/
private def maybeAnnotation : Shape := maybe (seq (literal ":") (atLeastOne (except '=')))

private def binder : Shape := words ["const", "let", "var"]

def scriptRules : List Rule := [
  rule .function [gap, maybeWord "export", maybeWord "default", maybeWord "async",
    literal "function", gap, maybe (literal "*"), gap, dollarIdentifier],
  rule .arrowFunction [gap, maybeWord "export", binder, space, dollarIdentifier, gap,
    maybeAnnotation, literal "=", gap, maybeWord "async", either parenthesized dollarName, gap,
    maybeAnnotation, literal "=>"],
  rule .classType [gap, maybeWord "export", maybeWord "default", maybeWord "abstract",
    literal "class", space, dollarIdentifier],
  rule .interface [gap, maybeWord "export", literal "interface", space, dollarIdentifier],
  rule .typeAlias [gap, maybeWord "export", literal "type", space, dollarIdentifier, gap,
    maybe (all [literal "<", many (except '>'), literal ">"]), gap, literal "="],
  promotingRule .variable [gap, maybeWord "export", binder, space, dollarIdentifier],
  rule .method [space,
    repeated (seq
      (words ["public", "private", "protected", "static", "async", "readonly", "override"]) space),
    dollarIdentifier, gap, parenthesized, gap,
    maybe (all [literal ":", gap, atLeastOne (except '\x7b')]), literal "\x7b"]]

def pythonRules : List Rule := [
  rule .method [space, maybeWord "async", literal "def", space, identifier],
  rule .function [maybeWord "async", literal "def", space, identifier],
  rule .classType [gap, literal "class", space, identifier],
  promotingRule .variable [identifier, gap, maybeAnnotation, literal "=", one (except '=')]]

private def visibility : Shape := maybe (all [literal "pub", maybe parenthesized, space])

private def functionHead : List Shape :=
  [visibility, maybeWord "const", maybeWord "async", maybeWord "unsafe", literal "fn", space,
    identifier]

def rustRules : List Rule := [
  rule .method (space :: functionHead),
  rule .function functionHead,
  rule .interface [gap, visibility, literal "trait", space, identifier],
  rule .classType [gap, visibility, words ["struct", "enum", "union"], space, identifier],
  rule .typeAlias [gap, visibility, literal "type", space, identifier],
  rule .constant [gap, visibility, words ["const", "static"], space, maybeWord "mut", identifier,
    gap, literal ":"],
  rule .variable [gap, literal "let", space, maybeWord "mut", identifier],
  rule .moduleUnit [gap, visibility, literal "mod", space, identifier]]

def goRules : List Rule := [
  rule .method [literal "func", space, parenthesized, gap, identifier],
  rule .function [literal "func", space, identifier],
  rule .interface [literal "type", space, identifier, space, literal "interface", wordEnd],
  rule .classType [literal "type", space, identifier, space],
  rule .constant [gap, literal "const", space, identifier],
  promotingRule .variable [gap, literal "var", space, identifier],
  rule .variable [gap, identifier, gap, literal ":="]]

/-- Characters of a written type. -/
private def typeChar (c : Char) : Bool :=
  isWordChar c || c == '<' || c == '>' || c == '[' || c == ']' || c == ',' || c == ' ' || c == '?'

private def modifier (texts : List String) : Shape := seq (words texts) space

def javaRules : List Rule := [
  rule .interface [gap,
    repeated (modifier ["public", "private", "protected", "abstract", "static", "sealed"]),
    literal "interface", space, identifier],
  rule .classType [gap,
    repeated (modifier ["public", "private", "protected", "abstract", "final", "static", "sealed"]),
    words ["class", "enum", "record"], space, identifier],
  rule .constant [gap, maybe (modifier ["public", "private", "protected"]), literal "static",
    space, literal "final", space, atLeastOne typeChar, space, identifier, gap, literal "="],
  let modifiers :=
    modifier ["public", "private", "protected", "static", "final", "abstract", "synchronized"]
  rule .method [space, modifiers, repeated modifiers, atLeastOne typeChar, space, identifier, gap,
    literal "("]]

def rulesFor : Language → List Rule
  | .typeScript | .javaScript => scriptRules
  | .python => pythonRules
  | .rust => rustRules
  | .go => goRules
  | .java => javaRules

/-- Words that begin a statement and not a method, although they look like one. -/
def statementWords : List String :=
  ["if", "for", "while", "switch", "catch", "return", "function", "do", "else", "with"]

def startsWith (start : String) (s : List Char) : Bool := start.toList.isPrefixOf s

def isComment (line : List Char) : Bool :=
  let trimmed := trimStart line
  startsWith "//" trimmed || startsWith "#" trimmed || startsWith "/*" trimmed ||
    startsWith "*" trimmed

/-- The first rule that a line begins with, and the name it declares. -/
def firstMatch? (rules : List Rule) (line : List Char) : Option (Rule × List Char) :=
  rules.findSome? fun rule => (rule.shape.nameIn? line).map fun name => (rule, name)

def lexicalConfidence : Float := 0.7

/-- The concept that a line declares. `number` counts lines from 1. -/
def conceptIn? (language : Language) (number : Nat) (line : List Char) : Option Concept :=
  if isComment line then none
  else
    match firstMatch? (rulesFor language) line with
    | none => none
    | some (rule, chars) =>
      let name := String.ofList chars
      if language.isScript && rule.kind == .method && statementWords.contains name then none
      else
        let kind :=
          if rule.promotes && Naming.classify? name == some .screamingSnake then .constant
          else rule.kind
        some ⟨name, kind, lexicalConfidence, number, number⟩

/-- Pair each item with its place, counted from `start`. -/
def numberedFrom {α : Type} (start : Nat) (items : List α) : List (Nat × α) :=
  (List.range' start items.length).zip items

/-- All concepts of a file. A file in an unknown language has none and counts as degraded. -/
def lexical (path content : String) : Extraction :=
  match Language.ofPath? path with
  | none => Extraction.unsupported
  | some language =>
    let numbered := numberedFrom 1 (lines content.toList)
    ⟨numbered.filterMap fun (number, line) => conceptIn? language number line, false⟩

end HouseStyle.Extraction
