import HouseStyle.Extraction.Lexical
import HouseStyle.Pattern.Content

/-!
# Observations

An observation is one place in a file that follows a rule: a name, an indented line,
a quote, the file's own name. They are made in a fixed order: names, the file name,
then by language the function style, indentation and quotes, and last the tests.
-/

namespace HouseStyle

open HouseStyle.Text
open HouseStyle.Extraction (startsWith numberedFrom)

structure Observation where
  content : PatternContent
  /-- Counted from 1. -/
  line : Nat
  snippet : String
  /-- The identifier or file name the observation is about. -/
  subject : Option String
  deriving DecidableEq, Repr, Inhabited

namespace Observation

/-- The longest snippet kept, in characters. -/
def snippetLength : Nat := 160

/-- Directories that hold nothing but tests. -/
def testDirectories : List String := ["tests", "test", "__tests__", "spec"]

/-- A line, trimmed and cut. A line that does not exist gives the empty text. -/
def snippetAt (lines : List (List Char)) (line : Nat) : String :=
  String.ofList ((trim (lines.getD (line - 1) [])).take snippetLength)

private def atConcept (lines : List (List Char)) (concept : Concept) (content : PatternContent) :
    Observation :=
  let line := max concept.lineStart 1
  ⟨content, line, snippetAt lines line, some concept.name⟩

/-- Whether names of a kind are held to a style. -/
def isNamed : ConceptKind → Bool
  | .other | .moduleUnit | .testCase => false
  | _ => true

def ofNames (lines : List (List Char)) (concepts : List Concept) : List Observation :=
  concepts.filterMap fun concept =>
    let target := concept.kind.namingTarget
    if isNamed target then
      (Naming.classify? concept.name).map fun style =>
        atConcept lines concept (.naming target style)
    else none

def ofFileName (path : String) : List Observation :=
  let file := Path.fileName path
  let stem := String.ofList (file.toList.takeWhile (· ≠ '.'))
  match Naming.classify? stem with
  | some style => [⟨.fileNaming style, 1, file, some stem⟩]
  | none => []

def ofFunctionStyle (lines : List (List Char)) (concepts : List Concept) : List Observation :=
  concepts.filterMap fun concept =>
    match concept.kind with
    | .function => some (atConcept lines concept (.functionStyle .declaration))
    | .arrowFunction => some (atConcept lines concept (.functionStyle .arrow))
    | _ => none

/-- What the lines read so far say about indentation. -/
inductive IndentEvidence where
  | none
  | tabs (line : Nat)
  /-- The fewest spaces in front of an indented line, and the first line with that many. -/
  | spaces (count line : Nat)

/-- Blank lines and lines of a block comment say nothing. A tab counts when it comes
before any indentation by spaces. -/
def IndentEvidence.step (evidence : IndentEvidence) (numbered : Nat × List Char) :
    IndentEvidence :=
  let (number, line) := numbered
  let trimmed := trimStart line
  if trimmed.isEmpty || startsWith "*" trimmed then evidence
  else
    match evidence with
    | .tabs _ => evidence
    | .none =>
      if line.head? = some '\t' then .tabs number
      else
        match (line.takeWhile (· = ' ')).length with
        | 0 => evidence
        | count => .spaces count number
    | .spaces fewest _ =>
      if line.head? = some '\t' then evidence
      else
        match (line.takeWhile (· = ' ')).length with
        | 0 => evidence
        | count => if count < fewest then .spaces count number else evidence

def ofIndentation (lines : List (List Char)) : List Observation :=
  let seen (indent : Indent) (line : Nat) : List Observation :=
    [⟨.indentation indent, line, snippetAt lines line, none⟩]
  match (numberedFrom 1 lines).foldl IndentEvidence.step .none with
  | .tabs line => seen .tabs line
  | .spaces 2 line => seen .twoSpaces line
  | .spaces 4 line => seen .fourSpaces line
  | _ => []

/-- How often a character occurs, and the first line it occurs in. -/
structure Tally where
  count : Nat
  first : Option Nat

def Tally.add (tally : Tally) (number occurrences : Nat) : Tally :=
  ⟨tally.count + occurrences,
    if tally.first.isNone && 0 < occurrences then some number else tally.first⟩

/-- Count a character outside comment lines. -/
def tally (quote : Char) (lines : List (List Char)) : Tally :=
  (numberedFrom 1 lines).foldl (fun tally (number, line) =>
    let trimmed := trimStart line
    if startsWith "//" trimmed || startsWith "#" trimmed || startsWith "*" trimmed then tally
    else tally.add number (trimmed.count quote)) ⟨0, none⟩

/-- The more frequent quote, at the first line that has it. -/
def ofQuotes (lines : List (List Char)) : List Observation :=
  let single := tally '\'' lines
  let double := tally '"' lines
  let seen (quote : QuoteStyle) (line : Option Nat) : List Observation :=
    line.toList.map fun line => ⟨.quotes quote, line, snippetAt lines line, none⟩
  if double.count < single.count then seen .single single.first
  else if single.count < double.count then seen .double double.first
  else []

def contains (part : String) (s : List Char) : Bool :=
  match s with
  | [] => part.isEmpty
  | c :: rest => startsWith part (c :: rest) || contains part rest

/-- The convention that a test file's name follows. -/
def testConvention? (fileName : String) : Option TestConvention :=
  let stem := match Path.splitExtension? fileName with
    | some (stem, _) => stem
    | none => fileName
  if contains ".test." fileName.toList then some .dotTest
  else if contains ".spec." fileName.toList then some .dotSpec
  else if startsWith "test_" stem.toList then some .testFirst
  else if "_test".toList.isSuffixOf stem.toList then some .testLast
  else none

/-- The innermost directory of a path that holds tests. -/
def testDirectory? (path : String) : Option String :=
  let directories := ((Path.segments path.toList).map String.ofList).dropLast.reverse
  directories.find? testDirectories.contains

def ofTests (path : String) : List Observation :=
  let file := Path.fileName path
  let convention := testConvention? file
  let directory := testDirectory? path
  if convention.isNone && directory.isNone then []
  else
    let location := match directory with
      | some directory => TestLocation.separate directory
      | none => .colocated
    (convention.toList.map fun convention => ⟨.testFileNaming convention, 1, file, some file⟩) ++
      [⟨.testLocation location, 1, path, some file⟩]

/-- All observations of a file. -/
def observe (path content : String) (extraction : Extraction) : List Observation :=
  let lines := lines content.toList
  let byLanguage := match Language.ofPath? path with
    | none => []
    | some language =>
      (if language.isScript then ofFunctionStyle lines extraction.concepts else []) ++
        ofIndentation lines ++ (if language.hasFreeQuotes then ofQuotes lines else [])
  ofNames lines extraction.concepts ++ ofFileName path ++ byLanguage ++ ofTests path

end Observation

end HouseStyle
