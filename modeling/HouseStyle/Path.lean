import HouseStyle.Text.Blank
import HouseStyle.Text.Lines

/-!
# Paths below a project root

A path is written with forward slashes, relative to the root of its project.
`normalize` brings the usual spellings of one file to one text, and `problem?`
says why a normalized text names no file below the root.
-/

namespace HouseStyle.Path

open HouseStyle.Text

/-- Backslashes are another spelling of the separator. -/
def forwardSlash (c : Char) : Char := if c = '\\' then '/' else c

/-- Write a character in front of a path without doubling a separator. -/
def consOnce (c : Char) (s : List Char) : List Char :=
  if c = '/' ∧ s.head? = some '/' then s else c :: s

/-- One slash for every run of slashes. -/
def collapse (s : List Char) : List Char := s.foldr consOnce []

/-- Drop every `./` in front. -/
def dropHere : List Char → List Char
  | '.' :: '/' :: rest => dropHere rest
  | s => s

/-- Drop the slashes at the end, but leave a lone slash alone. -/
def dropClosing (s : List Char) : List Char :=
  match dropEndWhile (· = '/') s with
  | [] => s.take 1
  | kept => kept

def normalizeChars (s : List Char) : List Char :=
  dropClosing (dropHere (collapse ((trim s).map forwardSlash)))

/-- The text under which a file is stored, queued and matched. -/
def normalize (path : String) : String := String.ofList (normalizeChars path.toList)

/-- Why a path is refused. -/
inductive Problem where
  | empty
  | absolute
  | escapes
  deriving DecidableEq, Repr

def Problem.message : Problem → String
  | .empty => "path is empty"
  | .absolute => "path must be relative to the project root"
  | .escapes => "path escapes the project root"

def segments (s : List Char) : List (List Char) := splitAt '/' s

def problemChars? (s : List Char) : Option Problem :=
  if s = [] then some .empty
  else if s.head? = some '/' ∨ s[1]? = some ':' then some .absolute
  else if ['.', '.'] ∈ segments s then some .escapes
  else none

/-- The first reason against a path, if there is one. -/
def problem? (path : String) : Option Problem := problemChars? path.toList

/-- Everything up to the last slash, the slash included. -/
def parent? (path : String) : Option String :=
  match path.toList.reverse.dropWhile (· ≠ '/') with
  | [] => none
  | kept => some (String.ofList kept.reverse)

/-- The last segment. -/
def fileName (path : String) : String :=
  String.ofList (path.toList.reverse.takeWhile (· ≠ '/')).reverse

/-- The part before the last dot and the part after it, when there is a dot. -/
def splitExtension? (name : String) : Option (String × String) :=
  let reversed := name.toList.reverse
  match reversed.dropWhile (· ≠ '.') with
  | [] => none
  | _ :: stem =>
    some (String.ofList stem.reverse, String.ofList (reversed.takeWhile (· ≠ '.')).reverse)

end HouseStyle.Path
