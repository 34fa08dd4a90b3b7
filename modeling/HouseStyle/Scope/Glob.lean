/-!
# Globs

A glob is a path with wildcards: `?` is one character, `*` any number of them, and
`[a-c]` or `[!a-c]` one of a class, none of which passes a slash; `**`, alone in its
segment, is any number of whole segments.
-/

namespace HouseStyle

/-- A character or an inclusive range inside brackets. -/
inductive CharRange where
  | single (c : Char)
  | between (low high : Char)
  deriving DecidableEq, Repr

def CharRange.holds (c : Char) : CharRange → Bool
  | single d => c == d
  | between low high => low ≤ c && c ≤ high

inductive GlobToken where
  | literal (c : Char)
  | anyChar
  | within (ranges : List CharRange)
  | without (ranges : List CharRange)
  | star
  | doubleStar
  deriving DecidableEq, Repr

/-- What is wrong with a glob. -/
inductive GlobFault where
  | tooManyStars
  | loneDoubleStar
  | openRange
  deriving DecidableEq, Repr

def GlobFault.message : GlobFault → String
  | tooManyStars => "wildcards are either regular `*` or recursive `**`"
  | loneDoubleStar => "recursive wildcards must form a single path component"
  | openRange => "invalid range pattern"

/-- A fault and where it is, counted in characters. -/
structure GlobProblem where
  position : Nat
  fault : GlobFault
  deriving DecidableEq, Repr

def GlobProblem.message (problem : GlobProblem) : String :=
  "Pattern syntax error near position " ++ toString problem.position ++ ": " ++
    problem.fault.message

namespace Glob

/-- The inside of a pair of brackets. A dash between two characters makes a range. -/
def ranges : List Char → List CharRange
  | low :: '-' :: high :: rest => .between low high :: ranges rest
  | c :: rest => .single c :: ranges rest
  | [] => []

/-- Split a bracketed class at its closing bracket. The first character inside may itself
be a closing bracket. -/
def bracketed? : List Char → Option (List Char × List Char)
  | first :: rest =>
    let inside := rest.takeWhile (· != ']')
    match rest.drop inside.length with
    | _ :: after => some (first :: inside, after)
    | [] => none
  | [] => none

/-- The class written after an opening bracket, and the text after it. -/
def classAfter? : List Char → Option (GlobToken × List Char)
  | '!' :: rest => (bracketed? rest).map fun (inside, after) => (.without (ranges inside), after)
  | rest => (bracketed? rest).map fun (inside, after) => (.within (ranges inside), after)

/-- The token at the front of a glob, from the character before it, and the text after it.
`position` counts the characters before it. -/
def token (position : Nat) (previous : Option Char) (c : Char) (rest : List Char) :
    Except GlobProblem (GlobToken × List Char) :=
  match c with
  | '?' => .ok (.anyChar, rest)
  | '*' =>
    match rest with
    | '*' :: '*' :: _ => .error ⟨position + 2, .tooManyStars⟩
    | '*' :: after =>
      if previous = none ∨ previous = some '/' then
        match after with
        | [] => .ok (.doubleStar, [])
        | '/' :: after => .ok (.doubleStar, after)
        | _ => .error ⟨position + 2, .loneDoubleStar⟩
      else .error ⟨position - 1, .loneDoubleStar⟩
    | _ => .ok (.star, rest)
  | '[' =>
    match classAfter? rest with
    | some result => .ok result
    | none => .error ⟨position, .openRange⟩
  | c => .ok (.literal c, rest)

/-- The tokens of a glob whose length is at most `fuel`. -/
def tokensFrom (fuel position : Nat) (previous : Option Char) :
    List Char → Except GlobProblem (List GlobToken)
  | [] => .ok []
  | c :: rest =>
    match fuel with
    | 0 => .ok []
    | fuel + 1 => do
      let (first, after) ← token position previous c rest
      let used := (c :: rest).take (rest.length + 1 - after.length)
      let others ← tokensFrom fuel (position + used.length) used.getLast? after
      .ok (first :: others)

def tokens (glob : List Char) : Except GlobProblem (List GlobToken) :=
  tokensFrom glob.length 0 none glob

/-- The outcome of a match. `tooShort` tells that the path ended inside the glob, so that
no wildcard before it helps by taking more. -/
inductive Outcome where
  | matched
  | failed
  | tooShort
  deriving DecidableEq, Repr

/-- The first outcome, unless it calls for another try. -/
def Outcome.orElse (first : Outcome) (other : Unit → Outcome) : Outcome :=
  match first with
  | failed => other ()
  | settled => settled

/-- Let a star take no character, one, two and so on, up to the end of the segment. -/
def overSegment (next : List Char → Outcome) : List Char → Outcome
  | [] => next []
  | c :: rest =>
    (next (c :: rest)).orElse fun _ => if c = '/' then .failed else overSegment next rest

/-- Go on behind every slash, and last at the end of the path. -/
def behindSlashes (next : List Char → Outcome) : List Char → Outcome
  | [] => next []
  | c :: rest =>
    if c = '/' then (next rest).orElse fun _ => behindSlashes next rest
    else behindSlashes next rest

/-- Whether a token that stands for a single character stands for this one. -/
def accepts (token : GlobToken) (c : Char) : Bool :=
  match token with
  | .literal d => c == d
  | .anyChar => c != '/'
  | .within ranges => c != '/' && ranges.any (·.holds c)
  | .without ranges => c != '/' && !ranges.any (·.holds c)
  | .star | .doubleStar => false

def run : List GlobToken → List Char → Outcome
  | [], path => if path.isEmpty then .matched else .failed
  | .star :: others, path => overSegment (run others) path
  | .doubleStar :: others, path =>
    (run others path).orElse fun _ => behindSlashes (run others) path
  | token :: others, path =>
    match path with
    | [] => .tooShort
    | c :: rest => if accepts token c then run others rest else .failed

/-- Whether a path as a whole matches. -/
def covers (tokens : List GlobToken) (path : String) : Bool :=
  run tokens path.toList = .matched

end Glob

end HouseStyle
