import HouseStyle.Text.Blank
import HouseStyle.Text.Letter

/-!
# Shapes of declarations

A shape describes the beginning of a line of code, with one part of it marked as the
declared name. Alternatives are tried in order and repetitions take as much as they
can, so the first way to match is the one that counts.

All ways to match are followed side by side, one character after the other. Two ways
that stand at the same place of the shape go on alike, so only the first of them is
kept, and a line is read in a time that grows with its length alone.
-/

namespace HouseStyle.Extraction

open HouseStyle.Text

inductive Shape where
  /-- One character of a class. -/
  | one (accepts : Char → Bool)
  /-- Any number of characters of a class, as many as possible. -/
  | many (accepts : Char → Bool)
  | seq (first second : Shape)
  | either (first second : Shape)
  /-- The shape, or else nothing. -/
  | maybe (shape : Shape)
  /-- The shape any number of times, as often as possible. -/
  | repeated (shape : Shape)
  /-- The part of the line that is the declared name. -/
  | name (shape : Shape)
  | nothing
  /-- No word goes on here. -/
  | wordEnd

namespace Shape

/-- The text between two positions of one line, each given by the text after it. -/
structure Span where
  start : List Char
  stop : List Char

def Span.text (span : Span) : List Char :=
  span.start.take (span.start.length - span.stop.length)

/-- Ways to match, in order of preference. A way is at its end, or at a place of the shape
where it passes the next character; what follows that character is worked out when it is
asked for. No way counts after one that is at its end. -/
inductive Ways where
  | noMore
  | matched (found : Option Span)
  | passing (place : Nat) (goOn : Unit → Ways) (others : Ways)

def Ways.append : Ways → Ways → Ways
  | noMore, others => others
  | matched found, _ => matched found
  | passing place goOn rest, others => passing place goOn (rest.append others)

/-- Ways through a repetition of one character, the longest first. -/
def manyWays (accepts : Char → Bool) (place : Nat) (next : List Char → Ways) : List Char → Ways
  | [] => next []
  | c :: rest =>
    if accepts c then
      .passing place (fun _ => manyWays accepts place next rest) (next (c :: rest))
    else next (c :: rest)

/-- Ways through a repetition, the longest first. Each time passes a character, so the text
itself bounds how often. -/
def repeatedWays (once : List Char → Option Span → (List Char → Option Span → Ways) → Ways)
    (next : List Char → Option Span → Ways) :
    (bound : List Char) → List Char → Option Span → Ways
  | [], s, found => next s found
  | _ :: bound, s, found =>
    (once s found fun rest found => repeatedWays once next bound rest found).append (next s found)

/-- The ways to match a shape at the front of a text and go on with `next`. `place` is the
shape's place in the whole: below place `p` lie `2p` and `2p + 1`. -/
def ways : Shape → (place : Nat) → List Char → Option Span →
    (List Char → Option Span → Ways) → Ways
  | one accepts, place, s, found, next =>
    match s with
    | c :: rest => if accepts c then .passing place (fun _ => next rest found) .noMore else .noMore
    | [] => .noMore
  | many accepts, place, s, found, next =>
    manyWays accepts place (fun rest => next rest found) s
  | seq first second, place, s, found, next =>
    first.ways (2 * place) s found fun rest found => second.ways (2 * place + 1) rest found next
  | either first second, place, s, found, next =>
    (first.ways (2 * place) s found next).append (second.ways (2 * place + 1) s found next)
  | maybe shape, place, s, found, next => (shape.ways place s found next).append (next s found)
  | repeated shape, place, s, found, next =>
    repeatedWays (fun s found next => shape.ways place s found next) next s s found
  | name shape, place, s, found, next =>
    shape.ways place s found fun rest _ => next rest (some ⟨s, rest⟩)
  | nothing, _, s, found, next => next s found
  | wordEnd, _, s, found, next => if s.head?.any isWordChar then .noMore else next s found

/-- The ways that go on, by their places, and what the first way at its end has found. -/
def Ways.split : Ways → List (Nat × (Unit → Ways)) × Option (Option Span)
  | noMore => ([], none)
  | matched found => ([], some found)
  | passing place goOn others =>
    let (going, found) := others.split
    ((place, goOn) :: going, found)

/-- The first entry of each key. -/
def firstOfEach {α : Type} (seen : List Nat) : List (Nat × α) → List (Nat × α)
  | [] => []
  | (key, value) :: entries =>
    if seen.contains key then firstOfEach seen entries
    else (key, value) :: firstOfEach (key :: seen) entries

/-- Follow ways along a text, one way from each place, and give what the best one has found.
`best` is from a way that comes after all those still followed. -/
def follow (best : Option (Option Span)) : List Char → Ways → Option (Option Span)
  | [], ways => ways.split.2.or best
  | _ :: rest, ways =>
    let (going, found) := ways.split
    let best := found.or best
    if going.isEmpty then best
    else follow best rest
      ((firstOfEach [] going).foldr (fun (_, goOn) others => (goOn ()).append others) .noMore)

/-- The declared name in a line that begins with the shape. -/
def nameIn? (shape : Shape) (line : List Char) : Option (List Char) :=
  let found := follow none line (shape.ways 1 line none fun _ found => .matched found)
  found.join.map Span.text

/-! ## Building shapes -/

def all (shapes : List Shape) : Shape := shapes.foldr seq nothing

def literal (word : String) : Shape := all (word.toList.map fun c => one (· == c))

def oneOf : List Shape → Shape
  | [] => one fun _ => false
  | [shape] => shape
  | shape :: others => either shape (oneOf others)

def words (texts : List String) : Shape := oneOf (texts.map literal)

def atLeastOne (accepts : Char → Bool) : Shape := seq (one accepts) (many accepts)

/-- Any blanks. -/
def gap : Shape := many isBlank

/-- At least one blank. -/
def space : Shape := atLeastOne isBlank

def letter (c : Char) : Bool :=
  (65 ≤ c.toNat && c.toNat ≤ 90) || (97 ≤ c.toNat && c.toNat ≤ 122) || c == '_'

/-- An identifier, as the declared name. -/
def identifier : Shape := name (seq (one letter) (many isWordChar))

def dollarLetter (c : Char) : Bool := letter c || c == '$'

def dollarWord (c : Char) : Bool := isWordChar c || c == '$'

def dollarName : Shape := seq (one dollarLetter) (many dollarWord)

/-- An identifier that may hold dollar signs, as the declared name. -/
def dollarIdentifier : Shape := name dollarName

/-- A word with blanks after it, or nothing. -/
def maybeWord (text : String) : Shape := maybe (seq (literal text) space)

/-- Everything but one character. -/
def except (c : Char) : Char → Bool := fun d => d != c

/-- Parentheses around anything without a closing one. -/
def parenthesized : Shape := all [literal "(", many (except ')'), literal ")"]

end Shape

end HouseStyle.Extraction
