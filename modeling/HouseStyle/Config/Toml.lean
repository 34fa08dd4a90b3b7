import HouseStyle.Json.Reader
import HouseStyle.Text.Lines
import HouseStyle.Word

/-!
# TOML documents

A document is read into the same values as JSON: a table becomes an object, and a
date or time an object with one field that no table can have. The reader takes the
whole of TOML 1.0. A document with a mistake has no value.

Reading goes in two steps. The text becomes a list of statements (a header, an array
header, an assignment), and the statements build a tree that remembers how each table
came about, because that decides what may still be added to it.
-/

namespace HouseStyle.Toml

open HouseStyle.Text

/-! ## Characters -/

def isGap (c : Char) : Bool := c == ' ' || c == '\t'

def skipGap (s : List Char) : List Char := s.dropWhile isGap

/-- A control character that may not stand in a text or comment. -/
def isControl (c : Char) : Bool := (c.toNat < 32 && c != '\t') || c.toNat == 127

/-- The text after a line break, if it begins with one. -/
def dropBreak? : List Char → Option (List Char)
  | '\n' :: rest => some rest
  | '\r' :: '\n' :: rest => some rest
  | _ => none

/-- The text after a comment, if it begins with one. -/
def skipComment : List Char → List Char
  | '#' :: rest => rest.dropWhile fun c => !isControl c
  | s => s

/-- Gaps, a comment, and the end of the line or of the text. -/
def endLine? (s : List Char) : Option (List Char) :=
  match skipComment (skipGap s) with
  | [] => some []
  | rest => dropBreak? rest

/-- Gaps, comments and line breaks, as many as there are. -/
def skipBlank (fuel : Nat) (s : List Char) : List Char :=
  match fuel with
  | 0 => s
  | fuel + 1 =>
    let rest := skipComment (skipGap s)
    match dropBreak? rest with
    | some rest => skipBlank fuel rest
    | none => rest

/-! ## Texts -/

/-- A number written with `count` hexadecimal digits, and the rest. -/
def hexNumber? (count : Nat) (s : List Char) : Option (Nat × List Char) := do
  let digits := s.take count
  if digits.length < count then none
  let values ← digits.mapM Json.hexValue?
  some (values.foldl (fun n v => 16 * n + v) 0, s.drop count)

/-- The character of an escape, without its backslash, and the rest. -/
def escape? : List Char → Option (Char × List Char)
  | 'b' :: rest => some ('\x08', rest)
  | 't' :: rest => some ('\t', rest)
  | 'n' :: rest => some ('\n', rest)
  | 'f' :: rest => some ('\x0c', rest)
  | 'r' :: rest => some ('\r', rest)
  | '"' :: rest => some ('"', rest)
  | '\\' :: rest => some ('\\', rest)
  | 'u' :: rest => do
    let (n, rest) ← hexNumber? 4 rest
    if n.isValidChar then some (Char.ofNat n, rest) else none
  | 'U' :: rest => do
    let (n, rest) ← hexNumber? 8 rest
    if n.isValidChar then some (Char.ofNat n, rest) else none
  | _ => none

/-- The rest of a one-line text after its opening quote; `read` holds what was read, the
last character first. -/
def lineText? (fuel : Nat) (literal : Bool) (read s : List Char) :
    Option (List Char × List Char) :=
  match fuel with
  | 0 => none
  | fuel + 1 =>
    let quote := if literal then '\'' else '"'
    match s with
    | [] => none
    | c :: rest =>
      if c = quote then some (read.reverse, rest)
      else if c = '\\' ∧ !literal then do
        let (c, rest) ← escape? rest
        lineText? fuel literal (c :: read) rest
      else if isControl c then none
      else lineText? fuel literal (c :: read) rest

/-- Gaps and line breaks, as many as there are. -/
def skipBreaks : List Char → List Char
  | '\r' :: '\n' :: rest => skipBreaks rest
  | c :: rest => if isGap c || c == '\n' then skipBreaks rest else c :: rest
  | [] => []

/-- A backslash at the end of a line drops all blanks up to the next text. -/
def lineEndingBackslash? (s : List Char) : Option (List Char) :=
  (dropBreak? (skipGap s)).map skipBreaks

/-- The rest of a text over several lines after its opening quotes. Up to two quotes may
stand right before the closing ones. -/
def linesText? (fuel : Nat) (literal : Bool) (read s : List Char) :
    Option (List Char × List Char) :=
  match fuel with
  | 0 => none
  | fuel + 1 =>
    let quote := if literal then '\'' else '"'
    match s with
    | [] => none
    | c :: rest =>
      if c = quote then
        let quotes := (s.takeWhile (· = quote)).length
        if 3 ≤ quotes then
          if quotes ≤ 5 then
            some (read.reverse ++ List.replicate (quotes - 3) quote, s.drop quotes)
          else none
        else linesText? fuel literal (c :: read) rest
      else if c = '\\' ∧ !literal then
        match lineEndingBackslash? rest with
        | some rest => linesText? fuel literal read rest
        | none => do
          let (c, rest) ← escape? rest
          linesText? fuel literal (c :: read) rest
      else
        match dropBreak? s with
        | some rest => linesText? fuel literal ('\n' :: read) rest
        | none => if isControl c then none else linesText? fuel literal (c :: read) rest

/-- A quoted text and the rest. A line break right after three opening quotes is dropped. -/
def quotedText? (s : List Char) : Option (List Char × List Char) :=
  let fuel := s.length + 1
  let opened (rest : List Char) := (dropBreak? rest).getD rest
  match s with
  | '"' :: '"' :: '"' :: rest => linesText? fuel false [] (opened rest)
  | '\'' :: '\'' :: '\'' :: rest => linesText? fuel true [] (opened rest)
  | '"' :: rest => lineText? fuel false [] rest
  | '\'' :: rest => lineText? fuel true [] rest
  | _ => none

/-! ## Keys -/

def isBareKey (c : Char) : Bool :=
  isAsciiDigit c || (65 ≤ c.toNat && c.toNat ≤ 90) || (97 ≤ c.toNat && c.toNat ≤ 122) ||
    c == '_' || c == '-'

def simpleKey? (s : List Char) : Option (String × List Char) :=
  match s with
  | '"' :: rest => (lineText? s.length false [] rest).map fun (k, r) => (String.ofList k, r)
  | '\'' :: rest => (lineText? s.length true [] rest).map fun (k, r) => (String.ofList k, r)
  | _ =>
    match s.takeWhile isBareKey with
    | [] => none
    | key => some (String.ofList key, s.dropWhile isBareKey)

/-- The number that both the parts of a key and the values around a value stay below. -/
def depthBound : Nat := 80

/-- At most `bound` parts of a key with dots between, and the rest. -/
def keyParts? (bound : Nat) (s : List Char) : Option (List String × List Char) :=
  match bound with
  | 0 => none
  | bound + 1 => do
    let (first, rest) ← simpleKey? (skipGap s)
    match skipGap rest with
    | '.' :: rest => do
      let (others, rest) ← keyParts? bound rest
      some (first :: others, rest)
    | rest => some ([first], rest)

/-- A key of one part or of several with dots between, and the rest. -/
def key? (s : List Char) : Option (List String × List Char) := keyParts? (depthBound - 1) s

/-! ## Numbers, dates and words -/

/-- Digits with single underscores between them. -/
def digitGroups? (isDigit : Char → Bool) (s : List Char) : Option (List Char) :=
  let groups := splitAt '_' s
  if groups.all fun group => !group.isEmpty && group.all isDigit then some groups.flatten else none

private def inRange? (n : Int) : Option Json :=
  if Word.isSigned n then some (.int n) else none

private def digitOf (c : Char) : Nat := (Json.hexValue? c).getD 0

private def inBase? (base : Nat) (isDigit : Char → Bool) (s : List Char) : Option Json := do
  let digits ← digitGroups? isDigit s
  inRange? (digits.foldl (fun n c => base * n + digitOf c) 0 : Nat)

/-- A decimal whole number without sign: no zero in front of other digits. -/
def decimalDigits? (s : List Char) : Option (List Char) := do
  let digits ← digitGroups? isAsciiDigit s
  match digits with
  | '0' :: _ :: _ => none
  | _ => some digits

/-- A float without sign: a whole number with a fraction, an exponent, or both. -/
def float? (s : List Char) : Option Float := do
  let isMark (c : Char) : Bool := c == 'e' || c == 'E'
  let mantissa := s.takeWhile fun c => !isMark c
  let power := s.drop mantissa.length
  let (wholeText, fractionText) := (mantissa.takeWhile (· != '.'), mantissa.dropWhile (· != '.'))
  let whole ← decimalDigits? wholeText
  let fraction ← match fractionText with
    | [] => some []
    | _ :: rest => digitGroups? isAsciiDigit rest
  if fractionText.isEmpty && power.isEmpty then none
  let exponent ← match power with
    | [] => some (0 : Int)
    | _ :: rest =>
      let (negative, rest) := Decimal.takeSign rest
      (digitGroups? isAsciiDigit rest).map fun digits =>
        let n : Int := Decimal.natOfDigits digits
        if negative then -n else n
  some (Decimal.ofDigits (whole ++ fraction) (exponent - fraction.length))

def isLeap (year : Nat) : Bool := year % 4 == 0 && (year % 100 != 0 || year % 400 == 0)

def daysIn (year month : Nat) : Nat :=
  if month = 2 then (if isLeap year then 29 else 28)
  else if month = 4 ∨ month = 6 ∨ month = 9 ∨ month = 11 then 30
  else 31

private def number? (count : Nat) (s : List Char) : Option (Nat × List Char) :=
  let digits := s.take count
  if digits.length = count ∧ digits.all isAsciiDigit then
    some (Decimal.natOfDigits digits, s.drop count)
  else none

/-- The text after a date. -/
def afterDate? (s : List Char) : Option (List Char) := do
  let (year, s) ← number? 4 s
  match s with
  | '-' :: s =>
    let (month, s) ← number? 2 s
    match s with
    | '-' :: s =>
      let (day, s) ← number? 2 s
      if 1 ≤ month ∧ month ≤ 12 ∧ 1 ≤ day ∧ day ≤ daysIn year month then some s else none
    | _ => none
  | _ => none

/-- The text after hours and minutes with a colon between. -/
private def afterMinutes? (s : List Char) : Option (List Char) := do
  let (hour, s) ← number? 2 s
  match s with
  | ':' :: s =>
    let (minute, s) ← number? 2 s
    if hour < 24 ∧ minute < 60 then some s else none
  | _ => none

/-- The text after a time of day. -/
def afterTime? (s : List Char) : Option (List Char) := do
  match ← afterMinutes? s with
  | ':' :: s =>
    let (second, s) ← number? 2 s
    if 60 < second then none
    match s with
    | '.' :: fraction =>
      if (fraction.takeWhile isAsciiDigit).isEmpty then none
      else some (fraction.dropWhile isAsciiDigit)
    | _ => some s
  | _ => none

/-- Whether a text is a date, a time, or both, with or without an offset. -/
def isMoment (s : List Char) : Bool :=
  match afterDate? s with
  | some [] => true
  | some (c :: rest) =>
    (c == 'T' || c == 't' || c == ' ') &&
      match afterTime? rest with
      | some [] => true
      | some ['Z'] | some ['z'] => true
      | some (sign :: rest) => (sign == '+' || sign == '-') && afterMinutes? rest == some []
      | none => false
  | none => afterTime? s == some []

/-- The value of a moment. -/
def moment (s : List Char) : Json := .object [("\x00moment", .text (String.ofList s))]

/-- The value of a word: a truth value, a number, a date or a time. Of the floats that no
double can hold, the negative ones are taken for infinite. -/
def word? (s : List Char) : Option Json :=
  if s = "true".toList then some (.bool true)
  else if s = "false".toList then some (.bool false)
  else if isMoment s then some (moment s)
  else
    match s with
    | '0' :: 'x' :: rest => inBase? 16 (fun c => (Json.hexValue? c).isSome) rest
    | '0' :: 'o' :: rest => inBase? 8 (fun c => isAsciiDigit c && c.toNat < 56) rest
    | '0' :: 'b' :: rest => inBase? 2 (fun c => c == '0' || c == '1') rest
    | _ =>
      let (negative, body) := Decimal.takeSign s
      if body = "inf".toList then some (.real (Decimal.negateIf negative (1.0 / 0.0)))
      else if body = "nan".toList then some (.real (0.0 / 0.0))
      else
        match decimalDigits? body with
        | some digits =>
          let n : Int := Decimal.natOfDigits digits
          inRange? (if negative then -n else n)
        | none => (float? body).bind fun x =>
            if x.isFinite || negative then some (.real (Decimal.negateIf negative x)) else none

/-- A character that a word goes on with. -/
def isWordPart (c : Char) : Bool :=
  isBareKey c || c == '+' || c == '.' || c == ':'

/-- Split a word off. A date may be followed by one space and a time. -/
def takeWord (s : List Char) : List Char × List Char :=
  let first := s.takeWhile isWordPart
  let rest := s.drop first.length
  match rest with
  | ' ' :: more =>
    let time := more.takeWhile isWordPart
    if afterDate? first = some [] ∧ (number? 2 more).isSome then
      (first ++ ' ' :: time, more.drop time.length)
    else (first, rest)
  | _ => (first, rest)

/-! ## Building tables -/

/-- How a table came about: by its own header or braces, on the way to another table, or
by a key with dots. -/
inductive Origin where
  | explicit
  | passed
  | dotted
  deriving DecidableEq, Repr

inductive Node where
  | leaf (value : Json)
  | table (origin : Origin) (entries : List (String × Node))
  | tables (rows : List (List (String × Node)))
  deriving Inhabited

abbrev Entries := List (String × Node)

private def replace (key : String) (node : Node) : Entries → Entries
  | [] => [(key, node)]
  | entry :: entries =>
    if entry.1 == key then (key, node) :: entries else entry :: replace key node entries

/-- Change the table at a path, and make the tables on the way. With `dotted` the path
belongs to a key, and a table that has a header of its own is closed to it. The change is
told whether the table was made by a key with dots. -/
def within? (dotted : Bool) (change : Bool → Entries → Option Entries) :
    List String → Bool → Entries → Option Entries
  | [], isDotted, entries => change isDotted entries
  | key :: keys, _, entries =>
    match entries.lookup key with
    | none => do
      let inner ← within? dotted change keys dotted []
      some (replace key (.table (if dotted then .dotted else .passed) inner) entries)
    | some (.leaf _) => none
    | some (.table origin inner) =>
      if dotted ∧ origin = .explicit then none
      else do
        let inner ← within? dotted change keys (origin == .dotted) inner
        some (replace key (.table origin inner) entries)
    | some (.tables rows) =>
      match rows.getLast? with
      | none => none
      | some last => do
        let inner ← within? dotted change keys false last
        some (replace key (.tables (rows.dropLast ++ [inner])) entries)

/-- Write a value under a key into a table. -/
def assign? (path : List String) (value : Node) (entries : Entries) : Option Entries :=
  match path.getLast? with
  | none => none
  | some key =>
    within? true (fun isDotted entries =>
      if isDotted = (path.length == 1) then none
      else if (entries.lookup key).isSome then none
      else some (entries ++ [(key, value)])) path.dropLast false entries

/-- Open a table by its header. -/
def openTable? (path : List String) (entries : Entries) : Option Entries :=
  match path.getLast? with
  | none => none
  | some key =>
    within? false (fun _ entries =>
      match entries.lookup key with
      | none => some (entries ++ [(key, .table .explicit [])])
      | some (.table .passed inner) => some (replace key (.table .explicit inner) entries)
      | some _ => none) path.dropLast false entries

/-- Add a row to an array of tables by its header. -/
def openRow? (path : List String) (entries : Entries) : Option Entries :=
  match path.getLast? with
  | none => none
  | some key =>
    within? false (fun _ entries =>
      match entries.lookup key with
      | none => some (entries ++ [(key, .tables [[]])])
      | some (.tables rows) => some (replace key (.tables (rows ++ [[]])) entries)
      | some _ => none) path.dropLast false entries

/-- Change the table whose header was read last. -/
def inCurrent? (path : List String) (change : Entries → Option Entries) (entries : Entries) :
    Option Entries :=
  within? false (fun _ entries => change entries) path false entries

mutual

def Node.value : Node → Json
  | .leaf value => value
  | .table _ entries => .object (entriesValue entries)
  | .tables rows => .list (rowsValue rows)

def entriesValue : List (String × Node) → List (String × Json)
  | [] => []
  | (key, node) :: entries => (key, node.value) :: entriesValue entries

def rowsValue : List (List (String × Node)) → List Json
  | [] => []
  | row :: rows => .object (entriesValue row) :: rowsValue rows

end

/-! ## Values and statements -/

mutual

/-- A value and the rest. Arrays and inline tables may go `depth` deep. -/
def value? (fuel depth : Nat) (s : List Char) : Option (Json × List Char) :=
  match fuel with
  | 0 => none
  | fuel + 1 =>
    match s with
    | '[' :: rest =>
      match depth with
      | 0 => none
      | depth + 1 => (items? fuel depth rest).map fun (items, rest) => (.list items, rest)
    | '\x7b' :: rest =>
      match depth with
      | 0 => none
      | depth + 1 => (pairs? fuel depth [] rest).map fun (entries, rest) =>
          (.object (entriesValue entries), rest)
    | '"' :: _ | '\'' :: _ => (quotedText? s).map fun (read, rest) =>
        (.text (String.ofList read), rest)
    | _ =>
      let (word, rest) := takeWord s
      (word? word).map fun value => (value, rest)

/-- The items of an array after its opening bracket. -/
def items? (fuel depth : Nat) (s : List Char) : Option (List Json × List Char) :=
  match fuel with
  | 0 => none
  | fuel + 1 =>
    match skipBlank (s.length + 1) s with
    | ']' :: rest => some ([], rest)
    | s => do
      let (item, rest) ← value? fuel depth s
      match skipBlank (rest.length + 1) rest with
      | ',' :: rest => do
        let (items, rest) ← items? fuel depth rest
        some (item :: items, rest)
      | ']' :: rest => some ([item], rest)
      | _ => none

/-- The pairs of an inline table after its opening brace, or after a comma. -/
def pairs? (fuel depth : Nat) (entries : Entries) (s : List Char) : Option (Entries × List Char) :=
  match fuel with
  | 0 => none
  | fuel + 1 =>
    match skipGap s with
    | '\x7d' :: rest => if entries.isEmpty then some ([], rest) else none
    | s => do
      let (path, rest) ← key? s
      match rest with
      | '=' :: rest => do
        let (value, rest) ← value? fuel depth (skipGap rest)
        let entries ← assign? path (.leaf value) entries
        match skipGap rest with
        | ',' :: rest =>
          match skipGap rest with
          | '\x7d' :: _ => none
          | _ => pairs? fuel depth entries rest
        | '\x7d' :: rest => some (entries, rest)
        | _ => none
      | _ => none

end

inductive Statement where
  | header (path : List String)
  | rowHeader (path : List String)
  | assignment (path : List String) (value : Node)

/-- A statement at the front, without the end of its line, and the rest. -/
def statement? (s : List Char) : Option (Statement × List Char) :=
  match s with
  | '[' :: '[' :: rest => do
    match ← key? rest with
    | (path, ']' :: ']' :: rest) => some (.rowHeader path, rest)
    | _ => none
  | '[' :: rest => do
    match ← key? rest with
    | (path, ']' :: rest) => some (.header path, rest)
    | _ => none
  | _ => do
    match ← key? s with
    | (path, '=' :: rest) =>
      let (value, rest) ← value? (2 * s.length + 2) (depthBound - 1) (skipGap rest)
      some (.assignment path (.leaf value), rest)
    | _ => none

/-- All statements of a document. -/
def statements? (fuel : Nat) (s : List Char) : Option (List Statement) :=
  match fuel with
  | 0 => none
  | fuel + 1 =>
    match skipBlank (s.length + 1) s with
    | [] => some []
    | s => do
      let (statement, rest) ← statement? s
      let rest ← endLine? rest
      let others ← statements? fuel rest
      some (statement :: others)

/-- The document so far and the path of the header read last. -/
structure Draft where
  entries : Entries
  current : List String

def Draft.add? (draft : Draft) : Statement → Option Draft
  | .header path => (openTable? path draft.entries).map fun entries => ⟨entries, path⟩
  | .rowHeader path => (openRow? path draft.entries).map fun entries => ⟨entries, path⟩
  | .assignment path value =>
    (inCurrent? draft.current (assign? path value) draft.entries).map fun entries =>
      { draft with entries }

/-- The value of a document. A byte order mark in front is skipped. -/
def parse? (source : String) : Option Json := do
  let s := match source.toList with
    | '\uFEFF' :: rest => rest
    | s => s
  let statements ← statements? (s.length + 1) s
  let draft ← statements.foldlM Draft.add? ⟨[], []⟩
  some (.object (entriesValue draft.entries))

/-! ## Writing -/

/-- A character inside a quoted text. Line breaks stay as they are in a text over several
lines. -/
def escapeChar (overLines : Bool) (c : Char) : List Char :=
  if c = '\x08' then ['\\', 'b']
  else if c = '\t' then ['\\', 't']
  else if c = '\n' then (if overLines then ['\n'] else ['\\', 'n'])
  else if c = '\x0c' then ['\\', 'f']
  else if c = '\r' then ['\\', 'r']
  else if c = '\\' then ['\\', '\\']
  else if isControl c then
    ['\\', 'u', '0', '0'] ++
      [c.toNat / 16, c.toNat % 16].map fun digit => (Json.hexDigit digit).toUpper
  else [c]

/-- The characters inside a quoted text. Of double quotes in a row, `free` stay as they are;
`run` of them stand right before. An escape ends a row. -/
def escapeChars (overLines : Bool) (free run : Nat) : List Char → List Char
  | [] => []
  | '"' :: rest =>
    if run < free then '"' :: escapeChars overLines free (run + 1) rest
    else '\\' :: '"' :: escapeChars overLines free 0 rest
  | c :: rest => escapeChar overLines c ++ escapeChars overLines free 0 rest

/-- The longest run of a quote. -/
def longestRun (quote : Char) (s : List Char) : Nat :=
  (s.foldl (fun (run, longest) c =>
    let run := if c = quote then run + 1 else 0
    (run, max run longest)) (0, 0)).2

/-- A text in quotes. The first of these that needs no escape is taken: double quotes, single
ones, three double ones, three single ones. When all of them need one, the double quotes are
three if the text has several lines. A tab asks for no other quotes, but is escaped in double
ones. -/
def quote (text : String) : String :=
  let s := text.toList
  let overLines := s.contains '\n'
  let controls := s.any fun c => isControl c && c != '\n'
  let escapes := controls || s.contains '\\'
  let (doubles, singles) := (longestRun '"' s, longestRun '\'' s)
  let around (mark : String) (body : String) := mark ++ body ++ mark
  let opened (body : String) := if overLines then "\n" ++ body else body
  let escaped (lines : Bool) (free : Nat) := String.ofList (escapeChars lines free 0 s)
  let threeDoubles := around "\"\"\"" (opened (escaped true 2))
  if !escapes && doubles = 0 && !overLines then around "\"" (escaped false 0)
  else if !controls && singles = 0 && !overLines then around "'" text
  else if !escapes && doubles < 3 then threeDoubles
  else if !controls && singles < 3 then around "'''" (opened text)
  else if overLines then threeDoubles
  else around "\"" (escaped false 0)

end HouseStyle.Toml
