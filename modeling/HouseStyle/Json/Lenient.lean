import HouseStyle.Json.Reader

/-!
# Lenient JSON

The reader of JSON that the database has for its own columns. It takes comments, more
kinds of blanks, names as keys, single quotes, trailing commas, hexadecimal numbers and
numbers with a sign or nothing on one side of the point, and it can write what it has
read as strict JSON.
-/

namespace HouseStyle

/-- A piece of a quoted text. -/
inductive TextPiece where
  | plain (c : Char)
  /-- A backslash with one of the characters that strict JSON knows after it. -/
  | escaped (c : Char)
  /-- Four hexadecimal digits. -/
  | unit (a b c d : Char)
  /-- Two hexadecimal digits. -/
  | byte (a b : Char)
  | nul
  | verticalTab
  | apostrophe
  /-- A line break that does not count. -/
  | lineBreak
  deriving DecidableEq, Repr

inductive LenientJson where
  | null
  | bool (value : Bool)
  /-- A decimal number by its strict spelling. -/
  | number (spelling : List Char)
  | hexadecimal (negative : Bool) (digits : List Char)
  | text (pieces : List TextPiece)
  | list (items : List LenientJson)
  /-- Keys are kept as they are written in strict JSON. -/
  | object (fields : List (List Char × LenientJson))

namespace LenientJson

open HouseStyle.Text

/-! ## Blanks -/

def endsLine (c : Char) : Bool :=
  c == '\n' || c == '\r' || c == Char.ofNat 0x2028 || c == Char.ofNat 0x2029

def isBlank (c : Char) : Bool :=
  let n := c.toNat
  (9 ≤ n && n ≤ 13) || n == 32 || n == 0xA0 || n == 0x1680 || (0x2000 ≤ n && n ≤ 0x200A) ||
    n == 0x2028 || n == 0x2029 || n == 0x202F || n == 0x205F || n == 0x3000 || n == 0xFEFF

inductive BlankMode where
  | outside
  | lineComment
  | blockComment

/-- Skip blanks and comments. A comment without an end leaves a slash. -/
def skipBlanksFrom : BlankMode → List Char → List Char
  | .outside, '/' :: '*' :: rest => skipBlanksFrom .blockComment rest
  | .outside, '/' :: '/' :: rest => skipBlanksFrom .lineComment rest
  | .outside, c :: rest => if isBlank c then skipBlanksFrom .outside rest else c :: rest
  | .lineComment, c :: rest =>
    if endsLine c then skipBlanksFrom .outside rest else skipBlanksFrom .lineComment rest
  | .blockComment, '*' :: '/' :: rest => skipBlanksFrom .outside rest
  | .blockComment, _ :: rest => skipBlanksFrom .blockComment rest
  | .blockComment, [] => ['/']
  | .outside, [] | .lineComment, [] => []

def skipBlanks (s : List Char) : List Char := skipBlanksFrom .outside s

/-! ## Words -/

def isAsciiLetter (c : Char) : Bool := ('a' ≤ c && c ≤ 'z') || ('A' ≤ c && c ≤ 'Z')

def isHexDigit (c : Char) : Bool := (Json.hexValue? c).isSome

/-- The word at the front, when it is there and no letter or digit follows. -/
def afterWord? (word : String) (s : List Char) : Option (List Char) :=
  if word.toList.isPrefixOf s then
    let rest := s.drop word.toList.length
    if rest.head?.any fun c => isAsciiLetter c || isAsciiDigit c then none else some rest
  else none

/-- Lower case for ASCII letters. -/
def lowered (s : List Char) : List Char := s.map Char.toLower

/-- The word at the front in any case, with no letter or digit after it. -/
def afterWordAnyCase? (word : String) (s : List Char) : Option (List Char) :=
  let front := s.take word.toList.length
  (afterWord? word (lowered front ++ s.drop word.toList.length))

def infiniteSpelling : List Char := "9e999".toList

/-- The words that stand for values. Those that mean no number are null. -/
def readWord (s : List Char) : Option (LenientJson × List Char) :=
  let value (v : LenientJson) (rest : Option (List Char)) := rest.map fun rest => (v, rest)
  (value (.bool true) (afterWord? "true" s)).or <|
  (value (.bool false) (afterWord? "false" s)).or <|
  (value .null (afterWord? "null" s)).or <|
  (value (.number infiniteSpelling) (afterWordAnyCase? "inf" s)).or <|
  (value (.number infiniteSpelling) (afterWordAnyCase? "infinity" s)).or <|
  (value .null (afterWordAnyCase? "nan" s)).or <|
  (value .null (afterWordAnyCase? "qnan" s)).or <|
  value .null (afterWordAnyCase? "snan" s)

/-! ## Numbers -/

/-- What follows `inf` or `infinity`, in any case. -/
def afterInfinity? (s : List Char) : Option (List Char) :=
  if lowered (s.take 3) == "inf".toList then
    let rest := s.drop 3
    some (if lowered (rest.take 5) == "inity".toList then rest.drop 5 else rest)
  else none

/-- An exponent as it is spelled, if there is one. -/
def readExponent (s : List Char) : Option (List Char × List Char) :=
  match s with
  | mark :: rest =>
    if mark = 'e' ∨ mark = 'E' then
      let (sign, rest) := match rest with
        | '+' :: rest => (['+'], rest)
        | '-' :: rest => (['-'], rest)
        | _ => ([], rest)
      match Decimal.takeDigits rest with
      | ([], _) => none
      | (digits, rest) => some (mark :: sign ++ digits, rest)
    else some ([], s)
  | [] => some ([], s)

/-- A decimal number without its sign. A side of the point may be empty, but not both; what
is missing is filled with a zero. -/
def readDecimal (s : List Char) : Option (List Char × List Char) := do
  let (whole, rest) := Decimal.takeDigits s
  match whole with
  | '0' :: _ :: _ => none
  | _ =>
    let (mantissa, rest) ← match rest with
      | '.' :: rest =>
        let (places, rest) := Decimal.takeDigits rest
        let fill (digits : List Char) := if digits.isEmpty then ['0'] else digits
        if whole.isEmpty && places.isEmpty then none
        else some (fill whole ++ '.' :: fill places, rest)
      | _ => if whole.isEmpty then none else some (whole, rest)
    let (exponent, rest) ← readExponent rest
    some (mantissa ++ exponent, rest)

/-- A number without its sign. -/
def readUnsigned (negative : Bool) (s : List Char) : Option (LenientJson × List Char) :=
  let decimal := (readDecimal s).map fun (spelling, rest) =>
    (number (if negative then '-' :: spelling else spelling), rest)
  match s with
  | '0' :: x :: d :: rest =>
    if (x = 'x' ∨ x = 'X') ∧ isHexDigit d then
      some (hexadecimal negative (d :: rest.takeWhile isHexDigit), rest.dropWhile isHexDigit)
    else decimal
  | _ => decimal

/-- A number with its sign. Infinity needs a sign here. -/
def readSigned (negative : Bool) (s : List Char) : Option (LenientJson × List Char) :=
  match afterInfinity? s with
  | some rest =>
    some (number (if negative then '-' :: infiniteSpelling else infiniteSpelling), rest)
  | none => readUnsigned negative s

/-! ## Texts -/

/-- The piece that begins with a backslash, without it. -/
def readEscape : List Char → Option (TextPiece × List Char)
  | 'u' :: a :: b :: c :: d :: rest =>
    if isHexDigit a && isHexDigit b && isHexDigit c && isHexDigit d then
      some (.unit a b c d, rest)
    else none
  | 'x' :: a :: b :: rest => if isHexDigit a && isHexDigit b then some (.byte a b, rest) else none
  | '\r' :: '\n' :: rest => some (.lineBreak, rest)
  | c :: rest =>
    if (Json.unescape? c).isSome then some (.escaped c, rest)
    else if c = '\'' then some (.apostrophe, rest)
    else if c = '0' then some (.nul, rest)
    else if c = 'v' then some (.verticalTab, rest)
    else if endsLine c then some (.lineBreak, rest)
    else none
  | [] => none

/-- The pieces of a text up to its closing quote, and what follows. -/
def readPieces (quote : Char) : (fuel : Nat) → List Char → Option (List TextPiece × List Char)
  | 0, _ | _ + 1, [] => none
  | fuel + 1, c :: rest =>
    if c = quote then some ([], rest)
    else if c = '\\' then
      match readEscape rest with
      | none => none
      | some (piece, rest) =>
        (readPieces quote fuel rest).map fun (pieces, rest) => (piece :: pieces, rest)
    else
      (readPieces quote fuel rest).map fun (pieces, rest) => (.plain c :: pieces, rest)

/-- A short escape for a control character, or four digits. -/
def writeControl (c : Char) : List Char :=
  match c with
  | '\x08' => ['\\', 'b']
  | '\t' => ['\\', 't']
  | '\n' => ['\\', 'n']
  | '\x0c' => ['\\', 'f']
  | '\r' => ['\\', 'r']
  | _ =>
    let digit (n : Nat) : Char := if n < 10 then Char.ofNat (48 + n) else Char.ofNat (87 + n)
    "\\u00".toList ++ [digit (c.toNat / 16), digit (c.toNat % 16)]

/-- A piece as strict JSON spells it. -/
def TextPiece.write : TextPiece → List Char
  | .plain c => if c = '"' then ['\\', '"'] else if c.toNat < 32 then writeControl c else [c]
  | .escaped c => ['\\', c]
  | .unit a b c d => ['\\', 'u', a, b, c, d]
  | .byte a b => "\\u00".toList ++ [a, b]
  | .nul => "\\u0000".toList
  | .verticalTab => "\\u000b".toList
  | .apostrophe => ['\'']
  | .lineBreak => []

def writeText (pieces : List TextPiece) : List Char :=
  '"' :: pieces.flatMap TextPiece.write ++ ['"']

/-- The characters that pieces stand for. Half of a pair stands for none, and a line break
that no other piece follows for NUL. -/
def characters? : List TextPiece → Option (List Char)
  | [] => some []
  | .unit a b c d :: .unit e f g h :: pieces => do
    let high ← Json.hexUnit? a b c d
    let low ← Json.hexUnit? e f g h
    if Json.isHighHalf high && Json.isLowHalf low then
      (characters? pieces).map (Json.pairedChar high low :: ·)
    else if Json.isHighHalf high || Json.isLowHalf high then none
    else (characters? (.unit e f g h :: pieces)).map (Char.ofNat high :: ·)
  | .unit a b c d :: pieces => do
    let n ← Json.hexUnit? a b c d
    if Json.isHighHalf n || Json.isLowHalf n then none
    else (characters? pieces).map (Char.ofNat n :: ·)
  | [.lineBreak] => some ['\x00']
  | .lineBreak :: pieces => characters? pieces
  | .plain c :: pieces => (characters? pieces).map (c :: ·)
  | .escaped c :: pieces => (characters? pieces).map ((Json.unescape? c).getD c :: ·)
  | .byte a b :: pieces => do
    let n ← Json.hexUnit? '0' '0' a b
    (characters? pieces).map (Char.ofNat n :: ·)
  | .nul :: pieces => (characters? pieces).map ('\x00' :: ·)
  | .verticalTab :: pieces => (characters? pieces).map ('\x0b' :: ·)
  | .apostrophe :: pieces => (characters? pieces).map ('\'' :: ·)

/-! ## Names as keys -/

def startsName (c : Char) : Bool :=
  isAsciiLetter c || c == '$' || c == '_' || (128 ≤ c.toNat && !isBlank c)

/-- The rest of a name. `\u` with four digits may stand in it. -/
def readNameRest : (fuel : Nat) → List Char → List Char × List Char
  | 0, s => ([], s)
  | fuel + 1, s =>
    match s with
    | '\\' :: 'u' :: a :: b :: c :: d :: rest =>
      if isHexDigit a && isHexDigit b && isHexDigit c && isHexDigit d then
        let (name, rest) := readNameRest fuel rest
        ('\\' :: 'u' :: a :: b :: c :: d :: name, rest)
      else ([], s)
    | c :: rest =>
      if startsName c || isAsciiDigit c then
        let (name, rest) := readNameRest fuel rest
        (c :: name, rest)
      else ([], s)
    | [] => ([], [])

/-- A name as a key, quoted. Words that stand for values are no names. -/
def readName (s : List Char) : Option (List Char × List Char) :=
  if (readWord s).isSome then none
  else if s.head?.any isAsciiDigit then none
  else
    match readNameRest s.length s with
    | ([], _) => none
    | (name, rest) => some ('"' :: name ++ ['"'], rest)

/-! ## Values -/

mutual

/-- A value and what follows it. `fuel` bounds the work and `depth` the nesting left. -/
def readValue (fuel depth : Nat) (s : List Char) : Option (LenientJson × List Char) :=
  match fuel with
  | 0 => none
  | fuel + 1 =>
    match skipBlanks s with
    | '"' :: rest => (readPieces '"' rest.length rest).map fun (pieces, rest) => (text pieces, rest)
    | '\'' :: rest =>
      (readPieces '\'' rest.length rest).map fun (pieces, rest) => (text pieces, rest)
    | '[' :: rest =>
      match depth with
      | 0 => none
      | depth + 1 => (readItems fuel depth rest).map fun (items, rest) => (list items, rest)
    | '{' :: rest =>
      match depth with
      | 0 => none
      | depth + 1 => (readFields fuel depth rest).map fun (fields, rest) => (object fields, rest)
    | '+' :: rest => readSigned false rest
    | '-' :: rest => readSigned true rest
    | rest => (readWord rest).or (readUnsigned false rest)

/-- Items up to the closing bracket, which may follow a comma. -/
def readItems (fuel depth : Nat) (s : List Char) : Option (List LenientJson × List Char) :=
  match fuel with
  | 0 => none
  | fuel + 1 =>
    match skipBlanks s with
    | ']' :: rest => some ([], rest)
    | rest =>
      match readValue fuel depth rest with
      | none => none
      | some (item, rest) =>
        match skipBlanks rest with
        | ',' :: rest =>
          (readItems fuel depth rest).map fun (items, rest) => (item :: items, rest)
        | ']' :: rest => some ([item], rest)
        | _ => none

/-- Fields up to the closing brace, which may follow a comma. -/
def readFields (fuel depth : Nat) (s : List Char) :
    Option (List (List Char × LenientJson) × List Char) :=
  match fuel with
  | 0 => none
  | fuel + 1 =>
    let key := match skipBlanks s with
      | '"' :: rest =>
        (readPieces '"' rest.length rest).map fun (pieces, rest) => (writeText pieces, rest)
      | '\'' :: rest =>
        (readPieces '\'' rest.length rest).map fun (pieces, rest) => (writeText pieces, rest)
      | rest => readName rest
    match skipBlanks s, key with
    | '}' :: rest, _ => some ([], rest)
    | _, none => none
    | _, some (key, rest) =>
      match skipBlanks rest with
      | ':' :: rest =>
        match readValue fuel depth rest with
        | none => none
        | some (value, rest) =>
          match skipBlanks rest with
          | ',' :: rest =>
            (readFields fuel depth rest).map fun (fields, rest) => ((key, value) :: fields, rest)
          | '}' :: rest => some ([(key, value)], rest)
          | _ => none
      | _ => none

end

/-- How deep lists and objects may be nested. -/
def nestingLimit : Nat := 1000

/-- The value written by a text, which ends at its first NUL. -/
def parse? (source : String) : Option LenientJson :=
  let s := source.toList.takeWhile (· != '\x00')
  match readValue (2 * s.length + 2) nestingLimit s with
  | some (value, rest) => if (skipBlanks rest).isEmpty then some value else none
  | none => none

/-! ## Writing strict JSON -/

/-- The number of hexadecimal digits, or nothing when it is no 64-bit word. -/
def hexWord? (digits : List Char) : Option Nat :=
  let n := digits.foldl (fun n c => n * 16 + (Json.hexValue? c).getD 0) 0
  if n < Word.bound then some n else none

/-- A number in decimal. One that is too large is written as one that is infinite. -/
def writeHexadecimal (negative : Bool) (digits : List Char) : List Char :=
  let value := match hexWord? digits with
    | some n => Nat.toDigits 10 n
    | none => "9.0e999".toList
  if negative then '-' :: value else value

mutual

def write : LenientJson → List Char
  | null => "null".toList
  | bool value => (if value then "true" else "false").toList
  | number spelling => spelling
  | hexadecimal negative digits => writeHexadecimal negative digits
  | text pieces => writeText pieces
  | list items => '[' :: writeItems items ++ [']']
  | object fields => '{' :: writeFields fields ++ ['}']

def writeItems : List LenientJson → List Char
  | [] => []
  | [item] => write item
  | item :: items => write item ++ ',' :: writeItems items

def writeFields : List (List Char × LenientJson) → List Char
  | [] => []
  | [(key, value)] => key ++ ':' :: write value
  | (key, value) :: fields => key ++ ':' :: write value ++ ',' :: writeFields fields

end

/-! ## Elements -/

/-- The items of a list or the values of an object; any other value is its only element. -/
def elements : LenientJson → List LenientJson
  | list items => items
  | object fields => fields.map (·.2)
  | other => [other]

/-- What an element is to a comparison with a text. -/
inductive Reading where
  | text (characters : List Char)
  /-- No text, or one that no valid text is equal to. -/
  | noText
  /-- A number too large to be looked at. -/
  | unreadable

/-- A list or object reads as its strict spelling. -/
def reading : LenientJson → Reading
  | text pieces =>
    match characters? pieces with
    | some characters => .text characters
    | none => .noText
  | list items => .text (write (list items))
  | object fields => .text (write (object fields))
  | hexadecimal _ digits => if (hexWord? digits).isSome then .noText else .unreadable
  | null | bool _ | number _ => .noText

/-- Whether a text is among elements, looked at one after the other up to the first that is
it. Nothing when one before cannot be looked at. -/
def contains? (wanted : List Char) : List LenientJson → Option Bool
  | [] => some false
  | element :: elements =>
    match element.reading with
    | .text characters => if characters = wanted then some true else contains? wanted elements
    | .noText => contains? wanted elements
    | .unreadable => none

end LenientJson

end HouseStyle
