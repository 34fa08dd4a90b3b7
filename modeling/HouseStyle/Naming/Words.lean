import HouseStyle.Naming.Style
import HouseStyle.Text.CaseMap
import HouseStyle.Text.Letter

/-!
# Words of an identifier

An identifier is split at `_`, `-` and `$` and at its humps, and written again in
another case style. `HTTPServerError` has the words `http`, `server`, `error`.
-/

namespace HouseStyle.Naming

open HouseStyle.Text

def isSeparator (c : Char) : Bool := c == '_' || c == '-' || c == '$'

/-- Whether an upper case letter starts a new word, from the characters around it:
after a lower case letter or a digit, and at the last capital of an acronym. -/
def startsHump (previous : Char) (next : Option Char) : Bool :=
  isLower previous || isAsciiDigit previous || (isUpper previous && next.any isLower)

/-- Close the word being read, unless it is empty. -/
def closeWord (current : List Char) (rest : List (List Char)) : List (List Char) :=
  if current.isEmpty then rest else current :: rest

/-- Read words left to right. `current` is the word so far and `previous` the
character before the rest of the text. -/
def wordsFrom (current : List Char) (previous : Char) : List Char → List (List Char)
  | [] => closeWord current []
  | c :: rest =>
    if isSeparator c then closeWord current (wordsFrom [] c rest)
    else if isUpper c && !current.isEmpty && startsHump previous rest.head? then
      current :: wordsFrom (lowerOf c) c rest
    else wordsFrom (current ++ lowerOf c) c rest

/-- The words of an identifier, in lower case. -/
def words (s : List Char) : List (List Char) := wordsFrom [] '_' s

def splitWords (name : String) : List String := (words name.toList).map String.ofList

end HouseStyle.Naming
