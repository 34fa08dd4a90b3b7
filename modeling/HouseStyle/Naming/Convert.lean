import HouseStyle.Naming.Words
import HouseStyle.Text.Blank
import HouseStyle.Text.Lines

/-!
# Writing an identifier in a case style

`convert` writes the words of an identifier in a style and keeps the underscores
in front. `classify?` tells the style of an identifier; one lower case word fits
several styles and has none.
-/

namespace HouseStyle.Naming

open HouseStyle.Text

def capitalize : List Char → List Char
  | [] => []
  | first :: rest => upperOf first ++ rest

/-- Words written together in a style. -/
def joinWords (style : CaseStyle) (ws : List (List Char)) : List Char :=
  match style with
  | .camel =>
    match ws with
    | [] => []
    | first :: others => first ++ others.flatMap capitalize
  | .pascal => ws.flatMap capitalize
  | .snake => joinWith ['_'] ws
  | .screamingSnake => upper (joinWith ['_'] ws)
  | .kebab => joinWith ['-'] ws

def convertChars (s : List Char) (style : CaseStyle) : List Char :=
  match words (s.dropWhile (· = '_')) with
  | [] => s
  | ws => s.takeWhile (· = '_') ++ joinWords style ws

/-- The identifier in another style. One without words stays as it is. -/
def convert (name : String) (style : CaseStyle) : String :=
  String.ofList (convertChars name.toList style)

/-- The identifier without the underscores and dollar signs around it. -/
def core (s : List Char) : List Char :=
  dropEndWhile (· = '_') (s.dropWhile fun c => c = '_' || c = '$')

def hasDoubleDash : List Char → Bool
  | '-' :: '-' :: _ => true
  | _ :: rest => hasDoubleDash rest
  | [] => false

def classifyChars? (s : List Char) : Option CaseStyle :=
  match core s with
  | [] => none
  | first :: rest =>
    let text := first :: rest
    let hasUpper := text.any isUpper
    let hasLower := text.any isLower
    if !isAlphabetic first then none
    else if text.contains '-' then
      if text.all (fun c => isLower c || isAsciiDigit c || c == '-') && !hasDoubleDash text then
        some .kebab
      else none
    else if text.contains '_' then
      match hasUpper, hasLower with
      | true, false => some .screamingSnake
      | false, true => some .snake
      | _, _ => none
    else if isLower first then
      if hasUpper then some .camel else none
    else if hasLower then some .pascal
    else if 2 ≤ text.length then some .screamingSnake
    else none

/-- The style an identifier is written in, when it shows one. -/
def classify? (name : String) : Option CaseStyle := classifyChars? name.toList

end HouseStyle.Naming
