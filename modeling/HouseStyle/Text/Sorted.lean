/-!
# Sorted texts

Texts in the order of their characters, each once.
-/

namespace HouseStyle

/-- Put a text into a sorted list, once. -/
def insertText (x : String) : List String → List String
  | [] => [x]
  | y :: ys => if x < y then x :: y :: ys else if x = y then y :: ys else y :: insertText x ys

/-- The texts sorted, each once. -/
def sortedTexts (xs : List String) : List String := xs.foldl (fun sorted x => insertText x sorted) []

end HouseStyle
