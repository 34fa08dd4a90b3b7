/-!
# Lines of a text

A line ends at a line feed, which is dropped together with a carriage return
right before it. A line feed at the very end closes the last line and opens no
empty one.
-/

namespace HouseStyle.Text

/-- Put a character in front of a list of pieces: a separator opens a new piece. -/
def splitStep (sep c : Char) (pieces : List (List Char)) : List (List Char) :=
  if c = sep then [] :: pieces
  else
    match pieces with
    | [] => [[c]]
    | piece :: others => (c :: piece) :: others

/-- Split at every occurrence of `sep`; the pieces, joined by `sep`, give the list back. -/
def splitAt (sep : Char) (s : List Char) : List (List Char) :=
  s.foldr (splitStep sep) [[]]

/-- A carriage return that ends a line belongs to the line break. -/
def dropReturn (line : List Char) : List Char :=
  if line.getLast? = some '\r' then line.dropLast else line

/-- The lines of a text. Only a line closed by a line feed loses its carriage return. -/
def lines (s : List Char) : List (List Char) :=
  let pieces := splitAt '\n' s
  let closed := pieces.dropLast.map dropReturn
  match pieces.getLast? with
  | none => closed
  | some [] => closed
  | some last => closed ++ [last]

/-- Join pieces with a separator between neighbours. -/
def joinWith (sep : List Char) : List (List Char) → List Char
  | [] => []
  | [piece] => piece
  | piece :: pieces => piece ++ sep ++ joinWith sep pieces

theorem splitAt_cons (sep c : Char) (s : List Char) :
    splitAt sep (c :: s) = splitStep sep c (splitAt sep s) := rfl

theorem splitAt_ne_nil (sep : Char) (s : List Char) : splitAt sep s ≠ [] := by
  cases s with
  | nil => simp [splitAt]
  | cons c rest =>
    rw [splitAt_cons]
    unfold splitStep
    split
    · simp
    · split <;> simp

theorem joinWith_splitAt (sep : Char) (s : List Char) :
    joinWith [sep] (splitAt sep s) = s := by
  induction s with
  | nil => rfl
  | cons c rest ih =>
    rw [splitAt_cons]
    unfold splitStep
    cases hp : splitAt sep rest with
    | nil => exact absurd hp (splitAt_ne_nil sep rest)
    | cons piece pieces =>
      rw [hp] at ih
      split
      next h => simp [h, joinWith, ih]
      next h =>
        cases pieces with
        | nil => simp [joinWith] at ih ⊢; exact ih
        | cons second others => simp [joinWith] at ih ⊢; exact ih

end HouseStyle.Text
