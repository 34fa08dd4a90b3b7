/-!
# Words

The bounds of machine words, and the powers from which exact numbers are built.
-/

namespace HouseStyle

namespace Word

/-- One more than the largest 32-bit word. -/
def bound32 : Nat := 0x100000000

/-- One more than the largest 64-bit word. -/
def bound : Nat := 0x10000000000000000

/-- One more than the largest signed 64-bit word. -/
def half : Nat := 0x8000000000000000

/-- The largest signed 64-bit word. -/
def greatest : Nat := 0x7FFFFFFFFFFFFFFF

/-- Whether a whole number is a signed 64-bit word. -/
def isSigned (n : Int) : Bool := -(half : Int) ≤ n && n < (half : Int)

end Word

/-- Cut a list to a limit given as a 64-bit word. From the top bit on there is no limit. -/
def takeLimit {α : Type} (limit : Nat) (rows : List α) : List α :=
  if limit < Word.half then rows.take limit else rows

/-- A power of two. -/
def twoTo (n : Nat) : Nat := Nat.pow 2 n

/-- A power of ten. -/
def tenTo (n : Nat) : Nat := Nat.pow 10 n

end HouseStyle
