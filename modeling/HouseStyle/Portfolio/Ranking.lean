import HouseStyle.Decimal.Parts
import HouseStyle.Error.Operation

/-!
# Ranking by similarity

Items are ordered by how close their texts are to a query. An embedder turns a text
into a vector, and closeness is the cosine of the angle between two vectors.
-/

namespace HouseStyle

structure Embedder where
  dimensions : Nat
  embed : String → Except ExtractionError (List Float)

/-- The nearest number that single precision can hold. -/
def single (x : Float) : Float := x.toFloat32.toFloat

/-- Sums over two vectors side by side: of the products, and of both squares. -/
def dotAndSquares (a b : List Float) : Float × Float × Float :=
  (a.zip b).foldl (fun (dot, left, right) (x, y) =>
    (dot + x * y, left + x * x, right + y * y)) (0.0, 0.0, 0.0)

/-- Vectors of unlike or no length, and vectors without a direction, are not similar at all. -/
def cosineSimilarity (a b : List Float) : Float :=
  if a.length ≠ b.length ∨ a.isEmpty then 0.0
  else
    let (dot, left, right) := dotAndSquares (a.map single) (b.map single)
    let scale := left.sqrt * right.sqrt
    if scale < Float.ofScientific 2220446049250313 true 31 then 0.0
    else
      let cosine := dot / scale
      if cosine < -1.0 then -1.0 else if 1.0 < cosine then 1.0 else cosine

namespace Embedder

/-- The vector of a text, which must have the length that the embedder promises. -/
def vector (embedder : Embedder) (text : String) : Except ExtractionError (List Float) := do
  let vector ← embedder.embed text
  if vector.length ≠ embedder.dimensions then
    throw (.dimensionMismatch embedder.dimensions vector.length)
  return vector

/-- Score items by their texts and put the most similar first. Items of one score keep
their order. -/
def rank {α : Type} (embedder : Embedder) (query : String) (textOf : α → String)
    (items : List α) : Except ExtractionError (List (α × Float)) := do
  let wanted ← embedder.vector query
  let scored ← items.mapM fun item => do
    let vector ← embedder.vector (textOf item)
    return (item, cosineSimilarity wanted vector)
  return scored.mergeSort fun a b => Decimal.rank b.2 ≤ Decimal.rank a.2

/-- How often a word occurs, counted without overlaps. `skip` characters still belong to
the last occurrence. The empty word occurs before every character and at the end. -/
def countWord (word : List Char) (skip : Nat) : List Char → Nat
  | [] => if word.isEmpty then 1 else 0
  | c :: rest =>
    match skip with
    | skip + 1 => countWord word skip rest
    | 0 =>
      if word.isPrefixOf (c :: rest) then 1 + countWord word (word.length - 1) rest
      else countWord word 0 rest

/-- Cut a vector, or fill it up with zeros, to a length. -/
def resize (length : Nat) (vector : List Float) : List Float :=
  vector.take length ++ List.replicate (length - vector.length) 0.0

/-- An embedder that counts given words. -/
def ofWords (words : List String) : Embedder :=
  ⟨words.length, fun text =>
    .ok (words.map fun word => Float.ofNat (countWord word.toList 0 text.toList))⟩

/-- An embedder that cannot be reached. -/
def offline : Embedder := ⟨0, fun _ => .error (.unavailable "embedder" "offline")⟩

end Embedder

end HouseStyle
