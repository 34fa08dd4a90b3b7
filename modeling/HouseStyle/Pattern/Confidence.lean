import HouseStyle.Word

/-!
# Confidence

How sure a pattern is, from how often and how recently it was seen. The base grows
with the logarithm of the frequency. A pattern seen inside the recent window gains
a share of the distance to 1. Corroboration never lowers what is stored.
-/

namespace HouseStyle

/-- Cut off below 0 and above 1. NaN stays NaN. -/
def clampUnit {α : Type} [LT α] [DecidableLT α] [OfNat α 0] [OfNat α 1] (x : α) : α :=
  if x < 0 then 0 else if 1 < x then 1 else x

/-- The larger of two numbers; a NaN gives way to the other one. -/
def largerOf (a b : Float) : Float :=
  if a.isNaN then b else if b.isNaN then a else if a < b then b else a

/-- A whole number cut to the range of signed 64-bit words. -/
def saturate (n : Int) : Int := max (-(Word.half : Int)) (min n Word.greatest)

structure ConfidencePolicy where
  /-- Seconds for which a sighting counts as recent. -/
  window : Int
  /-- The share of the distance to 1 that a recent sighting gains. -/
  bonus : Float

namespace ConfidencePolicy

/-- Confidence from the frequency alone. -/
def base (frequency : Nat) : Float :=
  let raw := 0.5 + 0.05 * (Float.ofNat frequency + 1.0).log2
  if raw.isFinite then clampUnit raw else 0.5

/-- Whether a sighting counts as recent. One in the future does not. -/
def isRecent (policy : ConfidencePolicy) (lastSeen now : Int) : Bool :=
  let age := saturate (now - lastSeen)
  0 ≤ age && age ≤ policy.window

def score (policy : ConfidencePolicy) (frequency : Nat) (lastSeen now : Int) : Float :=
  let base := base frequency
  let gain := if policy.isRecent lastSeen now then policy.bonus * (1.0 - base) else 0.0
  clampUnit (base + gain)

/-- What is stored after a pattern was seen again. -/
def corroborate (previous computed : Float) : Float := clampUnit (largerOf previous computed)

end ConfidencePolicy

end HouseStyle
