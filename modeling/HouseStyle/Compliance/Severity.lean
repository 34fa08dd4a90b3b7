/-!
# Severity

How much a violation weighs: the surer the broken pattern, the more severe. Every
violation takes its penalty off a score of 100.
-/

namespace HouseStyle

inductive Severity where
  | low
  | medium
  | high
  deriving DecidableEq, Repr, Inhabited

namespace Severity

def all : List Severity := [low, medium, high]

def name : Severity → String
  | low => "low"
  | medium => "medium"
  | high => "high"

def ofName? (text : String) : Option Severity := all.find? (·.name == text)

/-- The place in the order from low to high. -/
def level : Severity → Nat
  | low => 0
  | medium => 1
  | high => 2

end Severity

structure SeverityPolicy where
  highThreshold : Float
  mediumThreshold : Float
  penaltyHigh : Nat
  penaltyMedium : Nat
  penaltyLow : Nat

namespace SeverityPolicy

def classify (policy : SeverityPolicy) (confidence : Float) : Severity :=
  if policy.highThreshold ≤ confidence then .high
  else if policy.mediumThreshold ≤ confidence then .medium
  else .low

def penalty (policy : SeverityPolicy) : Severity → Nat
  | .high => policy.penaltyHigh
  | .medium => policy.penaltyMedium
  | .low => policy.penaltyLow

/-- What is left of 100 after all penalties. -/
def score (policy : SeverityPolicy) (found : List Severity) : Nat :=
  100 - found.foldr (fun severity total => policy.penalty severity + total) 0

end SeverityPolicy

end HouseStyle
