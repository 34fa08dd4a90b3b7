import HouseStyle.Decimal.Shortest
import HouseStyle.Learning.Merge

/-!
# Importing patterns

A pattern that was learned elsewhere comes in as a seed. Its frequency becomes the
pattern's baseline, to which the evidence in the store is added, and the confidence
never falls below what is stored.
-/

namespace HouseStyle

structure PatternSeed where
  content : PatternContent
  frequency : Nat
  confidence : Float
  contexts : List String

namespace PatternSeed

def ofJson? (value : Json) : Option PatternSeed := do
  let fields ← value.record? [("content", .required), ("frequency", .required),
    ("confidence", .required), ("contexts", .defaulted)]
  match fields with
  | [content, frequency, confidence, contexts] =>
    some {
      content := ← Json.need? PatternContent.ofJson? content
      frequency := ← Json.need? Json.asWord64? frequency
      confidence := ← Json.need? Json.asMeasure? confidence
      contexts := ← Json.orElse? [] (Json.asList? Json.asText?) contexts }
  | _ => none

/-- A seed's confidence lies between 0 and 1. -/
def check (seed : PatternSeed) : Except LearnError Unit :=
  if 0.0 ≤ seed.confidence ∧ seed.confidence ≤ 1.0 then .ok ()
  else .error (.invalidBatch
    ("seed confidence " ++ Decimal.plain seed.confidence ++ " outside [0, 1]"))

end PatternSeed

namespace PatternStore

/-- Bring a seed in. One that leads to no frequency at all is passed over. -/
def importSeed (store : PatternStore) (policy : LearningPolicy) (version : Nat) (now : Int)
    (seed : PatternSeed) : Except StorageError (PatternStore × Option PatternChange) := do
  let id := seed.content.id
  let existing ← store.readPattern? id
  let frequency := addWords seed.frequency (store.countForPattern id)
  if frequency = 0 then return (store, none)
  else
    let confidence := match existing with
      | some previous => ConfidencePolicy.corroborate previous.confidence seed.confidence
      | none => seed.confidence
    let known := (existing.map (·.contexts)).getD []
    store.putPattern existing {
      id
      category := seed.content.category
      content := seed.content
      frequency
      baseline := seed.frequency
      confidence
      contexts := (sortedTexts (seed.contexts ++ known)).take contextLimit
      examples := store.readExamples id policy.examples
      version
      createdAt := (existing.map (·.createdAt)).getD now
      lastSeen := now }

/-- Bring seeds in at version `preceding`, one after another, as one logged delta. -/
def importSeeds (store : PatternStore) (policy : LearningPolicy) (preceding : Nat) (now : Int)
    (seeds : List PatternSeed) : Except StorageError Merged := do
  store.requireVersion preceding
  let (merged, changes) ← seeds.foldlM (fun (store, changes) seed => do
    let (store, change) ← store.importSeed policy (preceding + 1) now seed
    return (store, changes ++ change.toList)) (store, [])
  merged.commit
    { LearningDelta.noop .manual preceding now [] with mode := .incremental } changes

end PatternStore

end HouseStyle
