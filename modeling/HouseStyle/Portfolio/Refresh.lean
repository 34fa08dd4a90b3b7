import HouseStyle.Learning.Delta
import HouseStyle.Portfolio.Occurrence
import HouseStyle.Portfolio.Store

/-!
# Keeping aggregations up to date

An aggregation is always written anew from all occurrences of its signature, never
changed bit by bit. A write that loses against another writer is tried again with
what that writer left, for a limited number of attempts.
-/

namespace HouseStyle

def Occurrence.ofRow (row : OccurrenceRow) : Except StorageError Occurrence := do
  let languages ← readTexts "occurrence languages" row.languages
  return ⟨row.projectId, row.patternId, readWord row.frequency, row.confidence, languages⟩

/-- What is known of a rule besides its occurrences. -/
structure RuleText where
  category : String
  description : String
  deriving DecidableEq, Repr, Inhabited

inductive RefreshOutcome where
  | inserted
  | updated
  | deleted
  /-- No row and no occurrences, or nothing known to make a row from. -/
  | absent
  deriving DecidableEq, Repr, Inhabited

def RefreshOutcome.name : RefreshOutcome → String
  | inserted => "inserted"
  | updated => "updated"
  | deleted => "deleted"
  | absent => "absent"

namespace Portfolio

/-- The row of a signature, from its occurrences. -/
def aggregate (portfolio : Portfolio) (signature : String) (text : RuleText)
    (occurrences : List Occurrence) (createdAt now : Int) : AggregationRow where
  signature
  category := text.category
  description := text.description
  aggregatedConfidence := weightedConfidence occurrences
  consensusScore := consensus (portfolio.activeCountFor signature) portfolio.countActive
  occurrenceCount := ((occurrences.map (·.projectId)).eraseDups.length : Nat)
  languages := (Json.ofTexts (mergedLanguages occurrences)).render
  revision := 1
  createdAt
  updatedAt := now

/-- What one attempt came to: an end, or a race lost against the row of a revision. -/
inductive Attempt where
  | done (portfolio : Portfolio) (outcome : RefreshOutcome)
  | lost (portfolio : Portfolio) (revision : Option Int)

/-- A conditional write that a race may take the effect of. -/
def racing (portfolio : Portfolio) (signature : String) (attempt : Nat)
    (write : Portfolio → Except StorageError (Portfolio × Bool)) :
    Except StorageError (Portfolio × Bool) :=
  if portfolio.faults.losesRace signature attempt then .ok (portfolio, false) else write portfolio

/-- Try once to bring the row of a signature up to date. -/
def attemptRefresh (portfolio : Portfolio) (signature : String) (text : Option RuleText)
    (attempt : Nat) (now : Int) : Except StorageError Attempt := do
  let rows := portfolio.occurrencesFor signature
  let existing := portfolio.getAggregation? signature
  if rows.isEmpty then
    match existing with
    | none => return .done portfolio .absent
    | some current =>
      let (written, won) ← portfolio.racing signature attempt fun p =>
        p.casDelete signature current.revision
      return if won then .done written .deleted else .lost written (some current.revision)
  else
    let occurrences ← rows.mapM Occurrence.ofRow
    match existing, text with
    | some current, text =>
      let description := (text.map (·.description)).getD current.description
      let row := portfolio.aggregate signature ⟨current.category, description⟩ occurrences
        current.createdAt now
      let (written, won) ← portfolio.racing signature attempt fun p =>
        p.casUpdate row current.revision
      return if won then .done written .updated else .lost written (some current.revision)
    | none, some text =>
      let row := portfolio.aggregate signature text occurrences now now
      let (written, won) ← portfolio.racing signature attempt fun p => p.insertAggregation row
      return if won then .done written .inserted else .lost written none
    | none, none => return .done portfolio .absent

/-- Go on trying. `lastRevision` is the revision of the row that was last read. -/
def refreshFrom (signature : String) (text : Option RuleText) (now lastRevision : Int)
    (attempt : Nat) : (left : Nat) → Portfolio →
    Except StorageError (Portfolio × RefreshOutcome × Nat)
  | 0, portfolio =>
    let found := ((portfolio.getAggregation? signature).map (·.revision)).getD 0
    .error (.versionConflict lastRevision.toNat found.toNat)
  | left + 1, portfolio => do
    match ← portfolio.attemptRefresh signature text attempt now with
    | .done portfolio outcome => return (portfolio, outcome, attempt)
    | .lost portfolio revision =>
      refreshFrom signature text now (revision.getD lastRevision) (attempt + 1) left portfolio

/-- Bring the row of a signature up to date, and tell how many races were lost. -/
def refresh (portfolio : Portfolio) (signature : String) (text : Option RuleText)
    (attempts : Nat) (now : Int) : Except StorageError (Portfolio × RefreshOutcome × Nat) :=
  refreshFrom signature text now 0 0 (max attempts 1) portfolio

/-- Bring the consensus of one signature up to date, and tell whether it changed. `left`
attempts remain after this one; `score` and `revision` are what was last read. -/
def recomputeFrom (signature : String) (active : Nat) (now : Int) (score : Float)
    (revision : Int) (attempt : Nat) : (left : Nat) → Portfolio →
    Except StorageError (Portfolio × Bool)
  | left, portfolio => do
    let wanted := consensus (portfolio.activeCountFor signature) active
    if sameConsensus wanted score then return (portfolio, false)
    let (portfolio, won) ← portfolio.racing signature attempt fun p =>
      p.casConsensus signature wanted revision now
    if won then return (portfolio, true)
    match portfolio.getAggregation? signature with
    | none => return (portfolio, false)
    | some row =>
      match left with
      | 0 => throw (.versionConflict revision.toNat row.revision.toNat)
      | left + 1 =>
        recomputeFrom signature active now row.consensusScore row.revision (attempt + 1) left
          portfolio

/-- Bring the consensus of rows up to date one after the other, and count the changes. Those
before a failing one stay. -/
def recomputeRows (active attempts : Nat) (now : Int) :
    List AggregationRow → Portfolio → Except StorageError Nat × Portfolio
  | [], portfolio => (.ok 0, portfolio)
  | row :: rows, portfolio =>
    match recomputeFrom row.signature active now row.consensusScore row.revision 0
        (max attempts 1 - 1) portfolio with
    | .error error => (.error error, portfolio)
    | .ok (portfolio, wrote) =>
      let (result, left) := recomputeRows active attempts now rows portfolio
      (result.map fun changed => changed + if wrote then 1 else 0, left)

/-- Bring every consensus up to date with the projects that are active, and count the
changes. -/
def recomputeEach (portfolio : Portfolio) (attempts : Nat) (now : Int) :
    Except StorageError Nat × Portfolio :=
  recomputeRows portfolio.countActive attempts now portfolio.snapshot portfolio

/-- Bring every consensus up to date, or none. -/
def recompute (portfolio : Portfolio) (attempts : Nat) (now : Int) :
    Except StorageError (Portfolio × Nat) :=
  let (result, left) := portfolio.recomputeEach attempts now
  result.map fun changed => (left, changed)

end Portfolio

end HouseStyle
