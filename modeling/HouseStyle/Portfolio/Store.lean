import HouseStyle.Decimal.Parts
import HouseStyle.Json.Lenient
import HouseStyle.Portfolio.Rows
import HouseStyle.Store.Fault
import HouseStyle.Word

/-!
# The portfolio

What all projects share: the register of projects, the occurrences that each project
contributes, and one aggregation per signature. Aggregations are written only under
the condition that their revision is still the one that was read.
-/

namespace HouseStyle

structure Portfolio where
  projects : List ProjectRow
  aggregations : List AggregationRow
  occurrences : List OccurrenceRow
  faults : Faults

namespace Portfolio

def empty : Portfolio := ⟨[], [], [], .none⟩

/-! ## Projects -/

def insertProject (portfolio : Portfolio) (row : ProjectRow) : Except StorageError Portfolio := do
  if ← portfolio.faults.allows .projects .insert then
    if portfolio.projects.any (·.path == row.path) then
      throw (Table.projects.uniqueViolation ["path"])
    if portfolio.projects.any (·.id == row.id) then
      throw (Table.projects.uniqueViolation ["id"])
    return { portfolio with projects := portfolio.projects ++ [row] }
  else return portfolio

def getProject? (portfolio : Portfolio) (id : String) : Option ProjectRow :=
  portfolio.projects.find? (·.id == id)

def getProjectByPath? (portfolio : Portfolio) (path : String) : Option ProjectRow :=
  portfolio.projects.find? (·.path == path)

/-- Change a project's row, and tell whether one was changed. -/
def updateProject (portfolio : Portfolio) (id : String) (change : ProjectRow → ProjectRow) :
    Except StorageError (Portfolio × Bool) := do
  let (projects, count) ←
    Table.projects.updateWhere portfolio.faults portfolio.projects (·.id == id) change
  return ({ portfolio with projects }, count != 0)

/-- Make a project active again, with new metadata and its old checkpoint. -/
def relinkProject (portfolio : Portfolio) (id name : String) (language : Option String)
    (frameworks : String) : Except StorageError Portfolio := do
  return (← portfolio.updateProject id fun row =>
    { row with name, primaryLanguage := language, frameworks, isActive := true,
               unlinkedAt := none }).1

/-- Make a project inactive. The time is kept when it was inactive already. -/
def deactivateProject (portfolio : Portfolio) (id : String) (now : Int) :
    Except StorageError (Portfolio × Bool) :=
  portfolio.updateProject id fun row =>
    { row with isActive := false, unlinkedAt := if row.isActive then some now else row.unlinkedAt }

def updateStats (portfolio : Portfolio) (id : String) (patterns concepts : Int) :
    Except StorageError Portfolio := do
  return (← portfolio.updateProject id fun row =>
    { row with patternCount := patterns, conceptCount := concepts }).1

/-- Move the checkpoint on, never back. -/
def advanceCheckpoint (portfolio : Portfolio) (id : String) (version now : Int) :
    Except StorageError Portfolio := do
  return (← portfolio.updateProject id fun row =>
    { row with lastSyncedVersion := max row.lastSyncedVersion version,
               lastSyncedAt := some now }).1

def resetCheckpoint (portfolio : Portfolio) (id : String) (now : Int) :
    Except StorageError Portfolio := do
  return (← portfolio.updateProject id fun row =>
    { row with lastSyncedVersion := 0, lastSyncedAt := some now }).1

/-- Projects in the order in which they were linked. -/
def listProjects (portfolio : Portfolio) (activeOnly : Bool) : List ProjectRow :=
  (portfolio.projects.filter fun row => row.isActive || !activeOnly).mergeSort fun a b =>
    a.linkedAt < b.linkedAt || (a.linkedAt == b.linkedAt && a.id ≤ b.id)

def countActive (portfolio : Portfolio) : Nat := portfolio.projects.countP (·.isActive)

/-- A sum that must stay a signed 64-bit word at every step. -/
def addWord (sum n : Int) : Except StorageError Int :=
  let sum := sum + n
  if Word.isSigned sum then .ok sum else .error (.engine "integer overflow")

/-- How many projects are active, and their patterns and concepts together. -/
def totals (portfolio : Portfolio) : Except StorageError (Nat × Int × Int) := do
  let active := portfolio.projects.filter (·.isActive)
  let patterns ← active.foldlM (fun sum row => addWord sum row.patternCount) 0
  let concepts ← active.foldlM (fun sum row => addWord sum row.conceptCount) 0
  return (active.length, patterns, concepts)

/-- Primary languages of active projects, the most common first. -/
def topLanguages (portfolio : Portfolio) : List (String × Nat) :=
  let languages := portfolio.projects.filterMap fun row =>
    if row.isActive then row.primaryLanguage else none
  (languages.eraseDups.map fun language => (language, languages.count language)).mergeSort
    fun a b => b.2 < a.2 || (a.2 == b.2 && a.1 ≤ b.1)

/-! ## Aggregations -/

def getAggregation? (portfolio : Portfolio) (signature : String) : Option AggregationRow :=
  portfolio.aggregations.find? (·.signature == signature)

/-- An aggregation as it is stored: its zeros have no sign. -/
def storedAggregation (row : AggregationRow) : AggregationRow :=
  { row with
    aggregatedConfidence := Decimal.unsignedZero row.aggregatedConfidence
    consensusScore := Decimal.unsignedZero row.consensusScore }

/-- Insert an aggregation unless its signature is taken or a number is missing, and tell
whether it was inserted. -/
def insertAggregation (portfolio : Portfolio) (row : AggregationRow) :
    Except StorageError (Portfolio × Bool) := do
  if ← portfolio.faults.allows .aggregations .insert then
    if row.aggregatedConfidence.isNaN || row.consensusScore.isNaN ||
        (portfolio.getAggregation? row.signature).isSome then
      return (portfolio, false)
    return ({ portfolio with
      aggregations := portfolio.aggregations ++ [storedAggregation row] }, true)
  else return (portfolio, false)

/-- A revision that is the last one has no successor. -/
def requireSuccessor (revision : Int) : Except StorageError Unit :=
  if revision = Word.greatest then
    .error (.engine "cannot store REAL value in INTEGER column pattern_aggregations.revision")
  else .ok ()

def requireNumbers (row : AggregationRow) : Except StorageError Unit := do
  Table.aggregations.requireNumber "aggregated_confidence" row.aggregatedConfidence
  Table.aggregations.requireNumber "consensus_score" row.consensusScore

/-- Change an aggregation if its revision is the expected one, count the revision up, and
tell whether there was such a row. A new row is checked for missing numbers and then for its
revision; where updates are blocked, its revision is checked before the block is met. -/
def updateAggregationIf (portfolio : Portfolio) (signature : String) (expected : Int)
    (change : AggregationRow → AggregationRow) : Except StorageError (Portfolio × Bool) := do
  let some old := portfolio.aggregations.find? fun row =>
      row.signature == signature && row.revision == expected
    | return (portfolio, false)
  let updated := { change old with revision := expected + 1 }
  if (portfolio.faults.effect? .aggregations .update).isSome then requireSuccessor expected
  if ← portfolio.faults.allows .aggregations .update then
    requireNumbers updated
    requireSuccessor expected
    return ({ portfolio with
      aggregations := portfolio.aggregations.map fun row =>
        if row.signature == signature then storedAggregation updated else row }, true)
  else return (portfolio, false)

/-- Write everything but the category and the age, if the revision is the expected one. -/
def casUpdate (portfolio : Portfolio) (row : AggregationRow) (expected : Int) :
    Except StorageError (Portfolio × Bool) :=
  portfolio.updateAggregationIf row.signature expected fun old =>
    { row with category := old.category, createdAt := old.createdAt }

def casConsensus (portfolio : Portfolio) (signature : String) (score : Float)
    (expected now : Int) : Except StorageError (Portfolio × Bool) :=
  portfolio.updateAggregationIf signature expected fun old =>
    { old with consensusScore := score, updatedAt := now }

def casDelete (portfolio : Portfolio) (signature : String) (expected : Int) :
    Except StorageError (Portfolio × Bool) := do
  let (aggregations, count) ←
    Table.aggregations.deleteWhere portfolio.faults portfolio.aggregations
      fun row => row.signature == signature && row.revision == expected
  return ({ portfolio with aggregations }, count != 0)

/-- All aggregations by their signatures. -/
def snapshot (portfolio : Portfolio) : List AggregationRow :=
  portfolio.aggregations.mergeSort fun a b => a.signature ≤ b.signature

/-! ## Occurrences -/

def sameOccurrence (a b : OccurrenceRow) : Bool :=
  a.signature == b.signature && a.projectId == b.projectId && a.patternId == b.patternId

/-- Write an occurrence, and tell whether it was there before. -/
def upsertOccurrence (portfolio : Portfolio) (row : OccurrenceRow) :
    Except StorageError (Portfolio × Bool) := do
  let existed := portfolio.occurrences.any (sameOccurrence row)
  if ← portfolio.faults.allows .occurrences .insert then
    Table.occurrences.requireNumber "confidence" row.confidence
  let row := { row with confidence := Decimal.unsignedZero row.confidence }
  let occurrences ← Table.occurrences.upsert portfolio.faults portfolio.occurrences
    sameOccurrence (fun _ new => new) row
  return ({ portfolio with occurrences }, existed)

/-- Delete occurrences, and give their signatures, sorted and each once. -/
def deleteOccurrences (portfolio : Portfolio) (fits : OccurrenceRow → Bool) :
    Except StorageError (Portfolio × List String) := do
  let signatures := ((portfolio.occurrences.filter fits).map (·.signature)).eraseDups
  let (occurrences, _) ←
    Table.occurrences.deleteWhere portfolio.faults portfolio.occurrences fits
  return ({ portfolio with occurrences }, signatures.mergeSort fun a b => a ≤ b)

def deletePatternOccurrences (portfolio : Portfolio) (project pattern : String) :
    Except StorageError (Portfolio × List String) :=
  portfolio.deleteOccurrences fun row => row.projectId == project && row.patternId == pattern

def deleteProjectOccurrences (portfolio : Portfolio) (project : String) :
    Except StorageError (Portfolio × List String) :=
  portfolio.deleteOccurrences fun row => row.projectId == project

/-- The occurrences of a signature by project and pattern. -/
def occurrencesFor (portfolio : Portfolio) (signature : String) : List OccurrenceRow :=
  (portfolio.occurrences.filter (·.signature == signature)).mergeSort fun a b =>
    a.projectId < b.projectId || (a.projectId == b.projectId && a.patternId ≤ b.patternId)

/-- How many active projects have an occurrence of a signature. -/
def activeCountFor (portfolio : Portfolio) (signature : String) : Nat :=
  portfolio.projects.countP fun project =>
    project.isActive &&
      portfolio.occurrences.any fun row =>
        row.signature == signature && row.projectId == project.id

/-! ## Queries -/

structure Query where
  category : Option String
  minProjects : Option Int
  minConsensus : Option Float
  language : Option String
  /-- How many rows at most; a negative number sets no limit. -/
  limit : Int

/-- Whether a stored list of languages, or object with languages as values, holds one. What is
stored must be JSON, read leniently. -/
def hasLanguage (language stored : String) : Except StorageError Bool :=
  match (LenientJson.parse? stored).bind fun value =>
      LenientJson.contains? language.toList value.elements with
  | some held => .ok held
  | none => .error (.corrupt "malformed JSON")

def Query.fitsNumbers (query : Query) (row : AggregationRow) : Bool :=
  query.category.all (· == row.category) &&
    query.minProjects.all (fun least => least ≤ row.occurrenceCount) &&
    query.minConsensus.all (fun least => least ≤ row.consensusScore)

def Query.fits (query : Query) (row : AggregationRow) : Except StorageError Bool :=
  if query.fitsNumbers row then
    match query.language with
    | some language => hasLanguage language row.languages
    | none => .ok true
  else .ok false

/-- Rules of more projects first, of these the surer, of these by the signature. -/
def ranksBefore (a b : AggregationRow) : Bool :=
  b.occurrenceCount < a.occurrenceCount ||
    (a.occurrenceCount == b.occurrenceCount &&
      (Decimal.rank b.aggregatedConfidence < Decimal.rank a.aggregatedConfidence ||
        (Decimal.rank a.aggregatedConfidence == Decimal.rank b.aggregatedConfidence &&
          a.signature ≤ b.signature)))

/-- More projects first, of these the surer; of equals the one inserted first. -/
def scansBefore (a b : AggregationRow) : Bool :=
  b.occurrenceCount < a.occurrenceCount ||
    (a.occurrenceCount == b.occurrenceCount &&
      Decimal.rank b.aggregatedConfidence ≤ Decimal.rank a.aggregatedConfidence)

/-- Whether only their signatures may tell two rules apart in a ranking. -/
def tie (a b : AggregationRow) : Bool := scansBefore a b && scansBefore b a

/-- The rows that fit among rows in scanning order. `found` holds those found so far, the
last one first. The scan ends at a row that fits and is no tie with the one before it, once
`limit` rows were found: none of the rows from there on could be in the answer. -/
def scan (query : Query) (limit : Nat) (found : List AggregationRow) :
    List AggregationRow → Except StorageError (List AggregationRow)
  | [] => .ok found.reverse
  | row :: rows => do
    if ← query.fits row then
      if limit ≤ found.length && !found.head?.any (tie row) then return found.reverse
      else scan query limit (row :: found) rows
    else scan query limit found rows

/-- The best rows that fit. Those of one category are all looked at; other rows only as long
as they may be among the best. -/
def query (portfolio : Portfolio) (query : Query) : Except StorageError (List AggregationRow) := do
  if query.limit = 0 then return []
  let most := if query.limit < 0 then portfolio.aggregations.length else query.limit.toNat
  let found ← match query.category with
    | some _ => portfolio.aggregations.filterM query.fits
    | none => scan query most [] (portfolio.aggregations.mergeSort scansBefore)
  return (found.mergeSort ranksBefore).take most

end Portfolio

end HouseStyle
