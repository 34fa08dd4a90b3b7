import HouseStyle.Error.Operation
import HouseStyle.Path
import HouseStyle.Portfolio.Refresh
import HouseStyle.Text.Blank

/-!
# The register of projects

A project is registered once for every path. Linking a path that is known makes its
project active again; unlinking leaves the project and its occurrences in place, but
it no longer counts for consensus.
-/

namespace HouseStyle

/-- What a caller says about a project. -/
structure ProjectMetadata where
  name : Option String
  primaryLanguage : Option String
  frameworks : List String
  deriving DecidableEq, Repr, Inhabited

namespace ProjectMetadata

def unset : ProjectMetadata := ⟨none, none, []⟩

def ofJson? (value : Json) : Option ProjectMetadata := do
  let fields ← value.record? [("name", .defaulted), ("primary_language", .defaulted),
    ("frameworks", .defaulted)]
  match fields with
  | [name, primaryLanguage, frameworks] =>
    some {
      name := ← Json.orElse? none (Json.asOption? Json.asText?) name
      primaryLanguage := ← Json.orElse? none (Json.asOption? Json.asText?) primaryLanguage
      frameworks := ← Json.orElse? [] (Json.asList? Json.asText?) frameworks }
  | _ => none

/-- The name that was given, if it is not blank, or else the last part of the path. -/
def displayName (metadata : ProjectMetadata) (path : String) : String :=
  (metadata.name.filter fun name => !(Text.trim name.toList).isEmpty).getD (Path.fileName path)

end ProjectMetadata

structure Project where
  id : String
  path : String
  name : String
  primaryLanguage : Option String
  frameworks : List String
  linkedAt : Int
  unlinkedAt : Option Int
  /-- The version of the store up to which it is synced. -/
  lastSyncedVersion : Nat
  lastSyncedAt : Option Int
  patternCount : Nat
  conceptCount : Nat
  isActive : Bool
  deriving DecidableEq, Repr, Inhabited

namespace Project

def ofRow (row : ProjectRow) : Except StorageError Project := do
  let frameworks ← readTexts "project frameworks" row.frameworks
  return {
    id := row.id
    path := row.path
    name := row.name
    primaryLanguage := row.primaryLanguage
    frameworks
    linkedAt := row.linkedAt
    unlinkedAt := row.unlinkedAt
    lastSyncedVersion := readWord row.lastSyncedVersion
    lastSyncedAt := row.lastSyncedAt
    patternCount := readWord row.patternCount
    conceptCount := readWord row.conceptCount
    isActive := row.isActive }

def toJson (p : Project) : Json :=
  .object [
    ("id", .text p.id),
    ("path", .text p.path),
    ("name", .text p.name),
    ("primary_language", .ofOption .text p.primaryLanguage),
    ("frameworks", .ofTexts p.frameworks),
    ("linked_at", .int p.linkedAt),
    ("unlinked_at", .ofOption .int p.unlinkedAt),
    ("last_synced_version", .ofNat p.lastSyncedVersion),
    ("last_synced_at", .ofOption .int p.lastSyncedAt),
    ("pattern_count", .ofNat p.patternCount),
    ("concept_count", .ofNat p.conceptCount),
    ("is_active", .bool p.isActive)]

end Project

namespace Portfolio

/-- The project row at a path, made active, or a new one with the given id. -/
def register (portfolio : Portfolio) (newId path : String) (metadata : ProjectMetadata)
    (now : Int) : Except StorageError (Portfolio × String × Bool) := do
  let name := metadata.displayName path
  let frameworks := (Json.ofTexts metadata.frameworks).render
  match portfolio.getProjectByPath? path with
  | some row =>
    return (← portfolio.relinkProject row.id name metadata.primaryLanguage frameworks, row.id, true)
  | none =>
    let portfolio ← portfolio.insertProject {
      id := newId
      path
      name
      primaryLanguage := metadata.primaryLanguage
      frameworks
      linkedAt := now
      unlinkedAt := none
      lastSyncedVersion := 0
      lastSyncedAt := none
      patternCount := 0
      conceptCount := 0
      isActive := true }
    return (portfolio, newId, false)

/-- Register a path and bring every consensus up to date. -/
def link (portfolio : Portfolio) (attempts : Nat) (now : Int) (newId path : String)
    (metadata : ProjectMetadata) : Except StorageError (Portfolio × ProjectRow × Bool) := do
  let (portfolio, id, relinked) ← portfolio.register newId path metadata now
  let (portfolio, _) ← portfolio.recompute attempts now
  match portfolio.getProject? id with
  | some row => return (portfolio, row, relinked)
  | none => throw (.notFound "project" id)

/-- Make a project inactive and bring every consensus up to date. Nothing happens to one
that is inactive already; the answer tells the two apart. -/
def unlink (portfolio : Portfolio) (attempts : Nat) (now : Int) (id : String) :
    Except RegistryError (Portfolio × Bool) :=
  match portfolio.getProject? id with
  | none => .error (.unknownProject id)
  | some row =>
    if row.isActive then
      let unlinked := do
        let (portfolio, _) ← portfolio.deactivateProject id now
        return ((← portfolio.recompute attempts now).1, true)
      unlinked.mapError .storage
    else .ok (portfolio, false)

/-- Set the statistics of a project. Numbers beyond a signed word are cut. -/
def setStats (portfolio : Portfolio) (id : String) (patterns concepts : Nat) :
    Except RegistryError Portfolio :=
  let cut (n : Nat) : Int := (min n Word.greatest : Nat)
  if (portfolio.getProject? id).isNone then .error (.unknownProject id)
  else (portfolio.updateStats id (cut patterns) (cut concepts)).mapError .storage

def findProject (portfolio : Portfolio) (id : String) : Except RegistryError (Option Project) :=
  ((portfolio.getProject? id).mapM Project.ofRow).mapError .storage

def findByPath (portfolio : Portfolio) (path : String) : Except RegistryError (Option Project) :=
  ((portfolio.getProjectByPath? path).mapM Project.ofRow).mapError .storage

def projectList (portfolio : Portfolio) (activeOnly : Bool) :
    Except RegistryError (List Project) :=
  ((portfolio.listProjects activeOnly).mapM Project.ofRow).mapError .storage

end Portfolio

end HouseStyle
