import HouseStyle.Proofs.Pattern.Form
import HouseStyle.Proofs.Portfolio.Consistency
import HouseStyle.Proofs.Portfolio.Registrations

/-!
# The life of a project in the register

A project is added by the first link of its path and never removed. Linking and unlinking turn it
active and inactive and touch nothing that it was synced to; syncs move its checkpoint on, and only
a rebase moves it back. So the links and unlinks that succeeded say of every project whether it is
active, and since when it is not.
-/

namespace HouseStyle

/-! ## Turns -/

/-- A link or an unlink of a project. -/
inductive LinkTurn where
  | linked
  | unlinked (now : Int)
  deriving DecidableEq, Repr

/-- Whether a project is active, and when it was made inactive. -/
structure Standing where
  isActive : Bool
  unlinkedAt : Option Int
  deriving DecidableEq, Repr

namespace Standing

def turned : Standing → LinkTurn → Standing
  | _, .linked => ⟨true, none⟩
  | standing, .unlinked now => ⟨false, if standing.isActive then some now else standing.unlinkedAt⟩

end Standing

def ProjectRow.standing (row : ProjectRow) : Standing := ⟨row.isActive, row.unlinkedAt⟩

/-- The time of the unlink that made a project inactive. Before that it was linked, and since then
it was not linked again, only unlinked once more or not at all. -/
def UnlinkedAt (turns : List LinkTurn) (time : Int) : Prop :=
  ∃ before repeated, turns = before ++ .unlinked time :: repeated ∧
    before.getLast? = some .linked ∧ LinkTurn.linked ∉ repeated

/-- What the links and unlinks of a project say of it. It is active when the last of them was a
link, and otherwise it has the time of the unlink that made it inactive. -/
structure Standing.Follows (turns : List LinkTurn) (standing : Standing) : Prop where
  active : standing.isActive = true ↔ turns.getLast? = some .linked
  dated : standing.unlinkedAt.isSome = true ↔ standing.isActive = false
  time : ∀ time, standing.unlinkedAt = some time → UnlinkedAt turns time

namespace Standing.Follows

variable {turns : List LinkTurn} {standing : Standing}

lemma linked (turns : List LinkTurn) : Follows (turns ++ [.linked]) ⟨true, none⟩ where
  active := by simp
  dated := by simp
  time := nofun

/-- The first unlink after a link sets the time; one that comes later keeps it. -/
lemma unlinked (follows : standing.Follows turns) (now : Int) :
    (standing.turned (.unlinked now)).Follows (turns ++ [.unlinked now]) := by
  cases hactive : standing.isActive with
  | true =>
    have hlast := follows.active.mp hactive
    refine ⟨by simp [turned], by simp [turned, hactive], fun time htime => ?_⟩
    rw [turned, hactive, if_pos rfl, Option.some.injEq] at htime
    exact ⟨turns, [], by rw [htime], hlast, List.not_mem_nil⟩
  | false =>
    have hdated := follows.dated.mpr hactive
    refine ⟨by simp [turned], by simp [turned, hactive, hdated], fun time htime => ?_⟩
    rw [turned, hactive, if_neg Bool.false_ne_true] at htime
    obtain ⟨before, repeated, rfl, hbefore, hrepeated⟩ := follows.time time htime
    refine ⟨before, repeated ++ [.unlinked now], by simp, hbefore, ?_⟩
    simpa using hrepeated

theorem turned (follows : standing.Follows turns) (turn : LinkTurn) :
    (standing.turned turn).Follows (turns ++ [turn]) := by
  cases turn with
  | linked => exact .linked turns
  | unlinked now => exact follows.unlinked now

lemma turnedAll (follows : standing.Follows turns) (more : List LinkTurn) :
    (more.foldl Standing.turned standing).Follows (turns ++ more) := by
  induction more generalizing standing turns with
  | nil =>
    rw [List.append_nil]
    exact follows
  | cons turn more ih =>
    rw [List.append_cons]
    exact ih (follows.turned turn)

end Standing.Follows

/-! ## Rows of projects -/

lemma forall₂_trans {α : Type} {related : α → α → Prop} {xs ys zs : List α}
    (trans : ∀ x y z, related x y → related y z → related x z) (first : List.Forall₂ related xs ys)
    (second : List.Forall₂ related ys zs) : List.Forall₂ related xs zs := by
  induction first generalizing zs with
  | nil => exact second
  | cons hxy _ ih =>
    cases second with
    | cons hyz second => exact .cons (trans _ _ _ hxy hyz) (ih second)

namespace ProjectRow

/-- A row is of the project that another one is of. -/
structure Same (row after : ProjectRow) : Prop where
  id : after.id = row.id
  path : after.path = row.path
  linkedAt : after.linkedAt = row.linkedAt

/-- What a sync and new statistics keep: a project stands as it did, and its checkpoint has not
gone back. -/
structure Ahead (row after : ProjectRow) : Prop extends Same row after where
  standing : after.standing = row.standing
  checkpoint : row.lastSyncedVersion ≤ after.lastSyncedVersion

/-- What linking and unlinking keep: all that a project was synced to. -/
structure SyncedAlike (row after : ProjectRow) : Prop extends Same row after where
  lastSyncedVersion : after.lastSyncedVersion = row.lastSyncedVersion
  lastSyncedAt : after.lastSyncedAt = row.lastSyncedAt
  patternCount : after.patternCount = row.patternCount
  conceptCount : after.conceptCount = row.conceptCount

variable {row mid after : ProjectRow}

lemma Same.refl (row : ProjectRow) : row.Same row := ⟨rfl, rfl, rfl⟩

lemma Same.trans (first : row.Same mid) (second : mid.Same after) : row.Same after where
  id := second.id.trans first.id
  path := second.path.trans first.path
  linkedAt := second.linkedAt.trans first.linkedAt

lemma Ahead.refl (row : ProjectRow) : row.Ahead row := ⟨.refl row, rfl, le_refl _⟩

lemma Ahead.trans (first : row.Ahead mid) (second : mid.Ahead after) : row.Ahead after where
  toSame := first.toSame.trans second.toSame
  standing := second.standing.trans first.standing
  checkpoint := first.checkpoint.trans second.checkpoint

lemma SyncedAlike.refl (row : ProjectRow) : row.SyncedAlike row :=
  ⟨.refl row, rfl, rfl, rfl, rfl⟩

end ProjectRow

namespace Portfolio

variable {portfolio mid after : Portfolio} {projectId : String} {attempts : Nat} {now : Int}

lemma ahead_advanced (version now : Int) (row : ProjectRow) :
    row.Ahead (advanced version now row) :=
  ⟨⟨rfl, rfl, rfl⟩, rfl, le_max_left _ _⟩

lemma ahead_counted (patterns concepts : Int) (row : ProjectRow) :
    row.Ahead (counted patterns concepts row) :=
  ⟨⟨rfl, rfl, rfl⟩, rfl, le_refl _⟩

/-- Each row is related to the one that has taken its place. -/
lemma projects_withProject {related : ProjectRow → ProjectRow → Prop} {id : String}
    {change : ProjectRow → ProjectRow} (others : ∀ row, row.id ≠ id → related row row)
    (own : ∀ row ∈ portfolio.projects, row.id = id → related row (change row)) :
    List.Forall₂ related portfolio.projects (portfolio.withProject id change).projects := by
  rw [withProject, List.forall₂_map_right_iff, List.forall₂_same]
  intro row hrow
  by_cases hid : row.id = id
  · rw [if_pos (beq_iff_eq.mpr hid)]
    exact own row hrow hid
  · rw [if_neg (mt beq_iff_eq.mp hid)]
    exact others row hid

/-! ## Syncs -/

/-- Every row is at least where it was. -/
def MovedOn (portfolio after : Portfolio) : Prop :=
  List.Forall₂ ProjectRow.Ahead portfolio.projects after.projects

lemma MovedOn.refl (portfolio : Portfolio) : portfolio.MovedOn portfolio :=
  List.forall₂_same.mpr fun row _ => .refl row

lemma MovedOn.trans (first : portfolio.MovedOn mid) (second : mid.MovedOn after) :
    portfolio.MovedOn after :=
  forall₂_trans (fun _ _ _ => ProjectRow.Ahead.trans) first second

lemma movedOn_withProject {change : ProjectRow → ProjectRow}
    (ahead : ∀ row, ProjectRow.Ahead row (change row)) :
    portfolio.MovedOn (portfolio.withProject projectId change) :=
  projects_withProject (fun row _ => .refl row) fun row _ _ => ahead row

lemma applyVersions_movedOn {progress left : SyncProgress} {groups : List VersionChanges}
    {failure : Option StorageError} (honest : progress.portfolio.faults.Honest)
    (h : applyVersions projectId attempts now progress groups = (left, failure)) :
    progress.portfolio.MovedOn left.portfolio := by
  induction groups generalizing progress with
  | nil =>
    obtain ⟨rfl, -⟩ := Prod.mk.inj h
    exact .refl _
  | cons group groups ih =>
    rw [applyVersions] at h
    cases hfirst : progress.portfolio.applyVersion projectId attempts now group with
    | error error =>
      rw [hfirst] at h
      obtain ⟨rfl, -⟩ := Prod.mk.inj h
      exact .refl _
    | ok result =>
      obtain ⟨next, counts⟩ := result
      rw [hfirst] at h
      obtain ⟨aggregations, rfl⟩ := applyVersion_ok hfirst honest
      have first : progress.portfolio.MovedOn
          (progress.portfolio.withProject projectId (advanced (storedWord group.version) now)) :=
        movedOn_withProject (ahead_advanced _ now)
      exact first.trans (ih (by exact honest) h)

theorem sync_movedOn (honest : portfolio.faults.Honest) (projectId : String) (attempts : Nat)
    (now : Int) (store : PatternStore) :
    portfolio.MovedOn (portfolio.sync attempts now projectId store).portfolio := by
  rcases portfolio.sync_cases attempts now projectId store with ⟨hsame, -⟩ |
    ⟨project, groups, progress, failure, -, -, -, happly, hcases⟩
  · rw [hsame]
    exact .refl _
  · have hprogress : portfolio.MovedOn progress.portfolio := applyVersions_movedOn honest happly
    have moved : portfolio.Moved project.id progress.portfolio := applyVersions_moved honest happly
    rcases hcases with ⟨hleft, -⟩ | ⟨-, left, hclose, hleft, -⟩
    · rw [hleft]
      exact hprogress
    · rw [hleft, closeSync_ok hclose (moved.faults ▸ honest)]
      exact (hprogress.trans (movedOn_withProject (ahead_advanced _ now))).trans
        (movedOn_withProject (ahead_counted _ _))

theorem syncCut_movedOn (honest : portfolio.faults.Honest) (projectId : String) (attempts : Nat)
    (now : Int) (store : PatternStore) (versions : Nat) :
    portfolio.MovedOn (portfolio.syncCut attempts now projectId store versions) := by
  unfold syncCut
  split
  · exact .refl _
  · simp only
    split
    · exact .refl _
    · split
      · exact .refl _
      · generalize happly : applyVersions _ attempts now _ _ = outcome
        obtain ⟨left, failure⟩ := outcome
        exact applyVersions_movedOn (by exact honest) happly

/-! ## Links -/

/-- The row of a project that is linked for the first time. -/
def firstRow (newId path : String) (metadata : ProjectMetadata) (now : Int) : ProjectRow where
  id := newId
  path
  name := metadata.displayName path
  primaryLanguage := metadata.primaryLanguage
  frameworks := (Json.ofTexts metadata.frameworks).render
  linkedAt := now
  unlinkedAt := none
  lastSyncedVersion := 0
  lastSyncedAt := none
  patternCount := 0
  conceptCount := 0
  isActive := true

/-- The row of a path that is linked again. -/
def linkedAgain (path : String) (metadata : ProjectMetadata) : ProjectRow → ProjectRow :=
  relinked (metadata.displayName path) metadata.primaryLanguage
    (Json.ofTexts metadata.frameworks).render

/-- What a link does to the register: the project at the path is made active, or one is added
where there was none. -/
inductive LinkedAs (portfolio : Portfolio) (newId path : String) (metadata : ProjectMetadata)
    (now : Int) : String → List ProjectRow → Prop where
  | again (row : ProjectRow) (known : portfolio.getProjectByPath? path = some row) :
      LinkedAs portfolio newId path metadata now row.id
        (portfolio.withProject row.id (linkedAgain path metadata)).projects
  | first (unknown : ∀ row ∈ portfolio.projects, row.path ≠ path)
      (fresh : ∀ row ∈ portfolio.projects, row.id ≠ newId) :
      LinkedAs portfolio newId path metadata now newId
        (portfolio.projects ++ [firstRow newId path metadata now])

lemma register_linkedAs {newId path id : String} {metadata : ProjectMetadata} {known : Bool}
    (h : portfolio.register newId path metadata now = .ok (after, id, known))
    (honest : portfolio.faults.Honest) :
    LinkedAs portfolio newId path metadata now id after.projects ∧
      after.occurrences = portfolio.occurrences := by
  simp only [register] at h
  split at h
  · next row hknown =>
    obtain ⟨mid, hrelink, h⟩ := bind_eq_ok.mp h
    obtain ⟨rfl, hid⟩ := Prod.mk.inj (pure_eq_ok.mp h)
    obtain ⟨rfl, -⟩ := Prod.mk.inj hid
    rw [relinkProject_ok hrelink honest]
    exact ⟨.again row hknown, rfl⟩
  · next hunknown =>
    obtain ⟨mid, hinsert, h⟩ := bind_eq_ok.mp h
    obtain ⟨rfl, hid⟩ := Prod.mk.inj (pure_eq_ok.mp h)
    obtain ⟨rfl, -⟩ := Prod.mk.inj hid
    obtain ⟨hfresh, hafter⟩ := insertProject_ok hinsert honest
    rw [hafter]
    exact ⟨.first ((Table.lookup_eq_none ProjectRow.path).mp hunknown) hfresh, rfl⟩

/-- Every project that a link answers with can be opened. -/
lemma LinkedAs.readable {newId path id : String} {metadata : ProjectMetadata}
    {projects : List ProjectRow} {row : ProjectRow}
    (linked : LinkedAs portfolio newId path metadata now id projects) (hrow : row ∈ projects)
    (hid : row.id = id) : row.frameworks = (Json.ofTexts metadata.frameworks).render := by
  cases linked with
  | again old known =>
    obtain ⟨before, -, rfl⟩ := List.mem_map.mp hrow
    split at hid
    · next hown =>
      rw [if_pos hown]
      rfl
    · next hother => exact absurd (beq_iff_eq.mpr hid) hother
  | first unknown fresh =>
    rcases List.mem_append.mp hrow with hold | hnew
    · exact absurd hid (fresh row hold)
    · obtain rfl := List.mem_singleton.mp hnew
      rfl

lemma link_linkedAs {newId path : String} {metadata : ProjectMetadata} {row : ProjectRow}
    {known : Bool} (h : portfolio.link attempts now newId path metadata = .ok (after, row, known))
    (honest : portfolio.faults.Honest) :
    LinkedAs portfolio newId path metadata now row.id after.projects ∧
      after.occurrences = portfolio.occurrences ∧
      ∃ project, Project.ofRow row = .ok project ∧ project.id = row.id := by
  simp only [link, bind_eq_ok] at h
  obtain ⟨⟨mid, id, _⟩, hregister, ⟨left, changed⟩, hrecompute, h⟩ := h
  obtain ⟨linked, hoccurrences⟩ := register_linkedAs hregister honest
  obtain ⟨aggregations, rfl⟩ := recompute_refreshed hrecompute
  split at h
  · next found hfound =>
    obtain ⟨rfl, hrow⟩ := Prod.mk.inj (pure_eq_ok.mp h)
    obtain ⟨rfl, -⟩ := Prod.mk.inj hrow
    obtain ⟨hmem, hid⟩ := Table.mem_of_lookup ProjectRow.id hfound
    refine ⟨hid ▸ linked, hoccurrences, ?_⟩
    have hread : readTexts "project frameworks" found.frameworks = .ok metadata.frameworks := by
      rw [linked.readable hmem hid]
      exact readTexts_render _ _
    exact ⟨_, bind_eq_ok.mpr ⟨_, hread, rfl⟩, rfl⟩
  · cases h

/-! ## Calls -/

end Portfolio

/-- Whether a request is to link or unlink a project. -/
def PortfolioRequest.isTurn : PortfolioRequest → Bool
  | .link .. | .unlink _ => true
  | .setStats .. | .rebase _ | .sync .. | .cutSync .. => false

namespace Portfolio

variable {portfolio after : Portfolio} {call : PortfolioCall}

/-- The project that a call links or unlinks, when it succeeds. A link succeeds when it answers
with a project, and an unlink also when there is nothing left to do. -/
def turn? (portfolio : Portfolio) (call : PortfolioCall) : Option (String × LinkTurn) :=
  let portfolio := portfolio.under call.faults
  match call.request with
  | .link newId path metadata =>
    match portfolio.link call.attempts call.now newId path metadata with
    | .ok (_, row, _) =>
      match Project.ofRow row with
      | .ok project => some (project.id, .linked)
      | .error _ => none
    | .error _ => none
  | .unlink projectId =>
    match portfolio.unlink call.attempts call.now projectId with
    | .ok _ => some (projectId, .unlinked call.now)
    | .error _ => none
  | .setStats .. | .rebase _ | .sync .. | .cutSync .. => none

/-- The turns among those of all projects that are of one. -/
def turnsFor (turns : List (String × LinkTurn)) (id : String) : List LinkTurn :=
  turns.filterMap fun turn => if turn.1 = id then some turn.2 else none

lemma turnsFor_append (turns more : List (String × LinkTurn)) (id : String) :
    turnsFor (turns ++ more) id = turnsFor turns id ++ turnsFor more id :=
  List.filterMap_append

lemma turnsFor_singleton (id k : String) (turn : LinkTurn) :
    turnsFor [(k, turn)] id = if k = id then [turn] else [] := by
  by_cases hk : k = id <;> simp [turnsFor, hk]

/-- What a call does to the row of a project. Only a rebase moves a checkpoint back. -/
structure RowStep (portfolio : Portfolio) (call : PortfolioCall) (row after : ProjectRow) : Prop
    extends row.Same after where
  standing : after.standing =
    (turnsFor (portfolio.turn? call).toList row.id).foldl Standing.turned row.standing
  checkpoint : row.lastSyncedVersion ≤ after.lastSyncedVersion ∨
    call.request = .rebase row.id ∧ after.lastSyncedVersion = 0
  alike : call.request.isTurn = true → row.SyncedAlike after

/-- A project that a call adds. It has a path that none had before. -/
structure Adds (portfolio : Portfolio) (call : PortfolioCall) (row : ProjectRow) : Prop where
  request : ∃ metadata, call.request = .link row.id row.path metadata
  turn : portfolio.turn? call = some (row.id, .linked)
  id : ∀ old ∈ portfolio.projects, old.id ≠ row.id
  path : ∀ old ∈ portfolio.projects, old.path ≠ row.path
  linkedAt : row.linkedAt = call.now
  standing : row.standing = ⟨true, none⟩
  lastSyncedVersion : row.lastSyncedVersion = 0

/-- What a call does to the register. It keeps all rows and adds at most one. -/
structure Changes (portfolio : Portfolio) (call : PortfolioCall) (after : Portfolio) : Prop where
  rows : ∃ (kept : List ProjectRow) (added : Option ProjectRow),
    after.projects = kept ++ added.toList ∧
    List.Forall₂ (portfolio.RowStep call) portfolio.projects kept ∧
    ∀ row ∈ added, portfolio.Adds call row
  occurrences : call.request.isTurn = true → after.occurrences = portfolio.occurrences

/-- A call that adds no project. -/
lemma Changes.of_steps (steps : List.Forall₂ (portfolio.RowStep call) portfolio.projects
    after.projects) (occurrences : call.request.isTurn = true →
      after.occurrences = portfolio.occurrences) : portfolio.Changes call after :=
  ⟨⟨after.projects, none, (List.append_nil _).symm, steps, by simp⟩, occurrences⟩

/-- A call that fails changes no row. -/
lemma changes_of_same (turn : portfolio.turn? call = none)
    (projects : after.projects = portfolio.projects)
    (occurrences : after.occurrences = portfolio.occurrences) : portfolio.Changes call after := by
  refine .of_steps ?_ fun _ => occurrences
  rw [projects, List.forall₂_same]
  intro row _
  exact ⟨.refl row, by rw [turn]; rfl, .inl (le_refl _), fun _ => .refl row⟩

/-- Calls that link and unlink nothing. -/
lemma changes_of_movedOn (other : call.request.isTurn = false) (turn : portfolio.turn? call = none)
    (moved : portfolio.MovedOn after) : portfolio.Changes call after := by
  refine .of_steps (moved.imp fun row after ahead => ?_) ?_
  · refine ⟨ahead.toSame, ?_, .inl ahead.checkpoint, ?_⟩
    · rw [turn]
      exact ahead.standing
    · rw [other]
      exact nofun
  · rw [other]
    exact nofun

/-- The rows after a link or an unlink of one project. -/
lemma rowSteps_turned {id : String} {turn : LinkTurn} {change : ProjectRow → ProjectRow}
    (turned : portfolio.turn? call = some (id, turn))
    (alike : ∀ row, ProjectRow.SyncedAlike row (change row))
    (standing : ∀ row ∈ portfolio.projects, row.id = id →
      (change row).standing = row.standing.turned turn) :
    List.Forall₂ (portfolio.RowStep call) portfolio.projects
      (portfolio.withProject id change).projects := by
  refine projects_withProject (fun row hid => ?_) fun row hrow hid => ?_
  · refine ⟨.refl row, ?_, .inl (le_refl _), fun _ => .refl row⟩
    rw [turned, Option.toList_some, turnsFor_singleton, if_neg (Ne.symm hid)]
    rfl
  · refine ⟨(alike row).toSame, ?_, .inl (alike row).lastSyncedVersion.ge, fun _ => alike row⟩
    rw [turned, Option.toList_some, turnsFor_singleton, if_pos hid.symm, standing row hrow hid]
    rfl

lemma changes_of_link {newId path : String} {metadata : ProjectMetadata} {row : ProjectRow}
    {known : Bool} (request : call.request = .link newId path metadata)
    (h : (portfolio.under call.faults).link call.attempts call.now newId path metadata =
      .ok (after, row, known)) : portfolio.Changes call after := by
  obtain ⟨linked, hoccurrences, project, hproject, hid⟩ := link_linkedAs h call.honest
  have turned : portfolio.turn? call = some (row.id, .linked) := by
    simp only [turn?, request, h, hproject, hid]
  refine ⟨?_, fun _ => hoccurrences⟩
  generalize hid : row.id = id at linked turned
  generalize after.projects = projects at linked
  cases linked with
  | again old hknown =>
    refine ⟨_, none, (List.append_nil _).symm, rowSteps_turned turned ?_ ?_, by simp⟩
    · exact fun row => ⟨⟨rfl, rfl, rfl⟩, rfl, rfl, rfl, rfl⟩
    · exact fun row _ _ => rfl
  | first unknown fresh =>
    refine ⟨portfolio.projects, some (firstRow newId path metadata call.now), rfl, ?_, ?_⟩
    · rw [List.forall₂_same]
      intro old hold
      refine ⟨.refl old, ?_, .inl (le_refl _), fun _ => .refl old⟩
      rw [turned, Option.toList_some, turnsFor_singleton, if_neg (fresh old hold).symm]
      rfl
    · intro added hadded
      obtain rfl := Option.some.inj hadded
      exact ⟨⟨metadata, request⟩, turned, fresh, unknown, rfl, rfl, rfl⟩

/-- An unlink makes an active project inactive and leaves one alone that is inactive already. -/
lemma unlink_standing {changed : Bool}
    (h : portfolio.unlink attempts now projectId = .ok (after, changed))
    (honest : portfolio.faults.Honest) : ∃ row, portfolio.getProject? projectId = some row ∧
      (row.isActive = false ∧ after = portfolio ∨
        row.isActive = true ∧ after.occurrences = portfolio.occurrences ∧
          after.projects = (portfolio.withProject projectId (unlinked now)).projects) := by
  simp only [unlink] at h
  split at h
  · cases h
  · next row hrow =>
    refine ⟨row, hrow, ?_⟩
    split at h
    · next hactive =>
      simp only [mapError_eq_ok, bind_eq_ok, pure_eq_ok] at h
      obtain ⟨⟨mid, deactivated⟩, hdeactivate, ⟨left, count⟩, hrecompute, h⟩ := h
      obtain ⟨rfl, -⟩ := Prod.mk.inj h
      obtain rfl := updateProject_ok hdeactivate honest
      obtain ⟨aggregations, rfl⟩ := recompute_refreshed hrecompute
      exact .inr ⟨hactive, rfl, rfl⟩
    · next hinactive =>
      obtain ⟨rfl, -⟩ := Prod.mk.inj (Except.ok.inj h)
      exact .inl ⟨Bool.eq_false_iff.mpr hinactive, rfl⟩

lemma changes_of_unlink {changed : Bool} (ids : (portfolio.projects.map (·.id)).Nodup)
    (request : call.request = .unlink projectId)
    (h : (portfolio.under call.faults).unlink call.attempts call.now projectId =
      .ok (after, changed)) : portfolio.Changes call after := by
  have turned : portfolio.turn? call = some (projectId, .unlinked call.now) := by
    simp only [turn?, request, h]
  obtain ⟨row, hrow, hcases⟩ := unlink_standing h call.honest
  obtain ⟨hmem, hid⟩ := Table.mem_of_lookup ProjectRow.id hrow
  have hown : ∀ old ∈ portfolio.projects, old.id = projectId → old = row := fun old hold holdId =>
    List.inj_on_of_nodup_map ids hold hmem (holdId.trans hid.symm)
  rcases hcases with ⟨hinactive, rfl⟩ | ⟨hactive, hoccurrences, hprojects⟩
  · -- the row of an inactive project is what unlinking would make of it
    have hsteps : List.Forall₂ (portfolio.RowStep call) portfolio.projects
        (portfolio.withProject projectId id).projects := by
      refine rowSteps_turned turned (fun row => .refl row) fun old hold holdId => ?_
      obtain rfl := hown old hold holdId
      simp [ProjectRow.standing, Standing.turned, hinactive]
    have hsame : (portfolio.withProject projectId id).projects = portfolio.projects := by
      simp [withProject]
    rw [hsame] at hsteps
    exact .of_steps hsteps fun _ => rfl
  · refine .of_steps ?_ fun _ => hoccurrences
    rw [hprojects]
    refine rowSteps_turned turned ?_ fun old hold holdId => rfl
    exact fun row => ⟨⟨rfl, rfl, rfl⟩, rfl, rfl, rfl, rfl⟩

lemma changes_of_setStats {patterns concepts : Nat}
    (request : call.request = .setStats projectId patterns concepts)
    (h : (portfolio.under call.faults).setStats projectId patterns concepts = .ok after) :
    portfolio.Changes call after := by
  obtain ⟨patterns', concepts', rfl⟩ := setStats_cases h call.honest
  exact changes_of_movedOn (by rw [request]; rfl) (by simp only [turn?, request])
    (movedOn_withProject (ahead_counted _ _))

lemma rebase_projects {count : Nat}
    (h : portfolio.rebase attempts now projectId = .ok (after, count))
    (honest : portfolio.faults.Honest) :
    after.projects = (portfolio.withProject projectId (restarted now)).projects := by
  obtain ⟨-, renewals, mid, -, -, renewed, rfl⟩ := rebase_renewed h honest
  obtain ⟨aggregations, rfl⟩ := renewed.refreshed
  rfl

lemma changes_of_rebase {count : Nat} (request : call.request = .rebase projectId)
    (h : (portfolio.under call.faults).rebase call.attempts call.now projectId =
      .ok (after, count)) : portfolio.Changes call after := by
  have turn : portfolio.turn? call = none := by simp only [turn?, request]
  have other : call.request.isTurn ≠ true := by
    rw [request]
    exact nofun
  refine .of_steps ?_ fun hturn => absurd hturn other
  rw [rebase_projects h call.honest]
  refine projects_withProject (fun row _ => ⟨.refl row, ?_, .inl (le_refl _), fun _ => .refl row⟩)
    fun row _ hid => ⟨⟨rfl, rfl, rfl⟩, ?_, .inr ⟨hid ▸ request, rfl⟩, fun hturn =>
      absurd hturn other⟩
  all_goals
    rw [turn]
    rfl

/-- What any call does to the register, whether it succeeds or not. -/
theorem perform_changes (ids : (portfolio.projects.map (·.id)).Nodup) (call : PortfolioCall) :
    portfolio.Changes call (portfolio.perform call) := by
  unfold perform
  cases hrequest : call.request with
  | link newId path metadata =>
    dsimp only
    cases hlink : (portfolio.under call.faults).link call.attempts call.now newId path metadata with
    | error error =>
      exact changes_of_same (by simp only [turn?, hrequest, hlink]) rfl rfl
    | ok result => exact changes_of_link hrequest hlink
  | unlink projectId =>
    dsimp only
    cases hunlink : (portfolio.under call.faults).unlink call.attempts call.now projectId with
    | error error =>
      exact changes_of_same (by simp only [turn?, hrequest, hunlink]) rfl rfl
    | ok result => exact changes_of_unlink ids hrequest hunlink
  | setStats projectId patterns concepts =>
    dsimp only
    cases hstats : (portfolio.under call.faults).setStats projectId patterns concepts with
    | error error => exact changes_of_same (by simp only [turn?, hrequest]) rfl rfl
    | ok after => exact changes_of_setStats hrequest hstats
  | rebase projectId =>
    dsimp only
    cases hrebase : (portfolio.under call.faults).rebase call.attempts call.now projectId with
    | error error => exact changes_of_same (by simp only [turn?, hrequest]) rfl rfl
    | ok result => exact changes_of_rebase hrequest hrebase
  | sync projectId store =>
    have moved : (portfolio.under call.faults).MovedOn _ :=
      sync_movedOn call.honest projectId call.attempts call.now store
    exact changes_of_movedOn (by rw [hrequest]; rfl) (by simp only [turn?, hrequest]) moved
  | cutSync projectId store versions =>
    have moved : (portfolio.under call.faults).MovedOn _ :=
      syncCut_movedOn call.honest projectId call.attempts call.now store versions
    exact changes_of_movedOn (by rw [hrequest]; rfl) (by simp only [turn?, hrequest]) moved

/-- A rebase that succeeds moves the checkpoint of its project to 0. -/
lemma perform_rebased {result : Portfolio × Nat} (request : call.request = .rebase projectId)
    (h : (portfolio.under call.faults).rebase call.attempts call.now projectId = .ok result) :
    ∀ row ∈ (portfolio.perform call).projects, row.id = projectId → row.lastSyncedVersion = 0 := by
  obtain ⟨after, count⟩ := result
  have hafter : portfolio.perform call = after := by
    simp only [perform, request, h]
    rfl
  rw [hafter, rebase_projects h call.honest]
  intro row hrow hid
  obtain ⟨before, -, rfl⟩ := List.mem_map.mp hrow
  split at hid
  · next hown =>
    rw [if_pos hown]
    rfl
  · next hother => exact absurd (beq_iff_eq.mpr hid) hother

/-! ## Runs -/

/-- The register after some links and unlinks that succeeded: each project is there once, at a
path of its own, and stands as its links and unlinks say. -/
structure InOrder (turns : List (String × LinkTurn)) (portfolio : Portfolio) : Prop where
  ids : (portfolio.projects.map (·.id)).Nodup
  paths : (portfolio.projects.map (·.path)).Nodup
  follows : ∀ row ∈ portfolio.projects, row.standing.Follows (turnsFor turns row.id)

lemma inOrder_empty : InOrder [] empty :=
  ⟨List.nodup_nil, List.nodup_nil, by simp [empty]⟩

theorem InOrder.changed {turns : List (String × LinkTurn)} (order : InOrder turns portfolio)
    (changes : portfolio.Changes call after) :
    InOrder (turns ++ (portfolio.turn? call).toList) after := by
  obtain ⟨kept, added, hprojects, steps, adds⟩ := changes.rows
  have hkept : ∀ row ∈ kept,
      row.standing.Follows (turnsFor (turns ++ (portfolio.turn? call).toList) row.id) := by
    intro row hrow
    obtain ⟨old, hold, step⟩ := exists_left steps hrow
    rw [turnsFor_append, step.id, step.standing]
    exact (order.follows old hold).turnedAll _
  have hids : kept.map (·.id) = portfolio.projects.map (·.id) :=
    (map_eq_map steps fun _ _ step => step.id.symm).symm
  have hpaths : kept.map (·.path) = portfolio.projects.map (·.path) :=
    (map_eq_map steps fun _ _ step => step.path.symm).symm
  cases added with
  | none =>
    rw [Option.toList_none, List.append_nil] at hprojects
    rw [← hprojects] at hkept hids hpaths
    exact ⟨hids ▸ order.ids, hpaths ▸ order.paths, hkept⟩
  | some row =>
    have add := adds row rfl
    rw [Option.toList_some] at hprojects
    refine ⟨?_, ?_, ?_⟩
    · rw [hprojects]
      refine Table.nodup_concat (hids ▸ order.ids) fun old hold => ?_
      obtain ⟨before, hbefore, step⟩ := exists_left steps hold
      rw [step.id]
      exact add.id before hbefore
    · rw [hprojects]
      refine Table.nodup_concat (hpaths ▸ order.paths) fun old hold => ?_
      obtain ⟨before, hbefore, step⟩ := exists_left steps hold
      rw [step.path]
      exact add.path before hbefore
    · intro found hfound
      rw [hprojects, List.mem_append, List.mem_singleton] at hfound
      rcases hfound with hold | rfl
      · exact hkept found hold
      · rw [turnsFor_append, add.turn, Option.toList_some, turnsFor_singleton, if_pos rfl,
          add.standing]
        exact .linked _

/-- The links and unlinks of a run that succeeded, in their order. -/
def turns (portfolio : Portfolio) : List PortfolioCall → List (String × LinkTurn)
  | [] => []
  | call :: calls => (portfolio.turn? call).toList ++ (portfolio.perform call).turns calls

theorem InOrder.run {before : List (String × LinkTurn)} (order : InOrder before portfolio)
    (calls : List PortfolioCall) :
    InOrder (before ++ portfolio.turns calls) (portfolio.run calls) := by
  induction calls generalizing before portfolio with
  | nil =>
    rw [turns, List.append_nil]
    exact order
  | cons call calls ih =>
    rw [turns, ← List.append_assoc]
    exact ih (order.changed (perform_changes order.ids call))

/-- A project that is registered stays registered, as the same project. -/
lemma InOrder.kept {turns : List (String × LinkTurn)} (order : InOrder turns portfolio)
    (calls : List PortfolioCall) {row : ProjectRow} (hrow : row ∈ portfolio.projects) :
    ∃ left ∈ (portfolio.run calls).projects, row.Same left := by
  induction calls generalizing turns portfolio row with
  | nil => exact ⟨row, hrow, .refl row⟩
  | cons call calls ih =>
    have changes := perform_changes order.ids call
    obtain ⟨kept, added, hprojects, steps, -⟩ := changes.rows
    obtain ⟨next, hnext, step⟩ := exists_right steps hrow
    have hmem : next ∈ (portfolio.perform call).projects := by
      rw [hprojects]
      exact List.mem_append_left _ hnext
    obtain ⟨left, hleft, same⟩ := ih (order.changed changes) hmem
    exact ⟨left, hleft, step.toSame.trans same⟩

/-- The register as a state machine. After any calls every project is registered once, at a path
of its own, and is active or dated as the links and unlinks say that succeeded. What a further
call does to each row is what `Changes` allows: only links and unlinks change how a project
stands, and they touch nothing else but its description; checkpoints go back in a rebase alone,
which moves them to 0. Whatever calls follow, the project keeps its id, path and age. -/
theorem run_registered (calls : List PortfolioCall) :
    InOrder (empty.turns calls) (empty.run calls) ∧
    (∀ call, (empty.run calls).Changes call ((empty.run calls).perform call)) ∧
    (∀ call projectId result, call.request = .rebase projectId →
      ((empty.run calls).under call.faults).rebase call.attempts call.now projectId = .ok result →
      ∀ row ∈ ((empty.run calls).perform call).projects, row.id = projectId →
        row.lastSyncedVersion = 0) ∧
    ∀ later, ∀ row ∈ (empty.run calls).projects,
      ∃ left ∈ (empty.run (calls ++ later)).projects, row.Same left := by
  have order : InOrder (empty.turns calls) (empty.run calls) := inOrder_empty.run calls
  refine ⟨order, perform_changes order.ids, ?_, fun later row hrow => ?_⟩
  · intro call projectId result request h
    exact perform_rebased request h
  · rw [run, List.foldl_append]
    exact order.kept later hrow

/-! A project that is unlinked twice and then rebased. -/

def sampleLife : List PortfolioCall :=
  [.link "a" "/p" .unset, .unlink "a", .unlink "a"].zipWith
    (fun request now => ⟨request, 3, now, .none, Faults.honest_none⟩) [1, 5, 9]

def sampleRebase : PortfolioCall := ⟨.rebase "a", 3, 12, .none, Faults.honest_none⟩

lemma sampleLife_rows : (empty.run sampleLife).projects.map (fun row => (row.id, row.standing)) =
    [("a", ⟨false, some 5⟩)] := by
  decide +kernel

lemma sampleLife_rebased : ∃ result,
    ((empty.run sampleLife).under .none).rebase 3 12 "a" = .ok result := by
  apply exists_ok
  decide +kernel

theorem sampleLife_registered :
    (∃ row ∈ (empty.run sampleLife).projects, row.standing = ⟨false, some 5⟩ ∧
      row.standing.Follows (turnsFor (empty.turns sampleLife) row.id)) ∧
    ∀ row ∈ ((empty.run sampleLife).perform sampleRebase).projects, row.id = "a" →
      row.lastSyncedVersion = 0 := by
  obtain ⟨order, -, rebased, -⟩ := run_registered sampleLife
  constructor
  · have hpair : ("a", Standing.mk false (some 5)) ∈
        (empty.run sampleLife).projects.map fun row => (row.id, row.standing) := by
      rw [sampleLife_rows]
      exact List.mem_singleton.mpr rfl
    obtain ⟨row, hrow, hstanding⟩ := List.mem_map.mp hpair
    exact ⟨row, hrow, (Prod.mk.inj hstanding).2, order.follows row hrow⟩
  · obtain ⟨result, hresult⟩ := sampleLife_rebased
    exact rebased sampleRebase "a" result rfl hresult

end Portfolio

end HouseStyle
