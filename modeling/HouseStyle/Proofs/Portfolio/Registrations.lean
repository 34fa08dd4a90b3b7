import HouseStyle.Proofs.Portfolio.Sync

/-!
# What the register says of projects

A project is registered under an id, at a path, and is active or not. Syncs and whatever is done
to aggregations leave that alone. Linking a path activates the one project at that path or adds a
project, and unlinking deactivates one.
-/

namespace HouseStyle

/-- What only linking and unlinking change of a project. -/
structure Registration where
  id : String
  path : String
  frameworks : String
  isActive : Bool
  deriving DecidableEq, Repr

def ProjectRow.registration (row : ProjectRow) : Registration :=
  ⟨row.id, row.path, row.frameworks, row.isActive⟩

namespace Registration

/-- Whether the frameworks can be read, without which a project is not opened. -/
def IsReadable (registration : Registration) : Prop :=
  ∃ names, readTexts "project frameworks" registration.frameworks = .ok names

def activated (frameworks : String) (registration : Registration) : Registration :=
  { registration with frameworks, isActive := true }

def deactivated (registration : Registration) : Registration :=
  { registration with isActive := false }

end Registration

/-- A project is decoded when its frameworks are. -/
lemma Project.ofRow_isOk {row : ProjectRow} :
    (∃ project, Project.ofRow row = .ok project) ↔ row.registration.IsReadable := by
  constructor
  · rintro ⟨project, h⟩
    obtain ⟨names, hnames, -⟩ := bind_eq_ok.mp h
    exact ⟨names, hnames⟩
  · rintro ⟨names, hnames⟩
    exact ⟨_, bind_eq_ok.mpr ⟨names, hnames, rfl⟩⟩

lemma Project.ofRow_ok {row : ProjectRow} {project : Project}
    (h : Project.ofRow row = .ok project) :
    project.path = row.path ∧ project.isActive = row.isActive := by
  obtain ⟨names, -, h⟩ := bind_eq_ok.mp h
  obtain rfl := pure_eq_ok.mp h
  exact ⟨rfl, rfl⟩

namespace Portfolio

variable {portfolio after : Portfolio} {projectId id path : String} {attempts : Nat} {now : Int}

def registrations (portfolio : Portfolio) : List Registration :=
  portfolio.projects.map (·.registration)

lemma ids_registrations (portfolio : Portfolio) :
    portfolio.registrations.map (·.id) = portfolio.projects.map (·.id) := by
  rw [registrations, List.map_map]
  rfl

/-- A registered project is found under its id, when the ids are all different. -/
lemma getProject?_of_registration (distinct : (portfolio.registrations.map (·.id)).Nodup)
    {registration : Registration} (h : registration ∈ portfolio.registrations) :
    ∃ row, portfolio.getProject? registration.id = some row ∧
      row.registration = registration := by
  obtain ⟨row, hrow, rfl⟩ := List.mem_map.mp h
  rw [ids_registrations] at distinct
  exact ⟨row, Table.lookup_of_mem ProjectRow.id distinct hrow, rfl⟩

lemma registration_of_getProject? {row : ProjectRow} (h : portfolio.getProject? id = some row) :
    row.registration ∈ portfolio.registrations ∧ row.registration.id = id := by
  obtain ⟨hrow, hid⟩ := Table.mem_of_lookup ProjectRow.id h
  exact ⟨List.mem_map_of_mem hrow, hid⟩

/-- Registrations with that of one project changed. -/
def changedAt (id : String) (change : Registration → Registration)
    (registrations : List Registration) : List Registration :=
  registrations.map fun r => if r.id == id then change r else r

lemma registrations_changed {change : ProjectRow → ProjectRow}
    {changed : Registration → Registration}
    (hchange : ∀ row, (change row).registration = changed row.registration) :
    (portfolio.withProject id change).registrations =
      changedAt id changed portfolio.registrations := by
  simp only [registrations, withProject, changedAt, List.map_map]
  apply List.map_congr_left
  intro row _
  simp only [Function.comp_apply, show row.registration.id = row.id from rfl]
  split
  · exact hchange row
  · rfl

lemma registrations_withProject {change : ProjectRow → ProjectRow}
    (hchange : ∀ row, (change row).registration = row.registration) :
    (portfolio.withProject id change).registrations = portfolio.registrations := by
  rw [@registrations_changed portfolio id change (fun r => r) hchange]
  simp [changedAt]

lemma Refreshed.registrations (refreshed : portfolio.Refreshed after) :
    after.registrations = portfolio.registrations := by
  obtain ⟨_, rfl⟩ := refreshed
  rfl

lemma Refreshed.faults (refreshed : portfolio.Refreshed after) :
    after.faults = portfolio.faults := by
  obtain ⟨_, rfl⟩ := refreshed
  rfl

/-! ## Syncs -/

lemma registrations_advanced (version : Int) :
    (portfolio.withProject id (advanced version now)).registrations = portfolio.registrations :=
  registrations_withProject fun _ => rfl

lemma registrations_counted (patterns concepts : Int) :
    (portfolio.withProject id (counted patterns concepts)).registrations =
      portfolio.registrations :=
  registrations_withProject fun _ => rfl

lemma applyVersions_registrations {progress left : SyncProgress} {groups : List VersionChanges}
    {failure : Option StorageError} (honest : progress.portfolio.faults.Honest)
    (h : applyVersions projectId attempts now progress groups = (left, failure)) :
    left.portfolio.registrations = progress.portfolio.registrations := by
  induction groups generalizing progress with
  | nil =>
    obtain ⟨rfl, -⟩ := Prod.mk.inj h
    rfl
  | cons group groups ih =>
    rw [applyVersions] at h
    cases hfirst : progress.portfolio.applyVersion projectId attempts now group with
    | error error =>
      rw [hfirst] at h
      obtain ⟨rfl, -⟩ := Prod.mk.inj h
      rfl
    | ok result =>
      obtain ⟨mid, counts⟩ := result
      rw [hfirst] at h
      obtain ⟨aggregations, rfl⟩ := applyVersion_ok hfirst honest
      exact (ih (by exact honest) h).trans (registrations_advanced _)

/-- A sync leaves the registrations alone, wherever it breaks off. -/
theorem sync_registrations (honest : portfolio.faults.Honest) (projectId : String)
    (attempts : Nat) (now : Int) (store : PatternStore) :
    (portfolio.sync attempts now projectId store).portfolio.registrations =
      portfolio.registrations := by
  rcases portfolio.sync_cases attempts now projectId store with ⟨hsame, -⟩ |
    ⟨project, groups, progress, failure, -, -, -, happly, hcases⟩
  · rw [hsame]
  · have hprogress : progress.portfolio.registrations = portfolio.registrations :=
      applyVersions_registrations honest happly
    have moved : portfolio.Moved project.id progress.portfolio :=
      applyVersions_moved honest happly
    rcases hcases with ⟨hleft, -⟩ | ⟨-, left, hclose, hleft, -⟩
    · rw [hleft, hprogress]
    · rw [hleft, closeSync_ok hclose (moved.faults ▸ honest),
        registrations_counted, registrations_advanced, hprogress]

/-! ## Linking -/

lemma registrations_relinked (name : String) (language : Option String) (frameworks : String) :
    (portfolio.withProject id (relinked name language frameworks)).registrations =
      changedAt id (·.activated frameworks) portfolio.registrations :=
  registrations_changed (by exact fun _ => rfl)

/-- What linking a path makes of the registrations. -/
inductive Admitted (path : String) (before : List Registration) : List Registration → Prop where
  | again (own : Registration) (known : own ∈ before) (here : own.path = path)
      (frameworks : String) :
      Admitted path before (changedAt own.id (·.activated frameworks) before)
  | new (added : Registration) (fresh : ∀ r ∈ before, r.id ≠ added.id) :
      Admitted path before (before ++ [added])

lemma register_admitted {newId : String} {metadata : ProjectMetadata} {known : Bool}
    (h : portfolio.register newId path metadata now = .ok (after, id, known))
    (honest : portfolio.faults.Honest) :
    Admitted path portfolio.registrations after.registrations ∧
      after.faults = portfolio.faults := by
  simp only [register] at h
  split at h
  · next row hrow =>
    obtain ⟨mid, hrelink, h⟩ := bind_eq_ok.mp h
    obtain ⟨rfl, -⟩ := Prod.mk.inj (pure_eq_ok.mp h)
    obtain rfl := relinkProject_ok hrelink honest
    have hpath : row.path = path := by simpa using List.find?_some hrow
    rw [registrations_relinked]
    exact ⟨.again row.registration (List.mem_map_of_mem (List.mem_of_find?_eq_some hrow)) hpath _,
      rfl⟩
  · obtain ⟨mid, hinsert, h⟩ := bind_eq_ok.mp h
    obtain ⟨rfl, -⟩ := Prod.mk.inj (pure_eq_ok.mp h)
    obtain ⟨hnew, rfl⟩ := insertProject_ok hinsert honest
    refine ⟨?_, rfl⟩
    simp only [registrations, List.map_append, List.map_singleton]
    refine .new _ fun r hr => ?_
    obtain ⟨row, hrow, rfl⟩ := List.mem_map.mp hr
    exact hnew row hrow

lemma link_admitted {newId : String} {metadata : ProjectMetadata} {row : ProjectRow}
    {known : Bool}
    (h : portfolio.link attempts now newId path metadata = .ok (after, row, known))
    (honest : portfolio.faults.Honest) :
    Admitted path portfolio.registrations after.registrations ∧
      after.faults = portfolio.faults := by
  obtain ⟨mid, id, changed, hregister, hrecompute⟩ := link_cases h
  have refreshed := recompute_refreshed hrecompute
  obtain ⟨admitted, hfaults⟩ := register_admitted hregister honest
  rw [refreshed.registrations, refreshed.faults]
  exact ⟨admitted, hfaults⟩

/-! ## Unlinking -/

/-- Unlinking deactivates a project that is known, also when it was inactive before. -/
lemma unlink_registrations {wasActive : Bool}
    (h : portfolio.unlink attempts now id = .ok (after, wasActive))
    (honest : portfolio.faults.Honest) (distinct : (portfolio.registrations.map (·.id)).Nodup) :
    (∃ own ∈ portfolio.registrations, own.id = id) ∧
      after.registrations = changedAt id (·.deactivated) portfolio.registrations ∧
      after.faults = portfolio.faults := by
  simp only [unlink] at h
  split at h
  · cases h
  · next row hrow =>
    have hown := registration_of_getProject? hrow
    refine ⟨⟨_, hown⟩, ?_⟩
    split at h
    · simp only [mapError_eq_ok, bind_eq_ok, pure_eq_ok] at h
      obtain ⟨⟨mid, deactivated⟩, hdeactivate, ⟨left, count⟩, hrecompute, h⟩ := h
      obtain ⟨rfl, -⟩ := Prod.mk.inj h
      obtain rfl := updateProject_ok hdeactivate honest
      have refreshed := recompute_refreshed hrecompute
      rw [refreshed.registrations, refreshed.faults]
      exact ⟨registrations_changed fun _ => rfl, rfl⟩
    · next hinactive =>
      obtain ⟨rfl, -⟩ := Prod.mk.inj (Except.ok.inj h)
      refine ⟨?_, rfl⟩
      -- the registration that would be deactivated is inactive already
      have hsame : ∀ r ∈ portfolio.registrations,
          (if r.id == id then r.deactivated else r) = r := by
        intro r hr
        split
        · next hid =>
          obtain rfl := List.inj_on_of_nodup_map distinct hown.1 hr
            (hown.2.trans (beq_iff_eq.mp hid).symm)
          simp only [Registration.deactivated, ProjectRow.registration] at hinactive ⊢
          rw [Bool.eq_false_iff.mpr hinactive]
        · rfl
      rw [changedAt, List.map_congr_left hsame, List.map_id']

/-! ## Active and unlinked projects -/

def IsLinked (portfolio : Portfolio) (id : String) : Prop :=
  ∃ r ∈ portfolio.registrations, r.id = id ∧ r.isActive = true

/-- A project at a path is registered and can be read, but it is not active. -/
def IsUnlinked (portfolio : Portfolio) (id path : String) : Prop :=
  ∃ r ∈ portfolio.registrations, r.id = id ∧ r.path = path ∧ r.isActive = false ∧ r.IsReadable

lemma findProject_ok {project : Project} (h : portfolio.findProject id = .ok (some project)) :
    ∃ row, portfolio.getProject? id = some row ∧ Project.ofRow row = .ok project := by
  rw [findProject, mapError_eq_ok] at h
  cases hrow : portfolio.getProject? id with
  | none =>
    rw [hrow] at h
    cases h
  | some row =>
    rw [hrow] at h
    obtain ⟨found, hfound, h⟩ := bind_eq_ok.mp h
    obtain rfl := Option.some.inj (pure_eq_ok.mp h)
    exact ⟨row, rfl, hfound⟩

lemma findProject_linked {project : Project}
    (h : portfolio.findProject id = .ok (some project)) (active : project.isActive = true) :
    portfolio.IsLinked id := by
  obtain ⟨row, hrow, hproject⟩ := findProject_ok h
  obtain ⟨hmem, hid⟩ := registration_of_getProject? hrow
  exact ⟨_, hmem, hid, (Project.ofRow_ok hproject).2.symm.trans active⟩

lemma activeProject_linked {row : ProjectRow} (h : portfolio.activeProject id = .ok row) :
    portfolio.IsLinked row.id := by
  obtain ⟨hmem, -⟩ := registration_of_getProject? (activeProject_ok h)
  refine ⟨_, hmem, rfl, ?_⟩
  rw [activeProject, activeProject_ok h] at h
  simp only at h
  split at h
  · assumption
  · cases h

/-- An unlinked project is found, as one that is not active. -/
lemma findProject_unlinked (distinct : (portfolio.registrations.map (·.id)).Nodup)
    (unlinked : portfolio.IsUnlinked id path) :
    ∃ project, portfolio.findProject id = .ok (some project) ∧ project.isActive = false := by
  obtain ⟨r, hr, rfl, -, hinactive, hreadable⟩ := unlinked
  obtain ⟨row, hrow, rfl⟩ := getProject?_of_registration distinct hr
  obtain ⟨project, hproject⟩ := Project.ofRow_isOk.mpr hreadable
  refine ⟨project, ?_, (Project.ofRow_ok hproject).2.trans hinactive⟩
  rw [findProject, hrow, mapError_eq_ok]
  exact bind_eq_ok.mpr ⟨project, hproject, rfl⟩

lemma IsUnlinked.not_linked (unlinked : portfolio.IsUnlinked id path)
    (distinct : (portfolio.registrations.map (·.id)).Nodup) : ¬ portfolio.IsLinked id := by
  rintro ⟨s, hs, hsid, hactive⟩
  obtain ⟨r, hr, hrid, -, hinactive, -⟩ := unlinked
  obtain rfl := List.inj_on_of_nodup_map distinct hr hs (hrid.trans hsid.symm)
  exact absurd (hinactive.symm.trans hactive) nofun

/-- A registration that is not changed stays. -/
lemma mem_changedAt {registrations : List Registration} {change : Registration → Registration}
    {r : Registration} (hr : r ∈ registrations) (hid : r.id ≠ id) :
    r ∈ changedAt id change registrations :=
  List.mem_map.mpr ⟨r, hr, if_neg (by simpa using hid)⟩

lemma ids_changedAt {registrations : List Registration} {change : Registration → Registration}
    (hchange : ∀ r, (change r).id = r.id) :
    (changedAt id change registrations).map (·.id) = registrations.map (·.id) :=
  Table.map_key_changed Registration.id (fun r hr => (hchange r).trans hr) _

lemma Admitted.distinct (admitted : Admitted path portfolio.registrations after.registrations)
    (distinct : (portfolio.registrations.map (·.id)).Nodup) :
    (after.registrations.map (·.id)).Nodup := by
  generalize after.registrations = left at admitted ⊢
  cases admitted with
  | again own known here frameworks =>
    rw [ids_changedAt (by exact fun _ => rfl)]
    exact distinct
  | new added fresh => exact Table.nodup_concat distinct fresh

/-- Linking keeps what is active. -/
lemma Admitted.linked (admitted : Admitted path portfolio.registrations after.registrations)
    (linked : portfolio.IsLinked id) : after.IsLinked id := by
  obtain ⟨r, hr, hid, hactive⟩ := linked
  rw [IsLinked]
  generalize after.registrations = left at admitted ⊢
  cases admitted with
  | again own known here frameworks =>
    by_cases hown : r.id = own.id
    · exact ⟨r.activated frameworks, List.mem_map.mpr ⟨r, hr, if_pos (by simpa using hown)⟩, hid,
        rfl⟩
    · exact ⟨r, mem_changedAt hr hown, hid, hactive⟩
  | new added fresh => exact ⟨r, List.mem_append_left _ hr, hid, hactive⟩

/-- Linking another path keeps a project unlinked. -/
lemma Admitted.unlinked {other : String}
    (admitted : Admitted other portfolio.registrations after.registrations)
    (distinct : (portfolio.registrations.map (·.id)).Nodup)
    (unlinked : portfolio.IsUnlinked id path) (hpath : other ≠ path) :
    after.IsUnlinked id path := by
  obtain ⟨r, hr, hid, hat, rest⟩ := unlinked
  rw [IsUnlinked]
  generalize after.registrations = left at admitted ⊢
  cases admitted with
  | again own known here frameworks =>
    have hown : r.id ≠ own.id := by
      intro heq
      obtain rfl := List.inj_on_of_nodup_map distinct hr known heq
      exact hpath (here.symm.trans hat)
    exact ⟨r, mem_changedAt hr hown, hid, hat, rest⟩
  | new added fresh => exact ⟨r, List.mem_append_left _ hr, hid, hat, rest⟩

/-! Unlinking one project. -/

section Unlinking

variable (hleft : after.registrations = changedAt projectId (·.deactivated) portfolio.registrations)

include hleft

/-- The other projects stay active. -/
lemma IsLinked.unlinking (linked : portfolio.IsLinked id) (hother : id ≠ projectId) :
    after.IsLinked id := by
  obtain ⟨r, hr, rfl, hactive⟩ := linked
  exact ⟨r, hleft ▸ mem_changedAt hr hother, rfl, hactive⟩

lemma IsUnlinked.unlinking (unlinked : portfolio.IsUnlinked id path) :
    after.IsUnlinked id path := by
  obtain ⟨r, hr, hid, hat, hinactive, hreadable⟩ := unlinked
  by_cases hown : r.id = projectId
  · exact ⟨r.deactivated, hleft ▸ List.mem_map.mpr ⟨r, hr, if_pos (by simpa using hown)⟩, hid, hat,
      rfl, hreadable⟩
  · exact ⟨r, hleft ▸ mem_changedAt hr hown, hid, hat, hinactive, hreadable⟩

lemma isUnlinked_of_unlinking {project : Project}
    (h : after.findProject projectId = .ok (some project)) :
    after.IsUnlinked projectId project.path := by
  obtain ⟨row, hrow, hproject⟩ := findProject_ok h
  obtain ⟨hmem, hid⟩ := registration_of_getProject? hrow
  refine ⟨_, hmem, hid, (Project.ofRow_ok hproject).1.symm, ?_,
    Project.ofRow_isOk.mp ⟨_, hproject⟩⟩
  rw [hleft] at hmem
  obtain ⟨r, -, hr⟩ := List.mem_map.mp hmem
  split at hr
  · rw [← hr]
    rfl
  · next hne =>
    rw [hr] at hne
    exact absurd (beq_iff_eq.mpr hid) hne

end Unlinking

end Portfolio

end HouseStyle
