import HouseStyle.Proofs.Portfolio.Races
import HouseStyle.Proofs.Store.Evidence

/-!
# Lost races among other writes

A rebase and the changes of a version refresh several signatures, and linking and unlinking bring
every consensus up to date. No other write looks at races. So as long as attempts are left all of
them go as they would without races, and when none is left for one signature, what comes after it
does not happen.
-/

namespace HouseStyle

variable {ε α β : Type}

namespace Portfolio

variable {portfolio after : Portfolio} {races : List (String × Nat)} {signature : String}
  {attempts : Nat} {now : Int}

/-! ## Writes that do not look at races -/

/-- What follows a step that goes as it does without races. -/
lemma bind_relabelled {γ δ γ' δ' : Type} {f : γ → γ'} {g : δ → δ'} {raced : Except ε γ'}
    {free : Except ε γ} {next : γ' → Except ε δ'} {next' : γ → Except ε δ}
    (same : raced = f <$> free) (h : ∀ c, free = .ok c → next (f c) = g <$> next' c) :
    raced >>= next = g <$> (free >>= next') := by
  rw [same]
  cases free with
  | error error => rfl
  | ok c => exact h c rfl

lemma relabelled_ok {raced free : Except ε (Portfolio × α)} {a : α}
    (same : raced = relabel races <$> free) (h : free = .ok (after, a)) :
    raced = .ok (after.withRaces races, a) := by
  rw [same, h]
  rfl

lemma bind_congr_ok {x : Except ε α} {f g : α → Except ε β} (h : ∀ a, x = .ok a → f a = g a) :
    x >>= f = x >>= g := by
  cases x with
  | error error => rfl
  | ok a => exact h a rfl

/-- A step that goes as it does without races leaves none where there were none. -/
lemma Calm.step (calm : portfolio.Calm) (f : Portfolio → Except ε (Portfolio × α)) {a : α}
    (same : f portfolio.calm = relabel [] <$> f portfolio) (h : f portfolio = .ok (after, a)) :
    after.Calm := by
  rw [calm, h] at same
  exact (congrArg Prod.fst (Except.ok.inj same)).symm

lemma Refreshed.calm (refreshed : portfolio.Refreshed after) (calm : portfolio.Calm) :
    after.Calm := by
  obtain ⟨aggregations, rfl⟩ := refreshed
  exact congrArg (fun p : Portfolio => { p with aggregations }) calm

lemma updateProject_withRaces (portfolio : Portfolio) (id : String)
    (change : ProjectRow → ProjectRow) :
    (portfolio.withRaces races).updateProject id change =
      relabel races <$> portfolio.updateProject id change := by
  simp only [updateProject, map_bind, map_pure]
  rfl

lemma updateProject_calm {id : String} {change : ProjectRow → ProjectRow} {changed : Bool}
    (calm : portfolio.Calm) (h : portfolio.updateProject id change = .ok (after, changed)) :
    after.Calm :=
  calm.step (updateProject · id change) (updateProject_withRaces portfolio id change) h

/-- The same where it is not asked whether there was a row to change. -/
lemma changeProject_withRaces (portfolio : Portfolio) (id : String)
    (change : ProjectRow → ProjectRow) :
    (do return (← (portfolio.withRaces races).updateProject id change).1) =
      (withRaces · races) <$> (do return (← portfolio.updateProject id change).1) := by
  simp only [updateProject_withRaces, map_bind, map_pure, bind_map_left]
  rfl

lemma relinkProject_withRaces (portfolio : Portfolio) (id name : String)
    (language : Option String) (frameworks : String) :
    (portfolio.withRaces races).relinkProject id name language frameworks =
      (withRaces · races) <$> portfolio.relinkProject id name language frameworks :=
  portfolio.changeProject_withRaces id _

lemma advanceCheckpoint_withRaces (portfolio : Portfolio) (id : String) (version now : Int) :
    (portfolio.withRaces races).advanceCheckpoint id version now =
      (withRaces · races) <$> portfolio.advanceCheckpoint id version now :=
  portfolio.changeProject_withRaces id _

lemma resetCheckpoint_withRaces (portfolio : Portfolio) (id : String) (now : Int) :
    (portfolio.withRaces races).resetCheckpoint id now =
      (withRaces · races) <$> portfolio.resetCheckpoint id now :=
  portfolio.changeProject_withRaces id _

lemma insertProject_withRaces (portfolio : Portfolio) (row : ProjectRow) :
    (portfolio.withRaces races).insertProject row =
      (withRaces · races) <$> portfolio.insertProject row := by
  simp only [insertProject, allows_withRaces, projects_withRaces, map_bind, map_pure,
    apply_ite ((withRaces · races) <$> ·)]
  rfl

lemma register_withRaces (portfolio : Portfolio) (newId path : String)
    (metadata : ProjectMetadata) (now : Int) :
    (portfolio.withRaces races).register newId path metadata now =
      relabel races <$> portfolio.register newId path metadata now := by
  have hfound : (portfolio.withRaces races).getProjectByPath? path =
      portfolio.getProjectByPath? path := rfl
  unfold register
  simp only [hfound]
  split
  · simp only [relinkProject_withRaces, map_bind, map_pure, bind_map_left]
    rfl
  · simp only [insertProject_withRaces, map_bind, map_pure, bind_map_left]
    rfl

lemma register_calm {newId path id : String} {metadata : ProjectMetadata} {known : Bool}
    (calm : portfolio.Calm)
    (h : portfolio.register newId path metadata now = .ok (after, id, known)) : after.Calm :=
  calm.step (register · newId path metadata now)
    (register_withRaces portfolio newId path metadata now) h

lemma upsertOccurrence_withRaces (portfolio : Portfolio) (row : OccurrenceRow) :
    (portfolio.withRaces races).upsertOccurrence row =
      relabel races <$> portfolio.upsertOccurrence row := by
  simp only [upsertOccurrence, allows_withRaces, map_bind, map_pure,
    apply_ite (relabel races <$> ·)]
  rfl

lemma upsertOccurrence_calm {row : OccurrenceRow} {existed : Bool} (calm : portfolio.Calm)
    (h : portfolio.upsertOccurrence row = .ok (after, existed)) : after.Calm :=
  calm.step (upsertOccurrence · row) (upsertOccurrence_withRaces portfolio row) h

lemma deleteOccurrences_withRaces (portfolio : Portfolio) (fits : OccurrenceRow → Bool) :
    (portfolio.withRaces races).deleteOccurrences fits =
      relabel races <$> portfolio.deleteOccurrences fits := by
  simp only [deleteOccurrences, map_bind, map_pure]
  rfl

lemma deleteOccurrences_calm {fits : OccurrenceRow → Bool} {signatures : List String}
    (calm : portfolio.Calm) (h : portfolio.deleteOccurrences fits = .ok (after, signatures)) :
    after.Calm :=
  calm.step (deleteOccurrences · fits) (deleteOccurrences_withRaces portfolio fits) h

/-! ## Several refreshes -/

lemma refreshAll_cons (portfolio : Portfolio) (signatures : List String) :
    portfolio.refreshAll attempts now (signature :: signatures) =
      ((·.1) <$> portfolio.refresh signature none attempts now) >>= fun mid =>
        mid.refreshAll attempts now signatures := by
  simp only [refreshAll, List.foldlM_cons, bind_pure_comp]

lemma refreshAll_append (portfolio : Portfolio) (first rest : List String) :
    portfolio.refreshAll attempts now (first ++ rest) =
      portfolio.refreshAll attempts now first >>= fun mid => mid.refreshAll attempts now rest :=
  List.foldlM_append

lemma refreshAll_withRaces {signatures : List String} (calm : portfolio.Calm)
    (few : ∀ k ∈ signatures, losses races k < max attempts 1) :
    (portfolio.withRaces races).refreshAll attempts now signatures =
      (withRaces · races) <$> portfolio.refreshAll attempts now signatures := by
  induction signatures generalizing portfolio with
  | nil => rfl
  | cons signature signatures ih =>
    obtain ⟨room, few⟩ := List.forall_mem_cons.mp few
    rw [refreshAll_cons, refreshAll_cons]
    refine bind_relabelled (refresh_withRaces calm room) fun mid hmid => ih ?_ few
    obtain ⟨_, hrefresh⟩ := map_fst_eq_ok hmid
    exact (refresh_ok hrefresh).refreshed.calm calm

/-- A refresh that loses all its attempts ends the ones after it. -/
lemma refreshAll_lost {before rest : List String} (calm : portfolio.Calm)
    (few : ∀ k ∈ before, losses races k < max attempts 1)
    (h : portfolio.refreshAll attempts now before = .ok after)
    (contested : after.Contested signature none)
    (spent : max attempts 1 ≤ losses races signature) :
    (portfolio.withRaces races).refreshAll attempts now (before ++ signature :: rest) =
      .error (after.conflict signature) := by
  rw [refreshAll_append, refreshAll_withRaces calm few, h]
  change (after.withRaces races).refreshAll attempts now (signature :: rest) = _
  rw [refreshAll_cons, refresh_contested contested, if_neg (Nat.not_lt.mpr spent)]
  rfl

/-- Refreshes come to a conditional write to the row of a signature, once those before it went
through. -/
inductive Renews (portfolio : Portfolio) (attempts : Nat) (now : Int) (signatures : List String)
    (signature : String) : Prop where
  | reached (before rest : List String) (mid : Portfolio)
      (split : signatures = before ++ signature :: rest)
      (done : portfolio.refreshAll attempts now before = .ok mid)
      (contested : mid.Contested signature none)

lemma losses_single (signature k : String) (count : Nat) :
    losses [(signature, count)] k = if k = signature then count else 0 := by
  unfold losses
  by_cases h : k = signature
  · simp [h]
  · simp [List.lookup, beq_false_of_ne h, h]

/-- No two of the signatures that are told of deleted occurrences are the same. -/
lemma deleteOccurrences_nodup {fits : OccurrenceRow → Bool} {signatures : List String}
    (h : portfolio.deleteOccurrences fits = .ok (after, signatures)) : signatures.Nodup := by
  simp only [deleteOccurrences, bind_eq_ok, pure_eq_ok] at h
  obtain ⟨_, -, h⟩ := h
  obtain ⟨-, rfl⟩ := Prod.mk.inj h
  exact (List.mergeSort_perm _ _).nodup_iff.mpr (nodup_eraseDups _)

/-- Where attempts run out for one of several signatures, all refreshes fail together. -/
lemma Renews.fails {signatures : List String} {count : Nat}
    (renews : portfolio.Renews attempts now signatures signature) (nodup : signatures.Nodup)
    (calm : portfolio.Calm) (spent : max attempts 1 ≤ count) :
    ∃ revision, (portfolio.losing signature count).refreshAll attempts now signatures =
      .error (.versionConflict revision revision) := by
  obtain ⟨before, rest, mid, rfl, done, contested⟩ := renews
  have few : ∀ k ∈ before, losses [(signature, count)] k < max attempts 1 := by
    intro k hk
    have hne : k ≠ signature := by
      rintro rfl
      exact (List.nodup_append.mp nodup).2.2 k hk k List.mem_cons_self rfl
    rw [losses_single, if_neg hne]
    omega
  exact ⟨_, refreshAll_lost calm few done contested (by rwa [losses_single, if_pos rfl])⟩

/-! ## A version -/

/-- Attempts are left for every signature when they are for the one that others contest. -/
lemma losses_few {count : Nat} (room : count < max attempts 1) (signature k : String) :
    losses [(signature, count)] k < max attempts 1 := by
  rw [losses_single]
  split <;> omega

/-- Only the portfolio that a step leaves goes on. -/
lemma bind_fst {γ : Type} (step : Except ε (Portfolio × γ)) (a : α) :
    (step >>= fun result => pure (result.1, a)) =
      (fun left => (left, a)) <$> ((·.1) <$> step) := by
  rw [bind_pure_comp, Functor.map_map]

lemma applyChange_withRaces {projectId : String} (calm : portfolio.Calm)
    (few : ∀ k, losses races k < max attempts 1) (change : StoreChange) :
    (portfolio.withRaces races).applyChange projectId attempts now change =
      relabel races <$> portfolio.applyChange projectId attempts now change := by
  cases change with
  | retract id =>
    refine bind_relabelled (deleteOccurrences_withRaces portfolio _) fun mid hmid => ?_
    have calm' : mid.1.Calm := deleteOccurrences_calm calm hmid
    exact bind_relabelled (refreshAll_withRaces calm' fun k _ => few k) fun left _ => rfl
  | upsert p =>
    refine bind_relabelled (upsertOccurrence_withRaces portfolio _) fun mid hmid => ?_
    have calm' : mid.1.Calm := upsertOccurrence_calm calm hmid
    refine (bind_fst _ _).trans (Eq.trans ?_ (congrArg (relabel races <$> ·) (bind_fst _ _).symm))
    rw [refresh_withRaces calm' (few _)]
    simp only [Functor.map_map, relabel]

/-- A change comes to a conditional write to the row of a signature. -/
inductive Contests (portfolio : Portfolio) (projectId : String) (attempts : Nat) (now : Int)
    (signature : String) : StoreChange → Prop where
  | retract (id : String) (mid : Portfolio) (signatures : List String)
      (deleted : portfolio.deletePatternOccurrences projectId id = .ok (mid, signatures))
      (renews : mid.Renews attempts now signatures signature) :
      Contests portfolio projectId attempts now signature (.retract id)
  | upsert (p : Pattern) (mid : Portfolio) (existed : Bool)
      (own : p.content.signature = signature)
      (upserted : portfolio.upsertOccurrence (p.occurrence projectId now) = .ok (mid, existed))
      (contested : mid.Contested signature (some ⟨p.category.name, p.content.describe⟩)) :
      Contests portfolio projectId attempts now signature (.upsert p)

/-- A change for which attempts run out fails. -/
lemma Contests.fails {projectId : String} {change : StoreChange} {count : Nat}
    (contests : portfolio.Contests projectId attempts now signature change)
    (calm : portfolio.Calm) (spent : max attempts 1 ≤ count) :
    ∃ revision, (portfolio.losing signature count).applyChange projectId attempts now change =
      .error (.versionConflict revision revision) := by
  cases contests with
  | retract id mid signatures deleted renews =>
    have calm' : mid.Calm := deleteOccurrences_calm calm deleted
    obtain ⟨revision, hlost⟩ := renews.fails (deleteOccurrences_nodup deleted) calm' spent
    refine ⟨revision, ?_⟩
    have raced : (portfolio.losing signature count).deletePatternOccurrences projectId id =
        .ok (mid.losing signature count, signatures) :=
      relabelled_ok (deleteOccurrences_withRaces portfolio _) deleted
    rw [applyChange, raced]
    change (mid.losing signature count).refreshAll attempts now signatures >>= _ = _
    rw [hlost]
    rfl
  | upsert p mid existed own upserted contested =>
    refine ⟨((mid.revision? p.content.signature).getD 0).toNat, ?_⟩
    have raced : (portfolio.losing signature count).upsertOccurrence (p.occurrence projectId now) =
        .ok (mid.losing signature count, existed) :=
      relabelled_ok (upsertOccurrence_withRaces portfolio _) upserted
    have hlosses : ¬ losses [(signature, count)] p.content.signature < max attempts 1 := by
      rw [losses_single, if_pos own]
      exact Nat.not_lt.mpr spent
    rw [applyChange, raced]
    change (mid.losing signature count).refresh _ _ attempts now >>= _ = _
    rw [losing, refresh_contested (own ▸ contested), if_neg hlosses]
    rfl

/-- The changes of a version one after another, with what they count. -/
def applyChanges (projectId : String) (attempts : Nat) (now : Int)
    (progress : Portfolio × SyncCounts) (changes : List StoreChange) :
    Except StorageError (Portfolio × SyncCounts) :=
  changes.foldlM (fun progress change => do
    let (portfolio, more) ← progress.1.applyChange projectId attempts now change
    return (portfolio, progress.2.add more)) progress

lemma applyChanges_cons {projectId : String} (portfolio : Portfolio) (counts : SyncCounts)
    (change : StoreChange) (rest : List StoreChange) :
    applyChanges projectId attempts now (portfolio, counts) (change :: rest) =
      portfolio.applyChange projectId attempts now change >>= fun result =>
        applyChanges projectId attempts now (result.1, counts.add result.2) rest := by
  simp only [applyChanges, List.foldlM_cons, bind_assoc, pure_bind]

lemma applyChange_calm {projectId : String} {change : StoreChange} {counts : SyncCounts}
    (calm : portfolio.Calm)
    (h : portfolio.applyChange projectId attempts now change = .ok (after, counts)) :
    after.Calm :=
  calm.step (applyChange · projectId attempts now change)
    (applyChange_withRaces calm (fun _ => Nat.lt_of_lt_of_le Nat.one_pos (Nat.le_max_right _ _)) _)
    h

lemma applyChanges_withRaces {projectId : String} {counts : SyncCounts} (calm : portfolio.Calm)
    (few : ∀ k, losses races k < max attempts 1) (changes : List StoreChange) :
    applyChanges projectId attempts now (portfolio.withRaces races, counts) changes =
      relabel races <$> applyChanges projectId attempts now (portfolio, counts) changes := by
  induction changes generalizing portfolio counts with
  | nil => rfl
  | cons change changes ih =>
    rw [applyChanges_cons, applyChanges_cons]
    exact bind_relabelled (applyChange_withRaces calm few change) fun mid hmid =>
      ih (applyChange_calm calm hmid)

lemma applyChanges_calm {projectId : String} {changes : List StoreChange}
    {counts counts' : SyncCounts} (calm : portfolio.Calm)
    (h : applyChanges projectId attempts now (portfolio, counts) changes = .ok (after, counts')) :
    after.Calm :=
  calm.step (fun p => applyChanges projectId attempts now (p, counts) changes)
    (applyChanges_withRaces calm (fun _ => Nat.lt_of_lt_of_le Nat.one_pos (Nat.le_max_right _ _))
      _) h

lemma applyChanges_append {projectId : String} (progress : Portfolio × SyncCounts)
    (first rest : List StoreChange) :
    applyChanges projectId attempts now progress (first ++ rest) =
      applyChanges projectId attempts now progress first >>= fun mid =>
        applyChanges projectId attempts now mid rest :=
  List.foldlM_append

lemma applyVersion_eq {projectId : String} (portfolio : Portfolio) (group : VersionChanges) :
    portfolio.applyVersion projectId attempts now group =
      applyChanges projectId attempts now (portfolio, .zero) group.changes >>= fun result => do
        return (← result.1.advanceCheckpoint projectId (storedWord group.version) now,
          result.2) := rfl

lemma applyVersion_calm {projectId : String} {group : VersionChanges} {counts : SyncCounts}
    (calm : portfolio.Calm)
    (h : portfolio.applyVersion projectId attempts now group = .ok (after, counts)) :
    after.Calm := by
  rw [applyVersion_eq, bind_eq_ok] at h
  obtain ⟨⟨mid, counts⟩, hmid, h⟩ := h
  simp only [bind_eq_ok, pure_eq_ok] at h
  obtain ⟨left, hleft, h⟩ := h
  obtain ⟨rfl, -⟩ := Prod.mk.inj h
  have calm' : mid.calm = mid := applyChanges_calm calm hmid
  have same : mid.calm.advanceCheckpoint projectId (storedWord group.version) now =
      (withRaces · []) <$> mid.advanceCheckpoint projectId (storedWord group.version) now :=
    mid.advanceCheckpoint_withRaces _ _ _
  rw [calm', hleft] at same
  exact (Except.ok.inj same).symm

lemma applyVersions_calm {projectId : String} {progress reached : SyncProgress}
    {groups : List VersionChanges} {failure : Option StorageError}
    (calm : progress.portfolio.Calm)
    (h : applyVersions projectId attempts now progress groups = (reached, failure)) :
    reached.portfolio.Calm := by
  induction groups generalizing progress with
  | nil =>
    obtain ⟨rfl, -⟩ := Prod.mk.inj h
    exact calm
  | cons group groups ih =>
    rw [applyVersions] at h
    cases hfirst : progress.portfolio.applyVersion projectId attempts now group with
    | error error =>
      rw [hfirst] at h
      obtain ⟨rfl, -⟩ := Prod.mk.inj h
      exact calm
    | ok result =>
      rw [hfirst] at h
      exact ih (applyVersion_calm calm hfirst) h

/-- Versions go on where those before them came to. -/
lemma applyVersions_append {projectId : String} (progress : SyncProgress)
    (before rest : List VersionChanges) :
    applyVersions projectId attempts now progress (before ++ rest) =
      match applyVersions projectId attempts now progress before with
      | (reached, some error) => (reached, some error)
      | (reached, none) => applyVersions projectId attempts now reached rest := by
  induction before generalizing progress with
  | nil => rfl
  | cons group before ih =>
    rw [List.cons_append, applyVersions, applyVersions]
    cases progress.portfolio.applyVersion projectId attempts now group with
    | error error => rfl
    | ok result => exact ih _

/-- A version during one change of which other writers win the first races for the row of a
signature. -/
structure Contest where
  version : Nat
  first : List StoreChange
  change : StoreChange
  rest : List StoreChange
  signature : String
  count : Nat

namespace Contest

variable {contest : Contest} {projectId : String}

/-- The changes of the version. -/
def group (contest : Contest) : VersionChanges where
  version := contest.version
  changes := contest.first ++ contest.change :: contest.rest

/-- Apply the changes of the version and move the checkpoint to it. -/
def apply (contest : Contest) (portfolio : Portfolio) (projectId : String) (attempts : Nat)
    (now : Int) : Except StorageError (Portfolio × SyncCounts) := do
  let (portfolio, counts) ←
    applyChanges projectId attempts now (portfolio, .zero) contest.first
  let (portfolio, more) ← (portfolio.losing contest.signature contest.count).applyChange projectId
    attempts now contest.change
  let (portfolio, counts) ←
    applyChanges projectId attempts now (portfolio.calm, counts.add more) contest.rest
  return (← portfolio.advanceCheckpoint projectId (storedWord contest.version) now, counts)

/-- As long as attempts are left, the version is applied as it is without races. -/
theorem apply_eq (calm : portfolio.Calm) (room : contest.count < max attempts 1) :
    contest.apply portfolio projectId attempts now =
      portfolio.applyVersion projectId attempts now contest.group := by
  have few := losses_few room contest.signature
  rw [applyVersion_eq, group, applyChanges_append, bind_assoc]
  refine bind_congr_ok fun mid hmid => ?_
  have calm' : mid.1.Calm := applyChanges_calm calm hmid
  change (mid.1.withRaces [(contest.signature, contest.count)]).applyChange _ _ _ _ >>= _ = _
  rw [applyChange_withRaces calm' few, bind_map_left, applyChanges_cons, bind_assoc]
  refine bind_congr_ok fun left hleft => ?_
  have calm'' : left.1.calm = left.1 := applyChange_calm calm' hleft
  change applyChanges projectId attempts now (left.1.calm, _) _ >>= _ = _
  rw [calm'']

/-- When no attempt is left, nothing comes of the version. -/
theorem apply_fails {counts : SyncCounts} (calm : portfolio.Calm)
    (h : applyChanges projectId attempts now (portfolio, .zero) contest.first = .ok (after, counts))
    (contests : after.Contests projectId attempts now contest.signature contest.change)
    (spent : max attempts 1 ≤ contest.count) :
    ∃ revision, contest.apply portfolio projectId attempts now =
      .error (.versionConflict revision revision) := by
  obtain ⟨revision, hlost⟩ := contests.fails (applyChanges_calm calm h) spent
  refine ⟨revision, ?_⟩
  rw [apply, h]
  change (after.losing _ _).applyChange projectId attempts now _ >>= _ = _
  rw [hlost]
  rfl

/-- The versions of a sync up to the first one that fails, with the contested one among them. -/
def applyAmong (contest : Contest) (projectId : String) (attempts : Nat) (now : Int)
    (progress : SyncProgress) (before rest : List VersionChanges) :
    SyncProgress × Option StorageError :=
  match applyVersions projectId attempts now progress before with
  | (reached, some error) => (reached, some error)
  | (reached, none) =>
    match contest.apply reached.portfolio projectId attempts now with
    | .error error => (reached, some error)
    | .ok (portfolio, counts) =>
      applyVersions projectId attempts now
        ⟨portfolio, contest.version, reached.counts.add counts⟩ rest

theorem applyAmong_eq {progress : SyncProgress} (calm : progress.portfolio.Calm)
    (room : contest.count < max attempts 1) (before rest : List VersionChanges) :
    contest.applyAmong projectId attempts now progress before rest =
      applyVersions projectId attempts now progress (before ++ contest.group :: rest) := by
  rw [applyVersions_append, applyAmong]
  cases hbefore : applyVersions projectId attempts now progress before with
  | mk reached failure =>
    cases failure with
    | some error => rfl
    | none =>
      simp only
      rw [apply_eq (applyVersions_calm calm hbefore) room, applyVersions]
      rfl

/-- A sync ends before the version that fails, with what the versions before it came to. -/
theorem applyAmong_fails {progress reached : SyncProgress} {before : List VersionChanges}
    {counts : SyncCounts} (calm : progress.portfolio.Calm)
    (hbefore : applyVersions projectId attempts now progress before = (reached, none))
    (h : applyChanges projectId attempts now (reached.portfolio, .zero) contest.first =
      .ok (after, counts))
    (contests : after.Contests projectId attempts now contest.signature contest.change)
    (spent : max attempts 1 ≤ contest.count) (rest : List VersionChanges) :
    ∃ revision, contest.applyAmong projectId attempts now progress before rest =
      (reached, some (.versionConflict revision revision)) := by
  obtain ⟨revision, hfails⟩ := apply_fails (applyVersions_calm calm hbefore) h contests spent
  refine ⟨revision, ?_⟩
  rw [applyAmong, hbefore]
  simp only [hfails]

end Contest

/-! ## Every consensus -/

/-- The rows of different signatures that were read and whose turns are still to come. -/
structure InTurn (portfolio : Portfolio) (rows : List AggregationRow) : Prop where
  distinct : portfolio.Distinct
  known : ∀ row ∈ rows, portfolio.getAggregation? row.signature = some row
  nodup : (rows.map (·.signature)).Nodup

lemma inTurn_snapshot (distinct : portfolio.Distinct) : portfolio.InTurn portfolio.snapshot := by
  have hperm : portfolio.snapshot.Perm portfolio.aggregations := List.mergeSort_perm _ _
  exact {
    distinct
    known := fun row hrow =>
      Table.lookup_of_mem AggregationRow.signature distinct (hperm.mem_iff.mp hrow)
    nodup := (hperm.map _).nodup_iff.mpr distinct }

/-- A turn leaves the rows of the turns after it. -/
lemma InTurn.next {row : AggregationRow} {rows : List AggregationRow} {active : Nat}
    {wrote : Bool} (turns : portfolio.InTurn (row :: rows))
    (h : portfolio.turn row active attempts now = .ok (after, wrote)) : after.InTurn rows := by
  obtain ⟨hfresh, nodup⟩ := List.nodup_cons.mp turns.nodup
  have apart := (recomputeFrom_ok h).apart turns.distinct
  refine ⟨apart.distinct, fun later hlater => ?_, nodup⟩
  have hne : later.signature ≠ row.signature :=
    fun heq => hfresh (List.mem_map.mpr ⟨later, hlater, heq⟩)
  rw [apart.others _ hne]
  exact turns.known later (List.mem_cons_of_mem _ hlater)

lemma recomputeRows_cons (row : AggregationRow) (rows : List AggregationRow) (active : Nat)
    (portfolio : Portfolio) : recomputeRows active attempts now (row :: rows) portfolio =
      match portfolio.turn row active attempts now with
      | .error error => (.error error, portfolio)
      | .ok (mid, wrote) =>
        let (result, left) := recomputeRows active attempts now rows mid
        (result.map fun changed => changed + if wrote then 1 else 0, left) := rfl

lemma recomputeRows_withRaces {rows : List AggregationRow} {active : Nat}
    (turns : portfolio.InTurn rows) (calm : portfolio.Calm)
    (few : ∀ row ∈ rows, losses races row.signature < max attempts 1) :
    recomputeRows active attempts now rows (portfolio.withRaces races) =
      Prod.map id (withRaces · races) (recomputeRows active attempts now rows portfolio) := by
  induction rows generalizing portfolio with
  | nil => rfl
  | cons row rows ih =>
    obtain ⟨room, few⟩ := List.forall_mem_cons.mp few
    rw [recomputeRows_cons, recomputeRows_cons,
      turn_withRaces calm (turns.known row List.mem_cons_self) room]
    cases hturn : portfolio.turn row active attempts now with
    | error error => rfl
    | ok result =>
      have later := ih (turns.next hturn) ((recomputeFrom_ok hturn).refreshed.calm calm) few
      change (match recomputeRows active attempts now rows (result.1.withRaces races) with
        | (result, left) => _) = _
      rw [later]
      rfl

/-- A turn that loses all its attempts ends the ones after it. -/
lemma recomputeRows_lost {before rest : List AggregationRow} {row : AggregationRow}
    {active count : Nat} (turns : portfolio.InTurn (before ++ row :: rest))
    (few : ∀ row ∈ before, losses races row.signature < max attempts 1)
    (calm : portfolio.Calm)
    (h : recomputeRows active attempts now before portfolio = (.ok count, after))
    (different : sameConsensus (consensus (portfolio.activeCountFor row.signature) active)
      row.consensusScore = false)
    (spent : max attempts 1 ≤ losses races row.signature) :
    (recomputeRows active attempts now (before ++ row :: rest) (portfolio.withRaces races)).1 =
      .error (portfolio.conflict row.signature) := by
  induction before generalizing portfolio count with
  | nil =>
    rw [List.nil_append, recomputeRows_cons,
      turn_contended (turns.known row List.mem_cons_self) different,
      if_neg (Nat.not_lt.mpr spent)]
  | cons first before ih =>
    obtain ⟨room, few⟩ := List.forall_mem_cons.mp few
    have hknown := turns.known first List.mem_cons_self
    rw [recomputeRows_cons] at h
    rw [List.cons_append, recomputeRows_cons, turn_withRaces calm hknown room]
    cases hturn : portfolio.turn first active attempts now with
    | error error =>
      rw [hturn] at h
      cases h
    | ok result =>
      obtain ⟨mid, wrote⟩ := result
      rw [hturn] at h
      simp only at h
      have rescored := recomputeFrom_ok hturn
      have hne : row.signature ≠ first.signature := fun heq =>
        (List.nodup_cons.mp turns.nodup).1 (List.mem_map.mpr
          ⟨row, List.mem_append_right _ List.mem_cons_self, heq⟩)
      have hconflict : mid.conflict row.signature = portfolio.conflict row.signature := by
        rw [conflict, revision?, (rescored.apart turns.distinct).others _ hne]
        rfl
      have hactive : mid.activeCountFor row.signature = portfolio.activeCountFor row.signature := by
        obtain ⟨_, rfl⟩ := rescored.refreshed
        rfl
      cases hrest : recomputeRows active attempts now before mid with
      | mk result left =>
        rw [hrest] at h
        obtain ⟨hresult, rfl⟩ := Prod.mk.inj h
        cases result with
        | error error => cases hresult
        | ok rest =>
          have later := ih (turns.next hturn) few (rescored.refreshed.calm calm) hrest
            (hactive ▸ different)
          change (recomputeRows active attempts now _ (mid.withRaces races)).1.map _ = _
          rw [later, hconflict]
          rfl

lemma recompute_withRaces (distinct : portfolio.Distinct) (calm : portfolio.Calm)
    (few : ∀ k, losses races k < max attempts 1) :
    (portfolio.withRaces races).recompute attempts now =
      relabel races <$> portfolio.recompute attempts now := by
  have hrows : (portfolio.withRaces races).recomputeEach attempts now =
      Prod.map id (withRaces · races) (portfolio.recomputeEach attempts now) :=
    recomputeRows_withRaces (inTurn_snapshot distinct) calm fun row _ => few _
  unfold recompute
  rw [hrows]
  cases portfolio.recomputeEach attempts now with
  | mk result left => cases result <;> rfl

/-- Bringing every consensus up to date comes to a conditional write to the row of a signature,
once the turns before it went through. -/
inductive Rescores (portfolio : Portfolio) (attempts : Nat) (now : Int) (signature : String) :
    Prop where
  | reached (before rest : List AggregationRow) (row : AggregationRow) (mid : Portfolio)
      (count : Nat) (split : portfolio.snapshot = before ++ row :: rest)
      (own : row.signature = signature)
      (done : recomputeRows portfolio.countActive attempts now before portfolio = (.ok count, mid))
      (different : sameConsensus (portfolio.scoreFor signature) row.consensusScore = false)

/-- Where attempts run out for one signature, no consensus is brought up to date. -/
lemma Rescores.fails {count : Nat} (rescores : portfolio.Rescores attempts now signature)
    (distinct : portfolio.Distinct) (calm : portfolio.Calm) (spent : max attempts 1 ≤ count) :
    ∃ revision, (portfolio.losing signature count).recompute attempts now =
      .error (.versionConflict revision revision) := by
  obtain ⟨before, rest, row, mid, changed, split, rfl, done, different⟩ := rescores
  have turns : portfolio.InTurn (before ++ row :: rest) := split ▸ inTurn_snapshot distinct
  have few : ∀ other ∈ before,
      losses [(row.signature, count)] other.signature < max attempts 1 := by
    intro other hother
    have hne : other.signature ≠ row.signature := by
      have nodup := turns.nodup
      rw [List.map_append, List.nodup_append] at nodup
      exact nodup.2.2 _ (List.mem_map.mpr ⟨other, hother, rfl⟩) _ List.mem_cons_self
    rw [losses_single, if_neg hne]
    omega
  have hlost := recomputeRows_lost turns few calm done different
    (by rwa [losses_single, if_pos rfl])
  refine ⟨((portfolio.revision? row.signature).getD 0).toNat, ?_⟩
  have heach : ((portfolio.losing row.signature count).recomputeEach attempts now).1 =
      .error (portfolio.conflict row.signature) := by
    rw [← hlost, ← split]
    rfl
  unfold recompute
  cases hrows : (portfolio.losing row.signature count).recomputeEach attempts now with
  | mk result left =>
    rw [hrows] at heach
    obtain rfl : result = _ := heach
    rfl

end Portfolio

end HouseStyle
