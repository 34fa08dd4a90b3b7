import HouseStyle.Proofs.Portfolio.Sync

/-!
# Runs over many projects

Projects learn, are linked, unlinked and rebased, and are synced in any order, and syncs break
off anywhere. All the while each project mirrors its store up to its checkpoint, so that a sync
that goes through leaves exactly the occurrences of the patterns that the store holds.
-/

namespace HouseStyle

/-- The portfolio, and the store of every project there may be. -/
structure Workspace where
  portfolio : Portfolio
  stores : String → PatternStore

/-- What can be asked of a workspace. -/
inductive WorkspaceRequest where
  | learn (projectId : String) (call : LearnerCall)
  | link (newId path : String) (metadata : ProjectMetadata)
  | unlink (projectId : String)
  | setStats (projectId : String) (patterns concepts : Nat)
  | rebase (projectId : String)
  | sync (projectId : String)
  /-- A sync that a failure of the database cuts off after some versions. -/
  | cutSync (projectId : String) (versions : Nat)

/-- A request with the time it is made at, the attempts it has at every aggregation, and the
faults that the database of the portfolio has then. -/
structure WorkspaceCall where
  request : WorkspaceRequest
  attempts : Nat
  now : Int
  faults : Faults
  honest : faults.Honest

/-- The portfolio on a database that refuses other writes than before. -/
def Portfolio.under (portfolio : Portfolio) (faults : Faults) : Portfolio :=
  { portfolio with faults }

namespace Workspace

def empty : Workspace := ⟨.empty, fun _ => .empty⟩

/-- A transaction of the portfolio. One that fails leaves it alone. -/
def transact {ε : Type} (space : Workspace) (result : Except ε Portfolio) : Workspace :=
  match result with
  | .ok portfolio => { space with portfolio }
  | .error _ => space

/-- A call of the learner on the store of one project. -/
def learn (space : Workspace) (projectId : String) (learning : LearnerCall) : Workspace where
  portfolio := space.portfolio
  stores id :=
    if id = projectId then (learning.perform id (space.stores id)).store else space.stores id

/-- The workspace after a call. -/
def perform (space : Workspace) (call : WorkspaceCall) : Workspace :=
  let portfolio := space.portfolio.under call.faults
  let space := { space with portfolio }
  match call.request with
  | .learn projectId learning => space.learn projectId learning
  | .link newId path metadata =>
    space.transact ((portfolio.link call.attempts call.now newId path metadata).map (·.1))
  | .unlink projectId =>
    space.transact ((portfolio.unlink call.attempts call.now projectId).map (·.1))
  | .setStats projectId patterns concepts =>
    space.transact (portfolio.setStats projectId patterns concepts)
  | .rebase projectId =>
    space.transact ((portfolio.rebase call.attempts call.now projectId).map (·.1))
  | .sync projectId =>
    { space with portfolio :=
        (portfolio.sync call.attempts call.now projectId (space.stores projectId)).portfolio }
  | .cutSync projectId versions =>
    { space with portfolio :=
        portfolio.syncCut call.attempts call.now projectId (space.stores projectId) versions }

/-- Calls one after another. -/
def run (space : Workspace) (calls : List WorkspaceCall) : Workspace := calls.foldl perform space

open PatternStore

variable {space : Workspace} {portfolio after : Portfolio} {projectId : String} {count : Nat}
  {call : WorkspaceCall} {trusted : String → Prop}

/-- Every store carries the versions at which it was written, and every project that is trusted
mirrors its store up to its checkpoint. `count` calls have been performed. -/
structure SoundAmong (trusted : String → Prop) (count : Nat) (space : Workspace) : Prop where
  versioned : ∀ id, (space.stores id).Versioned
  counted : ∀ id, (space.stores id).version ≤ count
  known : ∀ row ∈ space.portfolio.occurrences,
    (space.portfolio.checkpoint? row.projectId).isSome
  mirrored : ∀ id, trusted id → ∀ checkpoint, space.portfolio.checkpoint? id = some checkpoint →
    0 ≤ checkpoint ∧ checkpoint ≤ (space.stores id).version ∧
      Mirrored checkpoint (space.stores id) id space.portfolio.occurrences

namespace SoundAmong

lemma mono (sound : SoundAmong trusted count space) {more : Nat} (h : count ≤ more) :
    SoundAmong trusted more space where
  versioned := sound.versioned
  counted := fun id => Int.le_trans (sound.counted id) (by omega)
  known := sound.known
  mirrored := sound.mirrored

/-- Fewer projects may be trusted. -/
lemma weaken (sound : SoundAmong trusted count space) {fewer : String → Prop}
    (h : ∀ id, fewer id → trusted id) : SoundAmong fewer count space :=
  ⟨sound.versioned, sound.counted, sound.known, fun id hid => sound.mirrored id (h id hid)⟩

/-- The faults of the database do not matter. -/
lemma under (sound : SoundAmong trusted count space) (faults : Faults) :
    SoundAmong trusted count { space with portfolio := space.portfolio.under faults } :=
  ⟨sound.versioned, sound.counted, sound.known, sound.mirrored⟩

lemma synced_of (sound : SoundAmong trusted count space) (trust : trusted projectId)
    {checkpoint : Int} (h : space.portfolio.checkpoint? projectId = some checkpoint) :
    space.portfolio.SyncedTo projectId (space.stores projectId) checkpoint :=
  ⟨h, (sound.mirrored projectId trust checkpoint h).2.2⟩

/-! ## One call -/

/-- Learning goes on at versions that are later than every checkpoint. -/
lemma learn (sound : SoundAmong trusted count space) (room : count + 1 < Word.half)
    (projectId : String) (learning : LearnerCall) :
    SoundAmong trusted (count + 1) (space.learn projectId learning) := by
  have step : ∀ id, ((space.learn projectId learning).stores id).Versioned ∧
      (space.stores id).version ≤ ((space.learn projectId learning).stores id).version ∧
      ((space.learn projectId learning).stores id).version ≤ (space.stores id).version + 1 ∧
      ∀ checkpoint ≤ (space.stores id).version, ∀ project rows,
        Mirrored checkpoint (space.stores id) project rows →
          Mirrored checkpoint ((space.learn projectId learning).stores id) project rows := by
    intro id
    have hcounted := sound.counted id
    simp only [Workspace.learn]
    split
    · exact LearnerCall.perform_versioned id (sound.versioned id) (by omega)
    · exact ⟨sound.versioned id, Int.le_refl _, by omega, fun _ _ _ _ mirrored => mirrored⟩
  exact {
    versioned := fun id => (step id).1
    counted := fun id => by
      have := (step id).2.2.1
      have := sound.counted id
      omega
    known := sound.known
    mirrored := fun id trust checkpoint h => by
      obtain ⟨hnonneg, hle, mirrored⟩ := sound.mirrored id trust checkpoint h
      obtain ⟨-, hgrown, -, hkept⟩ := step id
      exact ⟨hnonneg, Int.le_trans hle hgrown, hkept checkpoint hle id _ mirrored⟩ }

/-- A project that was registered has not contributed anything yet. -/
lemma registered (sound : SoundAmong trusted count space)
    (registered : space.portfolio.Registered after) :
    SoundAmong trusted count { space with portfolio := after } where
  versioned := sound.versioned
  counted := sound.counted
  known := by
    intro row hrow
    rw [registered.occurrences] at hrow
    have hknown := sound.known row hrow
    rcases registered.checkpoints row.projectId with hsame | ⟨hnone, -⟩
    · rw [hsame]
      exact hknown
    · rw [hnone] at hknown
      cases hknown
  mirrored := by
    intro id trust checkpoint h
    rcases registered.checkpoints id with hsame | ⟨hnone, hzero⟩
    · rw [hsame] at h
      rw [registered.occurrences]
      exact sound.mirrored id trust checkpoint h
    · obtain rfl : 0 = checkpoint := Option.some.inj (hzero.symm.trans h)
      refine ⟨Int.le_refl _, (sound.versioned id).counted, ?_⟩
      apply mirrored_zero (sound.versioned id).dated
      intro row hrow hid
      rw [registered.occurrences] at hrow
      have hknown := sound.known row hrow
      rw [hid, hnone] at hknown
      cases hknown

end SoundAmong

/-- A project without a row is not synced. -/
lemma activeProject_unknown (h : portfolio.checkpoint? projectId = none) :
    ∃ error, portfolio.activeProject projectId = .error error := by
  have hrow : portfolio.getProject? projectId = none := by
    rw [Portfolio.checkpoint?] at h
    exact Option.map_eq_none_iff.mp h
  exact ⟨_, by rw [Portfolio.activeProject, hrow]⟩

/-- What one project contributes says nothing of the others. -/
lemma mirrored_others {checkpoint : Int} {store : PatternStore} {id : String}
    {rows rows' : List OccurrenceRow} (hid : id ≠ projectId)
    (hothers : rows'.filter (·.projectId != projectId) =
      rows.filter (·.projectId != projectId))
    (mirrored : Mirrored checkpoint store id rows) : Mirrored checkpoint store id rows' := by
  have hown : ∀ (rows : List OccurrenceRow) x, occurrencesOf rows id x =
      occurrencesOf (rows.filter (·.projectId != projectId)) id x := by
    intro rows x
    rw [occurrencesOf, occurrencesOf, List.filter_filter]
    apply List.filter_congr
    intro row _
    by_cases hrow : row.projectId = id
    · simp [hrow, hid]
    · simp [hrow]
  intro x
  have hsame : occurrencesOf rows' id x = occurrencesOf rows id x := by
    rw [hown rows', hown rows, hothers]
  exact ⟨hsame ▸ (mirrored x).settled, hsame ▸ (mirrored x).current⟩

namespace SoundAmong

/-- Where nothing but one project's contribution has changed, that project is what counts. -/
lemma moved (sound : SoundAmong trusted count space)
    (moved : space.portfolio.Moved projectId after)
    (known : (space.portfolio.checkpoint? projectId).isSome)
    (synced : trusted projectId → ∃ reached, 0 ≤ reached ∧
      reached ≤ (space.stores projectId).version ∧
        after.SyncedTo projectId (space.stores projectId) reached) :
    SoundAmong trusted count { space with portfolio := after } where
  versioned := sound.versioned
  counted := sound.counted
  known := by
    intro row hrow
    by_cases hid : row.projectId = projectId
    · rw [hid, moved.known]
      exact known
    · rw [moved.checkpoints _ hid]
      have hmem : row ∈ after.occurrences.filter (·.projectId != projectId) :=
        List.mem_filter.mpr ⟨hrow, by simpa using hid⟩
      rw [moved.others] at hmem
      exact sound.known row (List.mem_filter.mp hmem).1
  mirrored := by
    intro id trust checkpoint h
    by_cases hid : id = projectId
    · subst hid
      obtain ⟨reached, hreached, hle, synced⟩ := synced trust
      obtain rfl : reached = checkpoint := Option.some.inj (synced.own.symm.trans h)
      exact ⟨hreached, hle, synced.mirrored⟩
    · rw [moved.checkpoints _ hid] at h
      obtain ⟨hnonneg, hle, mirrored⟩ := sound.mirrored id trust checkpoint h
      exact ⟨hnonneg, hle, mirrored_others hid moved.others mirrored⟩

/-- A project that is rebased can be trusted again. -/
lemma rebased (sound : SoundAmong trusted count space) (honest : space.portfolio.faults.Honest)
    {attempts signatures : Nat} {now : Int}
    (h : space.portfolio.rebase attempts now projectId = .ok (after, signatures)) :
    SoundAmong (fun id => trusted id ∨ id = projectId) count
      { space with portfolio := after } := by
  obtain ⟨moved, synced⟩ :=
    Portfolio.rebase_synced honest (sound.versioned projectId).dated h
  have known : (space.portfolio.checkpoint? projectId).isSome := by
    rw [← moved.known, synced.own]
    rfl
  have others : SoundAmong (fun id => trusted id ∧ id ≠ projectId) count space :=
    sound.weaken fun id h => h.1
  have after := others.moved moved known fun h => absurd rfl h.2
  refine ⟨after.versioned, after.counted, after.known, fun id trust checkpoint hcheckpoint => ?_⟩
  by_cases hid : id = projectId
  · subst hid
    obtain rfl : 0 = checkpoint := Option.some.inj (synced.own.symm.trans hcheckpoint)
    exact ⟨Int.le_refl _, (sound.versioned id).counted, synced.mirrored⟩
  · exact after.mirrored id ⟨trust.resolve_right hid, hid⟩ checkpoint hcheckpoint

/-- A transaction keeps what holds of the portfolios it can lead to. -/
lemma transact {ε : Type} {result : Except ε Portfolio} (sound : SoundAmong trusted count space)
    (h : ∀ after, result = .ok after →
      SoundAmong trusted count { space with portfolio := after }) :
    SoundAmong trusted count (space.transact result) := by
  cases result with
  | error error => exact sound
  | ok after => exact h after rfl

/-- One call. -/
theorem perform (sound : SoundAmong trusted count space) (room : count + 1 < Word.half)
    (call : WorkspaceCall) : SoundAmong trusted (count + 1) (space.perform call) := by
  have sound' := sound.under call.faults
  have hversion : ∀ id, (space.stores id).version < Word.half := fun id => by
    have := sound.counted id
    omega
  unfold Workspace.perform
  cases hrequest : call.request with
  | learn projectId learning => exact sound'.learn room projectId learning
  | link newId path metadata =>
    refine (sound'.transact fun after h => ?_).mono (Nat.le_succ _)
    obtain ⟨_, hlink⟩ := map_fst_eq_ok h
    exact sound'.registered (Portfolio.link_ok hlink call.honest)
  | unlink projectId =>
    refine (sound'.transact fun after h => ?_).mono (Nat.le_succ _)
    obtain ⟨_, hunlink⟩ := map_fst_eq_ok h
    exact sound'.registered (Portfolio.unlink_ok hunlink call.honest)
  | setStats projectId patterns concepts =>
    exact (sound'.transact fun after h =>
      sound'.registered (Portfolio.setStats_ok h call.honest)).mono (Nat.le_succ _)
  | rebase projectId =>
    refine (sound'.transact fun after h => ?_).mono (Nat.le_succ _)
    obtain ⟨_, hrebase⟩ := map_fst_eq_ok h
    exact (sound'.rebased call.honest hrebase).weaken fun id trust => .inl trust
  | sync projectId =>
    cases hcheckpoint : (space.portfolio.under call.faults).checkpoint? projectId with
    | none =>
      obtain ⟨error, herror⟩ := activeProject_unknown hcheckpoint
      simp only [Portfolio.sync, herror]
      exact sound'.mono (Nat.le_succ _)
    | some checkpoint =>
      refine (sound'.moved (Portfolio.sync_moved call.honest _ _ _ _)
        (by rw [hcheckpoint]; rfl) fun trust => ?_).mono (Nat.le_succ _)
      obtain ⟨hnonneg, hle, -⟩ := sound'.mirrored projectId trust checkpoint hcheckpoint
      obtain ⟨-, reached, hreached, hle', synced, -⟩ := Portfolio.sync_synced call.honest
        (sound.versioned projectId) (hversion projectId) hnonneg hle
        (sound'.synced_of trust hcheckpoint)
      exact ⟨reached, hreached, hle', synced⟩
  | cutSync projectId versions =>
    cases hcheckpoint : (space.portfolio.under call.faults).checkpoint? projectId with
    | none =>
      obtain ⟨error, herror⟩ := activeProject_unknown hcheckpoint
      simp only [Portfolio.syncCut, herror]
      exact sound'.mono (Nat.le_succ _)
    | some checkpoint =>
      refine (sound'.moved (Portfolio.syncCut_moved call.honest _ _ _ _ _)
        (by rw [hcheckpoint]; rfl) fun trust => ?_).mono (Nat.le_succ _)
      obtain ⟨hnonneg, hle, -⟩ := sound'.mirrored projectId trust checkpoint hcheckpoint
      obtain ⟨-, synced⟩ := Portfolio.syncCut_synced call.honest
        (sound.versioned projectId) (hversion projectId) hnonneg hle
        (sound'.synced_of trust hcheckpoint)
      exact synced

/-- A sync that goes through takes a project that is trusted to the version of its store. -/
lemma sync_ok (sound : SoundAmong trusted count space) (room : count < Word.half)
    (trust : trusted projectId) (honest : space.portfolio.faults.Honest) {attempts : Nat}
    {now : Int} {result : SyncResult}
    (h : (space.portfolio.sync attempts now projectId (space.stores projectId)).result =
      .ok result) :
    space.portfolio.Moved projectId
        (space.portfolio.sync attempts now projectId (space.stores projectId)).portfolio ∧
      (space.portfolio.sync attempts now projectId (space.stores projectId)).portfolio.SyncedTo
        projectId (space.stores projectId) (space.stores projectId).version := by
  have hversion := sound.counted projectId
  cases hcheckpoint : space.portfolio.checkpoint? projectId with
  | none =>
    obtain ⟨error, herror⟩ := activeProject_unknown hcheckpoint
    simp only [Portfolio.sync, herror] at h
    cases h
  | some checkpoint =>
    obtain ⟨hnonneg, hle, -⟩ := sound.mirrored projectId trust checkpoint hcheckpoint
    obtain ⟨moved, reached, -, -, synced, hreached⟩ := Portfolio.sync_synced honest
      (sound.versioned projectId) (by omega) hnonneg hle (sound.synced_of trust hcheckpoint)
    obtain rfl := hreached result h
    exact ⟨moved, synced⟩

end SoundAmong

/-! ## Runs -/

/-- Every project is trusted. -/
def Sound (count : Nat) (space : Workspace) : Prop := SoundAmong (fun _ => True) count space

lemma sound_empty : Sound 0 .empty where
  versioned := fun _ => ⟨Int.le_refl _, dated_empty⟩
  counted := fun _ => Int.le_refl _
  known := by simp [empty, Portfolio.empty]
  mirrored := fun _ _ _ h => nomatch h

lemma Sound.under (sound : Sound count space) (faults : Faults) :
    Sound count { space with portfolio := space.portfolio.under faults } :=
  SoundAmong.under sound faults

lemma Sound.synced (sound : Sound count space) (id : String) (checkpoint : Int)
    (h : space.portfolio.checkpoint? id = some checkpoint) :
    0 ≤ checkpoint ∧ checkpoint ≤ (space.stores id).version ∧
      Mirrored checkpoint (space.stores id) id space.portfolio.occurrences :=
  sound.mirrored id trivial checkpoint h

lemma Sound.synced_of (sound : Sound count space) {checkpoint : Int}
    (h : space.portfolio.checkpoint? projectId = some checkpoint) :
    space.portfolio.SyncedTo projectId (space.stores projectId) checkpoint :=
  SoundAmong.synced_of sound trivial h

theorem Sound.perform (sound : Sound count space) (room : count + 1 < Word.half)
    (call : WorkspaceCall) : Sound (count + 1) (space.perform call) :=
  SoundAmong.perform sound room call

theorem Sound.run {calls : List WorkspaceCall} (sound : Sound count space)
    (room : count + calls.length < Word.half) :
    Sound (count + calls.length) (space.run calls) := by
  induction calls generalizing space count with
  | nil => exact sound
  | cons call calls ih =>
    rw [List.length_cons] at room ⊢
    have rest := ih (sound.perform (by omega) call) (by omega)
    rw [Nat.add_right_comm, Nat.add_assoc] at rest
    exact rest

/-! ## A sync that goes through -/

/-- What a sync that goes through has done: the occurrences of the project are those of the
patterns in its store, its checkpoint is the version of the store, and the occurrences of the
other projects are as before. -/
structure MirrorsStore (before after : Portfolio) (projectId : String) (store : PatternStore) :
    Prop where
  occurrences : ∃ patterns, store.loadPatterns = .ok patterns ∧
    ((after.occurrences.filter (·.projectId == projectId)).map (·.share)).Perm
      (patterns.map (·.share projectId))
  checkpoint : ∃ project, after.getProject? projectId = some project ∧
    project.lastSyncedVersion = store.version
  others : after.occurrences.filter (·.projectId != projectId) =
    before.occurrences.filter (·.projectId != projectId)

/-- After any run, whatever was learned, linked, unlinked, rebased and synced, and wherever
syncs broke off, a sync that goes through mirrors the store of its project. A run has fewer
calls than there are signed words. -/
theorem sync_mirrors (calls : List WorkspaceCall) (few : calls.length < Word.half)
    (projectId : String) (attempts : Nat) (now : Int) (faults : Faults) (honest : faults.Honest)
    (result : SyncResult)
    (h : (((empty.run calls).portfolio.under faults).sync attempts now projectId
      ((empty.run calls).stores projectId)).result = .ok result) :
    MirrorsStore (empty.run calls).portfolio
      (((empty.run calls).portfolio.under faults).sync attempts now projectId
        ((empty.run calls).stores projectId)).portfolio projectId
      ((empty.run calls).stores projectId) := by
  have sound := (sound_empty.run (by simpa using few) : Sound (0 + calls.length) _).under faults
  have versioned := sound.versioned projectId
  cases hcheckpoint : ((empty.run calls).portfolio.under faults).checkpoint? projectId with
  | none =>
    obtain ⟨error, herror⟩ := activeProject_unknown hcheckpoint
    simp only [Portfolio.sync, herror] at h
    cases h
  | some checkpoint =>
    obtain ⟨hnonneg, hle, -⟩ := sound.synced projectId checkpoint hcheckpoint
    have hcounted := sound.counted projectId
    obtain ⟨moved, reached, -, -, synced, hreached⟩ := Portfolio.sync_synced honest versioned
      (by omega) hnonneg hle (sound.synced_of hcheckpoint)
    obtain rfl := hreached result h
    exact {
      occurrences := synced.mirrored.exact versioned.dated
      checkpoint := Option.map_eq_some_iff.mp synced.own
      others := moved.others }

/-! Two projects, of which one was synced before it learned more. -/

def sampleImport (content : PatternContent) (frequency : Nat) : LearnerCall :=
  LearnerRun.sampleCall (.importSeeds [⟨content, frequency, 0.75, ["lang:python"]⟩])

def sampleCalls : List WorkspaceCall :=
  [.link "a" "/a" .unset, .link "b" "/b" .unset, .learn "a" (sampleImport (.quotes .single) 2),
    .learn "b" (sampleImport (.quotes .double) 4), .sync "b", .cutSync "a" 1,
    .learn "a" (sampleImport (.quotes .single) 5)].map fun request =>
      ⟨request, 3, 0, .none, Faults.honest_none⟩

lemma sampleCalls_sync : ∃ result, (((empty.run sampleCalls).portfolio.under .none).sync 3 0 "a"
    ((empty.run sampleCalls).stores "a")).result = .ok result := by
  apply exists_ok
  decide +kernel

theorem sampleCalls_mirrors : MirrorsStore (empty.run sampleCalls).portfolio
    (((empty.run sampleCalls).portfolio.under .none).sync 3 0 "a"
      ((empty.run sampleCalls).stores "a")).portfolio "a" ((empty.run sampleCalls).stores "a") := by
  obtain ⟨result, h⟩ := sampleCalls_sync
  exact sync_mirrors sampleCalls (by decide) "a" 3 0 .none Faults.honest_none result h

end Workspace

end HouseStyle
