import HouseStyle.Proofs.Portfolio.Runs
import Mathlib

/-!
# Stores that are replaced

Another store, with a history of its own, can be attached for a project: by hand, or because the
project is linked again after its store in memory was dropped. A sync knows of the old store only
by the checkpoint of the project. It refuses a store that is behind it, and mixes what both stores
hold otherwise: here a project mirrors its store as long as that was not replaced after a sync, and
again after a rebase.
-/

namespace HouseStyle

/-- What a history leaves carries the versions at which it was written. There are no more of
them than calls. -/
lemma LearnerRun.run_versioned (projectId : String) {store : PatternStore}
    {history : List LearnerCall} (versioned : store.Versioned)
    (room : store.version + history.length < Word.half) :
    (run projectId store history).Versioned ∧
      (run projectId store history).version ≤ store.version + history.length := by
  induction history generalizing store with
  | nil => exact ⟨versioned, by simp [run]⟩
  | cons call history ih =>
    rw [List.length_cons] at room ⊢
    obtain ⟨versioned', -, hle, -⟩ :=
      call.perform_versioned projectId versioned (by omega)
    obtain ⟨versioned'', hle'⟩ := ih versioned' (by omega)
    exact ⟨versioned'', by rw [run]; omega⟩

/-- Whether something of a project was synced: its checkpoint was moved, or it has occurrences. -/
def Portfolio.hasSynced (portfolio : Portfolio) (projectId : String) : Bool :=
  (portfolio.checkpoint? projectId).any (0 < ·) ||
    portfolio.occurrences.any (·.projectId == projectId)

lemma Portfolio.not_hasSynced {portfolio : Portfolio} {projectId : String} :
    ¬ portfolio.hasSynced projectId ↔
      (∀ checkpoint, portfolio.checkpoint? projectId = some checkpoint → checkpoint ≤ 0) ∧
        ∀ row ∈ portfolio.occurrences, row.projectId ≠ projectId := by
  simp [hasSynced, Option.any_eq_false]

/-- The project that a call takes back all occurrences of. -/
def WorkspaceCall.rebased? (call : WorkspaceCall) (portfolio : Portfolio) : Option String :=
  match call.request with
  | .rebase projectId =>
    if ((portfolio.under call.faults).rebase call.attempts call.now projectId).isOk then
      some projectId
    else none
  | _ => none

namespace Workspace

/-- Another store for a project. -/
def attach (space : Workspace) (projectId : String) (store : PatternStore) : Workspace where
  portfolio := space.portfolio
  stores id := if id = projectId then store else space.stores id

end Workspace

/-- A workspace, with the projects whose stores were replaced after a sync and that were not
rebased since then. -/
structure Deployment where
  space : Workspace
  replaced : List String

/-- What can happen to a workspace whose stores may be replaced. -/
inductive DeploymentCall where
  | ask (call : WorkspaceCall)
  /-- A store that was filled for some project is attached for a project. -/
  | attach (projectId owner : String) (history : List LearnerCall)

/-- How many versions a call can lead to. -/
def DeploymentCall.weight : DeploymentCall → Nat
  | ask _ => 1
  | attach _ _ history => history.length

namespace Deployment

def empty : Deployment := ⟨.empty, []⟩

def perform (deployment : Deployment) : DeploymentCall → Deployment
  | .ask call => {
      space := deployment.space.perform call
      replaced := deployment.replaced.filter
        fun id => call.rebased? deployment.space.portfolio != some id }
  | .attach projectId owner history => {
      space := deployment.space.attach projectId (LearnerRun.run owner .empty history)
      replaced :=
        if deployment.space.portfolio.hasSynced projectId then projectId :: deployment.replaced
        else deployment.replaced }

/-- Calls one after another. -/
def run (deployment : Deployment) (calls : List DeploymentCall) : Deployment :=
  calls.foldl perform deployment

end Deployment

namespace Workspace.SoundAmong

open PatternStore

variable {space : Workspace} {projectId : String} {count : Nat} {trusted : String → Prop}

/-- A call keeps the projects that are trusted, and a rebase adds one. -/
lemma perform_rebased (sound : SoundAmong trusted count space) (room : count + 1 < Word.half)
    (call : WorkspaceCall) :
    SoundAmong (fun id => trusted id ∨ call.rebased? space.portfolio = some id) (count + 1)
      (space.perform call) := by
  cases hrebased : call.rebased? space.portfolio with
  | none => exact (sound.perform room call).weaken fun id h => h.resolve_right (by simp)
  | some projectId =>
    unfold WorkspaceCall.rebased? at hrebased
    split at hrebased
    · next id hrequest =>
      split at hrebased
      · next hok =>
        obtain rfl := Option.some.inj hrebased
        obtain ⟨⟨after, signatures⟩, h⟩ := exists_ok hok
        have rebased := (sound.under call.faults).rebased call.honest h
        have hperform : space.perform call = { space with portfolio := after } := by
          unfold Workspace.perform
          rw [hrequest]
          simp only [h]
          rfl
        rw [hperform]
        exact (rebased.mono (Nat.le_succ _)).weaken fun other trust =>
          trust.imp_right fun heq => (Option.some.inj heq).symm
      · cases hrebased
    · cases hrebased

/-- Where nothing of a project was synced, any store will do. -/
lemma attach (sound : SoundAmong trusted count space) {store : PatternStore}
    (versioned : store.Versioned) (hcounted : store.version ≤ count) (projectId : String) :
    SoundAmong (fun id => trusted id ∧ (id = projectId → ¬ space.portfolio.hasSynced id)) count
      (space.attach projectId store) where
  versioned := fun id => by
    simp only [Workspace.attach]
    split
    · exact versioned
    · exact sound.versioned id
  counted := fun id => by
    simp only [Workspace.attach]
    split
    · exact hcounted
    · exact sound.counted id
  known := sound.known
  mirrored := by
    rintro id ⟨trust, unsynced⟩ checkpoint (h : space.portfolio.checkpoint? id = _)
    obtain ⟨hnonneg, hle, mirrored⟩ := sound.mirrored id trust checkpoint h
    simp only [Workspace.attach]
    split
    · next hid =>
      obtain ⟨hle, hnone⟩ := Portfolio.not_hasSynced.mp (unsynced hid)
      obtain rfl : checkpoint = 0 := Int.le_antisymm (hle checkpoint h) hnonneg
      exact ⟨hnonneg, versioned.counted, mirrored_zero versioned.dated hnone⟩
    · exact ⟨hnonneg, hle, mirrored⟩

end Workspace.SoundAmong

namespace Deployment

variable {deployment : Deployment} {count : Nat}

/-- The projects whose stores are still those that they were synced with are trusted. -/
def Sound (count : Nat) (deployment : Deployment) : Prop :=
  Workspace.SoundAmong (· ∉ deployment.replaced) count deployment.space

lemma sound_empty : Sound 0 .empty :=
  Workspace.sound_empty.weaken fun _ _ => trivial

lemma Sound.perform (sound : deployment.Sound count) (call : DeploymentCall)
    (room : count + call.weight < Word.half) :
    (deployment.perform call).Sound (count + call.weight) := by
  cases call with
  | ask call =>
    refine (sound.perform_rebased room call).weaken fun id hid => ?_
    by_contra hnot
    obtain ⟨hmem, hrebased⟩ := not_or.mp hnot
    exact hid (List.mem_filter.mpr ⟨not_not.mp hmem, by simpa using hrebased⟩)
  | attach projectId owner history =>
    have room' : PatternStore.empty.version + history.length < Word.half := by
      simp only [DeploymentCall.weight] at room
      show (0 : Int) + history.length < Word.half
      omega
    obtain ⟨versioned, hle⟩ := LearnerRun.run_versioned owner
      ⟨Int.le_refl _, PatternStore.dated_empty⟩ room'
    have hcounted : (LearnerRun.run owner .empty history).version ≤
        (count + history.length : Nat) := by
      have hle : _ ≤ (0 : Int) + history.length := hle
      omega
    refine ((sound.mono (Nat.le_add_right _ _)).attach versioned hcounted projectId).weaken ?_
    intro id hid
    simp only [Deployment.perform] at hid
    split at hid
    · obtain ⟨hne, hmem⟩ := not_or.mp (mt List.mem_cons.mpr hid)
      exact ⟨hmem, fun heq => absurd heq hne⟩
    · next hunsynced => exact ⟨hid, fun heq => heq ▸ hunsynced⟩

lemma Sound.run {calls : List DeploymentCall} (sound : deployment.Sound count)
    (room : count + (calls.map (·.weight)).sum < Word.half) :
    (deployment.run calls).Sound (count + (calls.map (·.weight)).sum) := by
  induction calls generalizing deployment count with
  | nil => exact sound
  | cons call calls ih =>
    rw [List.map_cons, List.sum_cons] at room ⊢
    have rest := ih (sound.perform call (by omega)) (by omega)
    rw [Nat.add_assoc] at rest
    exact rest

end Deployment

/-! ## Syncs -/

/-- A store that is behind the checkpoint of its project has nothing to read, and is refused. -/
lemma Portfolio.sync_behind {portfolio : Portfolio} {projectId : String} {project : ProjectRow}
    {store : PatternStore} (versioned : store.Versioned)
    (hproject : portfolio.activeProject projectId = .ok project)
    (behind : store.version < project.lastSyncedVersion) (attempts : Nat) (now : Int) :
    (portfolio.sync attempts now projectId store).result = .error (.storeBehind projectId
        (readWord store.version) (readWord project.lastSyncedVersion)) ∧
      (portfolio.sync attempts now projectId store).portfolio = portfolio := by
  have counted := versioned.counted
  have hid : project.id = projectId :=
    (Table.mem_of_lookup ProjectRow.id (activeProject_ok hproject)).2
  have hbehind : readWord store.version < readWord project.lastSyncedVersion := by
    unfold readWord
    omega
  have hnone : store.patternsSince (readWord project.lastSyncedVersion) = [] := by
    refine List.eq_nil_iff_forall_not_mem.mpr fun row hrow => ?_
    obtain ⟨hmem, later⟩ := PatternStore.Snapshot.mem_patternsSince.mp hrow
    have := (versioned.dated.patterns row hmem).2.1
    rw [natCast_readWord (by omega)] at later
    omega
  obtain ⟨groups, hgroups⟩ : ∃ groups,
      store.changesSince (readWord project.lastSyncedVersion) = .ok groups :=
    ⟨_, by rw [PatternStore.changesSince, hnone]; rfl⟩
  simp [sync, hproject, syncFrom, hgroups, hbehind, hid]

/-- How a sync treats the store that it is given: it refuses one that is behind the checkpoint,
and what goes through mirrors one that was not replaced. -/
structure Guarded (before : Portfolio) (synced : Portfolio.Synced) (projectId : String)
    (store : PatternStore) (replaced : Prop) : Prop where
  behind : ∀ project, before.activeProject projectId = .ok project →
    store.version < project.lastSyncedVersion →
      synced.result = .error (.storeBehind projectId (readWord store.version)
        (readWord project.lastSyncedVersion)) ∧ synced.portfolio = before
  mirrors : ¬ replaced → ∀ result, synced.result = .ok result →
    Workspace.MirrorsStore before synced.portfolio projectId store

namespace Deployment

/-- After any run in which stores are replaced, a sync refuses a store that is behind the
checkpoint of its project, and mirrors any other one, unless that was attached when something of
the project was synced already, and the project was not rebased since then. A run comes to fewer
versions than there are signed words. -/
theorem run_guarded (calls : List DeploymentCall)
    (few : (calls.map (·.weight)).sum < Word.half) (projectId : String) (attempts : Nat)
    (now : Int) (faults : Faults) (honest : faults.Honest) :
    Guarded ((empty.run calls).space.portfolio.under faults)
      (((empty.run calls).space.portfolio.under faults).sync attempts now projectId
        ((empty.run calls).space.stores projectId))
      projectId ((empty.run calls).space.stores projectId)
      (projectId ∈ (empty.run calls).replaced) := by
  have sound : (empty.run calls).Sound (0 + (calls.map (·.weight)).sum) :=
    sound_empty.run (by omega)
  have sound' := sound.under faults
  constructor
  · intro project hproject behind
    exact Portfolio.sync_behind (sound.versioned projectId) hproject behind attempts now
  · intro kept result h
    obtain ⟨moved, synced⟩ := sound'.sync_ok (by omega) kept honest h
    exact {
      occurrences := synced.mirrored.exact (sound.versioned projectId).dated
      checkpoint := Option.map_eq_some_iff.mp synced.own
      others := moved.others }

/-! A project whose store is lost when it is unlinked, and filled anew. -/

def sampleAsk (request : WorkspaceRequest) : DeploymentCall :=
  .ask ⟨request, 3, 0, .none, Faults.honest_none⟩

def sampleReplaced : List DeploymentCall :=
  [sampleAsk (.link "a" "/a" .unset),
    sampleAsk (.learn "a" (Workspace.sampleImport (.quotes .single) 2)), sampleAsk (.sync "a"),
    sampleAsk (.unlink "a"), sampleAsk (.link "b" "/a" .unset), .attach "a" "a" [],
    sampleAsk (.learn "a" (Workspace.sampleImport (.quotes .double) 4))]

def sampleRebased : List DeploymentCall := sampleReplaced ++ [sampleAsk (.rebase "a")]

/-- The sync at the end of a run. -/
def sampleSynced (calls : List DeploymentCall) : Portfolio.Synced :=
  ((empty.run calls).space.portfolio.under .none).sync 3 0 "a"
    ((empty.run calls).space.stores "a")

theorem sampleRebased_guarded : (sampleSynced sampleRebased).result.isOk = true ∧
    "a" ∉ (empty.run sampleRebased).replaced ∧
    Guarded ((empty.run sampleRebased).space.portfolio.under .none) (sampleSynced sampleRebased)
      "a" ((empty.run sampleRebased).space.stores "a")
      ("a" ∈ (empty.run sampleRebased).replaced) :=
  ⟨by decide +kernel, by decide +kernel,
    run_guarded sampleRebased (by decide) "a" 3 0 .none Faults.honest_none⟩

/-- Without the rebase, the new store has come to the version of the old one: the sync goes
through and has nothing to do, and the old store's occurrence is left. -/
theorem sampleReplaced_mixed : ∃ result, (sampleSynced sampleReplaced).result = .ok result ∧
    ¬ Workspace.MirrorsStore ((empty.run sampleReplaced).space.portfolio.under .none)
      (sampleSynced sampleReplaced).portfolio "a"
      ((empty.run sampleReplaced).space.stores "a") := by
  have hleft : (((sampleSynced sampleReplaced).portfolio.occurrences.filter
      (·.projectId == "a")).map (·.share)).map (·.signature) = ["style:quotes:single"] := by
    decide +kernel
  have hright : (((empty.run sampleReplaced).space.stores "a").loadPatterns.toOption.map
      fun patterns => patterns.map (·.content.signature)) = some ["style:quotes:double"] := by
    decide +kernel
  obtain ⟨result, h⟩ : ∃ result, (sampleSynced sampleReplaced).result = .ok result :=
    exists_ok (by decide +kernel)
  refine ⟨result, h, fun mirrors => ?_⟩
  obtain ⟨patterns, hpatterns, hperm⟩ := mirrors.occurrences
  rw [hpatterns] at hright
  have hshares : (patterns.map (·.share "a")).map (·.signature) = ["style:quotes:double"] := by
    rw [List.map_map]
    exact Option.some.inj hright
  have hsame := hperm.map Share.signature
  rw [hleft, hshares] at hsame
  exact absurd hsame (by decide)

end Deployment

end HouseStyle
