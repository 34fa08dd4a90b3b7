import HouseStyle.Proofs.Learning.Versions
import Mathlib.Logic.Function.Basic

/-!
# Learners that share a store

Several learners work on one store. Each reads the version first, then the rows of its files one
by one, then the files, and last it merges. Every one of these steps finds the store as the
others have left it. A merge is a transaction that compares the version with the one that was
read. Versions never go back and every change moves them on, so a merge that goes through has
read what is still there.
-/

namespace HouseStyle

/-! ## Calls in flight -/

/-- A batch that has been checked, with the changes as they were given. -/
structure Batch where
  policy : LearningPolicy
  given : List FileChange
  origin : Origin
  changes : List FileChange
  coalesced : coalesce policy.batchFiles given = .ok changes
  live : origin.isCancelled = false

namespace Batch

/-- Check a batch that was given. -/
def check? (policy : LearningPolicy) (given : List FileChange) (origin : Origin) : Option Batch :=
  match coalesced : coalesce policy.batchFiles given with
  | .error _ => none
  | .ok changes =>
    if live : origin.isCancelled = false then
      some ⟨policy, given, origin, changes, coalesced, live⟩
    else none

/-- What was read for a batch. -/
def task (batch : Batch) (version : Nat) (mode : LearningMode) (tracked : List TrackedFile) :
    LearningTask :=
  ⟨batch.changes, batch.origin, version, tracked, mode⟩

/-- The mode for a store with so many files. -/
def modeFor (batch : Batch) (files : Nat) : LearningMode :=
  .choose batch.changes.length files batch.policy.threshold

/-- The rows that a store has for the batch. -/
def rowsIn (batch : Batch) (store : PatternStore) : List TrackedFile :=
  (mentionedPaths batch.changes).filterMap store.getFile?

end Batch

/-- The time of a merge, and the faults of the database then. -/
structure Moment where
  now : Int
  faults : Faults
  signed : Word.isSigned now = true
  honest : faults.Honest

/-- A call that is ready for its merge. -/
inductive Prepared where
  | ofBatch (batch : Batch) (version : Nat) (mode : LearningMode) (tracked : List TrackedFile)
    (sources : Sources)
  | ofSeeds (policy : LearningPolicy) (seeds : List PatternSeed) (version : Nat)
    (checked : seeds.forM PatternSeed.check = .ok ()) (nonempty : seeds.isEmpty = false)

namespace Prepared

/-- The version that the call has read. -/
def version : Prepared → Nat
  | ofBatch _ version .. => version
  | ofSeeds _ _ version .. => version

/-- The call as it is performed by a learner that is alone. -/
def call (moment : Moment) : Prepared → LearnerCall
  | ofBatch batch _ _ _ sources =>
    ⟨.learn sources batch.given batch.origin, batch.policy, moment.now, moment.faults,
      moment.signed, moment.honest⟩
  | ofSeeds policy seeds .. =>
    ⟨.importSeeds seeds, policy, moment.now, moment.faults, moment.signed, moment.honest⟩

/-- The transaction of the call. A batch without work comes to none. -/
def transaction? (moment : Moment) (store : PatternStore) :
    Prepared → Option (Except StorageError Merged)
  | ofBatch batch version mode tracked sources =>
    let steps := (batch.task version mode tracked).steps sources
    if steps.any (·.isWork) then
      some ((store.under moment.faults).merge batch.policy batch.origin mode version moment.now
        steps)
    else none
  | ofSeeds policy seeds version .. =>
    some ((store.under moment.faults).importSeeds policy version moment.now seeds)

/-- The last phase of the call. -/
def finish (projectId : String) (moment : Moment) (store : PatternStore) : Prepared → Learned
  | ofBatch batch version mode tracked sources =>
    (batch.task version mode tracked).finish batch.policy sources projectId moment.now
      (store.under moment.faults)
  | ofSeeds policy seeds version .. =>
    .ofMerge (store.under moment.faults) projectId version
      ((store.under moment.faults).importSeeds policy version moment.now seeds)

/-- What was read is what the store says. -/
def Agrees (store : PatternStore) : Prepared → Prop
  | ofBatch batch _ mode tracked _ =>
    mode = batch.modeFor store.files.length ∧ tracked = batch.rowsIn store
  | ofSeeds .. => True

end Prepared

/-- A call in flight. -/
inductive Draft where
  /-- The version is read; the mode and the rows of some paths may still be missing. -/
  | reading (batch : Batch) (version : Nat) (mode : Option LearningMode)
    (tracked : List TrackedFile) (left : List String)
  | prepared (call : Prepared)

namespace Draft

def version : Draft → Nat
  | reading _ version .. => version
  | prepared call => call.version

/-- What was read is what the store says, as far as it was read. -/
def Agrees (store : PatternStore) : Draft → Prop
  | reading batch _ mode tracked left =>
    (∀ m ∈ mode, m = batch.modeFor store.files.length) ∧
      tracked ++ left.filterMap store.getFile? = batch.rowsIn store
  | prepared call => call.Agrees store

end Draft

/-! ## The learners and their steps -/

/-- A store that learners share, what each of them is about, and the calls whose transactions
have gone through so far. -/
structure SharedStore (ι : Type) where
  store : PatternStore
  draft : ι → Option Draft
  committed : List LearnerCall

/-- One step of one learner. -/
inductive LearnerStep (ι : Type) where
  /-- Check a batch and read the version. -/
  | learn (learner : ι) (policy : LearningPolicy) (changes : List FileChange) (origin : Origin)
  /-- Check seeds and read the version. -/
  | importSeeds (learner : ι) (policy : LearningPolicy) (seeds : List PatternSeed)
  | countFiles (learner : ι)
  /-- Read the row of the next path. -/
  | readRow (learner : ι)
  /-- Read the files, each at its time, and analyze them. -/
  | readFiles (learner : ι) (sources : Sources)
  | merge (learner : ι) (moment : Moment)
  /-- Give the call up before its merge. -/
  | callOff (learner : ι)

namespace LearnerStep

variable {ι : Type}

/-- The step ends the call that the learner is about. -/
def Ends (learner : ι) : LearnerStep ι → Prop
  | merge other _ | callOff other => other = learner
  | _ => False

end LearnerStep

namespace SharedStore

variable {ι : Type} [DecidableEq ι]

def start : SharedStore ι := ⟨.empty, fun _ => none, []⟩

/-- Only what one learner is about changes. -/
def put (shared : SharedStore ι) (learner : ι) (draft : Option Draft) : SharedStore ι :=
  { shared with draft := Function.update shared.draft learner draft }

/-- Take a step. One that does not fit what its learner is about does nothing. -/
def step (projectId : String) (shared : SharedStore ι) : LearnerStep ι → SharedStore ι
  | .learn learner policy changes origin =>
    match shared.draft learner, Batch.check? policy changes origin with
    | none, some batch =>
      shared.put learner (some (.reading batch (readWord shared.store.version) none []
        (mentionedPaths batch.changes)))
    | _, _ => shared
  | .importSeeds learner policy seeds =>
    match shared.draft learner with
    | none =>
      if h : seeds.forM PatternSeed.check = .ok () ∧ seeds.isEmpty = false then
        shared.put learner
          (some (.prepared (.ofSeeds policy seeds (readWord shared.store.version) h.1 h.2)))
      else shared
    | some _ => shared
  | .countFiles learner =>
    match shared.draft learner with
    | some (.reading batch version none tracked left) =>
      shared.put learner (some (.reading batch version
        (some (batch.modeFor shared.store.files.length)) tracked left))
    | _ => shared
  | .readRow learner =>
    match shared.draft learner with
    | some (.reading batch version mode tracked (path :: left)) =>
      shared.put learner (some (.reading batch version mode
        (tracked ++ (shared.store.getFile? path).toList) left))
    | _ => shared
  | .readFiles learner sources =>
    match shared.draft learner with
    | some (.reading batch version (some mode) tracked []) =>
      shared.put learner (some (.prepared (.ofBatch batch version mode tracked sources)))
    | _ => shared
  | .merge learner moment =>
    match shared.draft learner with
    | some (.prepared call) =>
      { store := (call.finish projectId moment shared.store).store
        draft := Function.update shared.draft learner none
        committed :=
          match call.transaction? moment shared.store with
          | some (.ok _) => shared.committed ++ [call.call moment]
          | _ => shared.committed }
    | _ => shared
  | .callOff learner => shared.put learner none

/-- Take steps one after another. -/
def run (projectId : String) (shared : SharedStore ι) (steps : List (LearnerStep ι)) :
    SharedStore ι :=
  steps.foldl (step projectId) shared

end SharedStore

/-! ## The merge of one call -/

/-- The deltas of a chain lead to different versions. -/
lemma PatternStore.Chained.nodup_deltas {store : PatternStore} (chained : store.Chained) :
    (store.deltas.map (·.resultingVersion)).Nodup := by
  have hversions : store.deltas.map (·.resultingVersion) =
      (List.range store.version.toNat).map fun n : Nat => (n : Int) + 1 := by
    have h := congrArg (List.map Prod.snd) chained.deltas
    simpa only [List.map_map, Function.comp_def] using h
  rw [hversions]
  refine List.nodup_range.map fun a b h => ?_
  have heq : (a : Int) + 1 = b + 1 := h
  omega

namespace Batch

lemma begin_eq (batch : Batch) (store : PatternStore) :
    LearningTask.begin batch.policy store batch.given batch.origin =
      .ok (batch.task (readWord store.version) (batch.modeFor store.files.length)
        (batch.rowsIn store)) := by
  unfold LearningTask.begin
  rw [batch.coalesced]
  simp only [bind, Except.bind, batch.live, Bool.false_eq_true, if_false]
  rfl

end Batch

namespace Prepared

variable {call : Prepared} {moment : Moment} {store : PatternStore} {projectId : String}

/-- A call that has read what the store says ends as it does when it is performed alone. -/
lemma finish_eq_perform (hversion : call.version = readWord store.version)
    (agrees : call.Agrees store) :
    call.finish projectId moment store = (call.call moment).perform projectId store ∧
      call.transaction? moment store =
        (call.call moment).request.merge? (call.call moment).policy moment.now
          (store.under moment.faults) := by
  cases call with
  | ofBatch batch version mode tracked sources =>
    obtain ⟨rfl, rfl⟩ := agrees
    obtain rfl : version = readWord store.version := hversion
    have hbegin := batch.begin_eq (store.under moment.faults)
    constructor
    · simp only [finish, LearnerCall.perform, Prepared.call, learn, hbegin]
      rfl
    · simp only [transaction?, LearnerRequest.merge?, Prepared.call, hbegin, Batch.task,
        batch.live, Bool.false_eq_true, if_false]
      rfl
  | ofSeeds policy seeds version checked nonempty =>
    obtain rfl : version = readWord store.version := hversion
    constructor
    · simp only [finish, LearnerCall.perform, Prepared.call, importPatterns, checked, nonempty,
        Bool.false_eq_true, if_false]
      rfl
    · simp only [transaction?, LearnerRequest.merge?, Prepared.call, checked, nonempty,
        Bool.false_eq_true, if_false]
      rfl

lemma requireVersion_stale {version : Nat} (h : version ≠ readWord store.version) :
    store.requireVersion version = .error (.versionConflict version (readWord store.version)) :=
  if_neg (Ne.symm h)

/-- A transaction on a store that has moved on is rejected. -/
lemma transaction?_stale (stale : call.version ≠ readWord store.version)
    {outcome : Except StorageError Merged} (h : call.transaction? moment store = some outcome) :
    outcome = .error (.versionConflict call.version (readWord store.version)) := by
  have hversion : (store.under moment.faults).requireVersion call.version = _ :=
    requireVersion_stale stale
  cases call with
  | ofBatch batch version mode tracked sources =>
    simp only [transaction?] at h
    split at h
    · obtain rfl := Option.some.inj h
      unfold PatternStore.merge
      erw [hversion]
      rfl
    · cases h
  | ofSeeds policy seeds version checked nonempty =>
    obtain rfl := Option.some.inj h
    unfold PatternStore.importSeeds
    erw [hversion]
    rfl

/-- A call ends as its transaction does. -/
lemma finish_of_some {outcome : Except StorageError Merged}
    (h : call.transaction? moment store = some outcome) :
    call.finish projectId moment store =
      .ofMerge (store.under moment.faults) projectId call.version outcome := by
  cases call with
  | ofBatch batch version mode tracked sources =>
    simp only [transaction?] at h
    split at h
    · next hwork =>
      obtain rfl := Option.some.inj h
      simp only [finish, LearningTask.finish, LearningTask.merge, hwork, if_true]
      simp only [Batch.task, batch.live, Bool.false_eq_true, if_false]
      rfl
    · cases h
  | ofSeeds policy seeds version checked nonempty =>
    obtain rfl := Option.some.inj h
    rfl

/-- A call without a transaction leaves the store alone. -/
lemma finish_of_none (h : call.transaction? moment store = none) :
    (call.finish projectId moment store).store = store.under moment.faults := by
  cases call with
  | ofBatch batch version mode tracked sources =>
    simp only [transaction?] at h
    split at h
    · cases h
    · next hidle =>
      simp only [finish, LearningTask.finish, LearningTask.merge]
      split <;> rfl
  | ofSeeds policy seeds version checked nonempty => cases h

end Prepared

namespace LearnerCall

/-- A call leaves the store alone or moves it to the next version. -/
lemma perform_moves (call : LearnerCall) (projectId : String) {store : PatternStore}
    (settled : Settled store) (room : store.version + 1 < Word.half) :
    (call.perform projectId store).store = store.under call.faults ∨
      (call.perform projectId store).store.version = store.version + 1 := by
  have advances := (call.perform_settled projectId settled room).1
  unfold Learned.Advances at advances
  split at advances
  · exact .inl advances
  · obtain ⟨hpreceding, ⟨-, hstore⟩ | ⟨hresulting, hversion, -⟩⟩ := advances
    · exact .inl hstore
    · right
      have hbefore : (store.under call.faults).version = store.version := rfl
      omega

/-- A call is not concerned with the faults that the database had before. -/
lemma perform_under (call : LearnerCall) (projectId : String) (store : PatternStore)
    (faults : Faults) :
    call.perform projectId (store.under faults) = call.perform projectId store := rfl

end LearnerCall

/-! ## Steps -/

/-- What a call in flight has read is either out of date or what the store says. -/
structure Draft.Current (draft : Draft) (store : PatternStore) : Prop where
  version : (draft.version : Int) ≤ store.version
  agrees : draft.version = store.version → draft.Agrees store

lemma Draft.Current.under {draft : Draft} {store : PatternStore} (current : draft.Current store)
    (faults : Faults) : draft.Current (store.under faults) := by
  refine ⟨current.version, fun h => ?_⟩
  have agrees := current.agrees h
  cases draft with
  | reading => exact agrees
  | prepared call => cases call <;> exact agrees

/-- When the version moves on, all that was read before is out of date. -/
lemma Draft.Current.moved {draft : Draft} {store after : PatternStore}
    (current : draft.Current store) (h : after.version = store.version + 1) :
    draft.Current after := by
  have hle := current.version
  exact ⟨by omega, fun heq => by omega⟩

namespace SharedStore

variable {ι : Type} [DecidableEq ι] {shared after : SharedStore ι} {projectId : String}
  {move : LearnerStep ι}

/-- What holds between two steps. -/
structure Sound (projectId : String) (shared : SharedStore ι) : Prop where
  settled : LearnerCall.Settled shared.store
  drafts : ∀ learner draft, shared.draft learner = some draft → draft.Current shared.store
  replayed : shared.store.under .none =
    (LearnerRun.run projectId .empty shared.committed).under .none

omit [DecidableEq ι] in
lemma sound_start (projectId : String) : Sound projectId (start : SharedStore ι) where
  settled := LearnerCall.settled_empty
  drafts := nofun
  replayed := rfl

lemma Sound.put (sound : Sound projectId shared) (learner : ι) {draft : Option Draft}
    (h : ∀ d ∈ draft, d.Current shared.store) : Sound projectId (shared.put learner draft) where
  settled := sound.settled
  replayed := sound.replayed
  drafts := by
    intro other d hd
    by_cases hother : other = learner
    · subst hother
      exact h d (by simpa [SharedStore.put] using hd)
    · exact sound.drafts other d (by simpa [SharedStore.put, hother] using hd)

/-- A draft that goes on reads what the store says. -/
lemma Sound.put_next (sound : Sound projectId shared) (learner : ι) {draft next : Draft}
    (hdraft : shared.draft learner = some draft) (hversion : next.version = draft.version)
    (h : draft.Agrees shared.store → next.Agrees shared.store) :
    Sound projectId (shared.put learner (some next)) := by
  have current := sound.drafts learner draft hdraft
  apply sound.put
  rintro _ ⟨⟩
  exact ⟨by rw [hversion]; exact current.version,
    fun heq => h (current.agrees (by rw [← hversion]; exact heq))⟩

omit [DecidableEq ι] in
/-- What a merge does to the store: the call is performed on what it has read, or nothing
changes. -/
lemma merge_cases (sound : Sound projectId shared) {learner : ι} {call : Prepared}
    (hdraft : shared.draft learner = some (.prepared call)) (moment : Moment) :
    (∃ merged, call.transaction? moment shared.store = some (.ok merged) ∧
      call.version = shared.store.version ∧
      (call.finish projectId moment shared.store).store =
        ((call.call moment).perform projectId shared.store).store) ∨
    (∀ merged, call.transaction? moment shared.store ≠ some (.ok merged)) ∧
      (call.finish projectId moment shared.store).store = shared.store.under moment.faults := by
  have hword := natCast_readWord sound.settled.chained.counted
  cases houtcome : call.transaction? moment shared.store with
  | none => exact .inr ⟨nofun, Prepared.finish_of_none houtcome⟩
  | some outcome =>
    cases outcome with
    | error error =>
      refine .inr ⟨nofun, ?_⟩
      rw [Prepared.finish_of_some houtcome]
      rfl
    | ok merged =>
      by_cases hversion : call.version = readWord shared.store.version
      · have heq : (call.version : Int) = shared.store.version := by omega
        have agrees := (sound.drafts learner _ hdraft).agrees heq
        have hperform : call.finish projectId moment shared.store = _ :=
          (Prepared.finish_eq_perform hversion agrees).1
        exact .inl ⟨merged, rfl, heq, by rw [hperform]⟩
      · cases Prepared.transaction?_stale hversion houtcome

/-- A learner merges the call that it is about. -/
def merged (projectId : String) (shared : SharedStore ι) (learner : ι) (call : Prepared)
    (moment : Moment) : SharedStore ι where
  store := (call.finish projectId moment shared.store).store
  draft := Function.update shared.draft learner none
  committed :=
    match call.transaction? moment shared.store with
    | some (.ok _) => shared.committed ++ [call.call moment]
    | _ => shared.committed

/-- What a step does. Either nothing happens, or one learner begins a call, goes on with the one it
is about, merges it, or gives it up. -/
inductive Takes (projectId : String) (shared : SharedStore ι) :
    LearnerStep ι → SharedStore ι → Prop where
  | nothing (move : LearnerStep ι) : Takes projectId shared move shared
  | begins {move : LearnerStep ι} {learner : ι} {draft : Draft} :
    shared.draft learner = none → draft.version = readWord shared.store.version →
    draft.Agrees shared.store → Takes projectId shared move (shared.put learner (some draft))
  | continues {move : LearnerStep ι} {learner : ι} {draft next : Draft} :
    shared.draft learner = some draft → next.version = draft.version →
    (draft.Agrees shared.store → next.Agrees shared.store) →
    Takes projectId shared move (shared.put learner (some next))
  | merges {learner : ι} {call : Prepared} (moment : Moment) :
    shared.draft learner = some (.prepared call) →
    Takes projectId shared (.merge learner moment) (shared.merged projectId learner call moment)
  | givesUp (learner : ι) : Takes projectId shared (.callOff learner) (shared.put learner none)

lemma takes_step (projectId : String) (shared : SharedStore ι) (move : LearnerStep ι) :
    Takes projectId shared move (shared.step projectId move) := by
  cases move with
  | learn learner policy changes origin =>
    simp only [step]
    split
    · next hidle _ => exact .begins hidle rfl ⟨nofun, rfl⟩
    · exact .nothing _
  | importSeeds learner policy seeds =>
    simp only [step]
    split
    · next hidle =>
      split
      · exact .begins hidle rfl trivial
      · exact .nothing _
    · exact .nothing _
  | countFiles learner =>
    simp only [step]
    split
    · next hdraft =>
      exact .continues hdraft rfl fun agrees => ⟨fun m hm => by cases hm; rfl, agrees.2⟩
    · exact .nothing _
  | readRow learner =>
    simp only [step]
    split
    · next batch version mode tracked path left hdraft =>
      refine .continues hdraft rfl fun agrees => ⟨agrees.1, ?_⟩
      rw [← agrees.2, List.append_assoc]
      congr 1
      cases hfile : shared.store.getFile? path <;> simp [hfile]
    · exact .nothing _
  | readFiles learner sources =>
    simp only [step]
    split
    · next batch version mode tracked hdraft =>
      refine .continues hdraft rfl fun agrees => ⟨agrees.1 mode rfl, ?_⟩
      simpa using agrees.2
    · exact .nothing _
  | merge learner moment =>
    simp only [step]
    split
    · next hdraft => exact .merges moment hdraft
    · exact .nothing _
  | callOff learner => exact .givesUp learner

/-- A merge leaves a sound state behind: what is in flight is out of date or not concerned. -/
lemma Sound.merged (sound : Sound projectId shared)
    (room : shared.store.version + 1 < Word.half) {learner : ι} {call : Prepared}
    (hdraft : shared.draft learner = some (.prepared call)) (moment : Moment) :
    Sound projectId (shared.merged projectId learner call moment) := by
  have others : ∀ {after : PatternStore}, (∀ draft : Draft, draft.Current shared.store →
      draft.Current after) → ∀ other draft,
      Function.update shared.draft learner none other = some draft → draft.Current after := by
    intro after keeps other draft hother
    by_cases hsame : other = learner
    · simp [hsame] at hother
    · rw [Function.update_of_ne hsame] at hother
      exact keeps draft (sound.drafts other draft hother)
  unfold SharedStore.merged
  rcases merge_cases sound hdraft moment with ⟨merged, houtcome, -, hstore⟩ | ⟨hnone, hstore⟩
  · rw [houtcome, hstore]
    have settled := ((call.call moment).perform_settled projectId sound.settled room).2
    refine ⟨settled, others fun draft current => ?_, ?_⟩
    · rcases (call.call moment).perform_moves projectId sound.settled room with hleft | hmoved
      · rw [hleft]
        exact current.under _
      · exact current.moved hmoved
    · rw [← LearnerCall.perform_under _ _ _ .none, sound.replayed, LearnerCall.perform_under,
        LearnerRun.run_append]
      rfl
  · have hcommitted : (match call.transaction? moment shared.store with
        | some (.ok _) => shared.committed ++ [call.call moment]
        | _ => shared.committed) = shared.committed := by
      split
      · next merged hmerged => exact absurd hmerged (hnone merged)
      · rfl
    rw [hcommitted, hstore]
    exact ⟨sound.settled.under _, others fun draft current => current.under _, sound.replayed⟩

theorem Takes.sound (takes : Takes projectId shared move after) (sound : Sound projectId shared)
    (room : shared.store.version + 1 < Word.half) : Sound projectId after := by
  have hword := natCast_readWord sound.settled.chained.counted
  cases takes with
  | nothing => exact sound
  | begins _ hversion agrees =>
    apply sound.put
    rintro _ ⟨⟩
    exact ⟨by omega, fun _ => agrees⟩
  | continues hdraft hversion keeps => exact sound.put_next _ hdraft hversion keeps
  | merges moment hdraft => exact sound.merged room hdraft moment
  | givesUp learner => exact sound.put learner nofun

/-- A step moves the version on by at most one, and never back. -/
lemma Takes.version (takes : Takes projectId shared move after) (sound : Sound projectId shared)
    (room : shared.store.version + 1 < Word.half) :
    shared.store.version ≤ after.store.version ∧
      after.store.version ≤ shared.store.version + 1 := by
  cases takes with
  | nothing | begins | continues | givesUp => exact ⟨Int.le_refl _, Int.le_add_one (Int.le_refl _)⟩
  | @merges learner call moment hdraft =>
    unfold SharedStore.merged
    rcases merge_cases sound hdraft moment with ⟨merged, -, -, hstore⟩ | ⟨-, hstore⟩
    · rw [hstore]
      rcases (call.call moment).perform_moves projectId sound.settled room with hleft | hmoved
      · rw [hleft]
        exact ⟨Int.le_refl _, Int.le_add_one (Int.le_refl _)⟩
      · exact ⟨by rw [hmoved]; omega, Int.le_of_eq hmoved⟩
    · rw [hstore]
      exact ⟨Int.le_refl _, Int.le_add_one (Int.le_refl _)⟩

/-- What a learner is about stays with the version that it has read until it ends. -/
lemma Takes.draft (takes : Takes projectId shared move after) {learner : ι} {draft : Draft}
    (hdraft : shared.draft learner = some draft) (hends : ¬ move.Ends learner) :
    ∃ next, after.draft learner = some next ∧ next.version = draft.version := by
  cases takes with
  | nothing => exact ⟨draft, hdraft, rfl⟩
  | @begins _ other new hnone =>
    have hne : learner ≠ other := by
      rintro rfl
      rw [hdraft] at hnone
      cases hnone
    exact ⟨draft, by simp [SharedStore.put, hne, hdraft], rfl⟩
  | @continues _ other old new hold hversion =>
    by_cases hsame : learner = other
    · subst hsame
      obtain rfl : draft = old := Option.some.inj (hdraft.symm.trans hold)
      exact ⟨new, by simp [SharedStore.put], hversion⟩
    · exact ⟨draft, by simp [SharedStore.put, hsame, hdraft], rfl⟩
  | @merges other call moment =>
    have hne : learner ≠ other := fun h => hends h.symm
    exact ⟨draft, by simp [SharedStore.merged, hne, hdraft], rfl⟩
  | givesUp other =>
    have hne : learner ≠ other := fun h => hends h.symm
    exact ⟨draft, by simp [SharedStore.put, hne, hdraft], rfl⟩

/-- A step with which a call begins reads the version. -/
lemma Takes.begun (takes : Takes projectId shared move after) {learner : ι} {draft : Draft}
    (hidle : shared.draft learner = none) (h : after.draft learner = some draft) :
    draft.version = readWord shared.store.version := by
  cases takes with
  | nothing => simp [hidle] at h
  | @begins _ other new _ hversion =>
    by_cases hsame : learner = other
    · subst hsame
      obtain rfl : new = draft := by simpa [SharedStore.put] using h
      exact hversion
    · simp [SharedStore.put, hsame, hidle] at h
  | @continues _ other old new hold =>
    have hne : learner ≠ other := by
      rintro rfl
      rw [hidle] at hold
      cases hold
    simp [SharedStore.put, hne, hidle] at h
  | @merges other call moment =>
    by_cases hsame : learner = other
    · simp [SharedStore.merged, hsame] at h
    · simp [SharedStore.merged, hsame, hidle] at h
  | givesUp other =>
    by_cases hsame : learner = other
    · simp [SharedStore.put, hsame] at h
    · simp [SharedStore.put, hsame, hidle] at h

/-! ## Runs -/

lemma run_append (projectId : String) (shared : SharedStore ι) (first more : List (LearnerStep ι)) :
    shared.run projectId (first ++ more) = (shared.run projectId first).run projectId more :=
  List.foldl_append

/-- All steps keep a state sound, and versions never go back. -/
theorem run_sound (sound : Sound projectId shared) {steps : List (LearnerStep ι)}
    (few : shared.store.version + steps.length < Word.half) :
    Sound projectId (shared.run projectId steps) ∧
      shared.store.version ≤ (shared.run projectId steps).store.version ∧
      (shared.run projectId steps).store.version ≤ shared.store.version + steps.length := by
  induction steps generalizing shared with
  | nil => exact ⟨sound, Int.le_refl _, by simp [run]⟩
  | cons move steps ih =>
    rw [List.length_cons] at few
    have room : shared.store.version + 1 < Word.half := by omega
    have takes := takes_step projectId shared move
    obtain ⟨hlow, hhigh⟩ := takes.version sound room
    obtain ⟨last, hmore, hmost⟩ := ih (takes.sound sound room) (by omega)
    rw [List.length_cons]
    refine ⟨last, ?_, ?_⟩
    · exact Int.le_trans hlow hmore
    · show (((shared.step projectId move).run projectId steps).store.version) ≤ _
      omega

/-- Whatever is done from the start on. -/
lemma sound_run (projectId : String) {steps : List (LearnerStep ι)}
    (few : steps.length < Word.half) : Sound projectId (start.run projectId steps) := by
  have few_steps : (start : SharedStore ι).store.version + steps.length < Word.half := by
    simpa [start, PatternStore.empty] using few
  exact (run_sound (sound_start projectId) few_steps).1

lemma version_append (projectId : String) (first more : List (LearnerStep ι))
    (few : (first ++ more).length < Word.half) :
    (start.run projectId first).store.version ≤
      (start.run projectId (first ++ more)).store.version := by
  have hstart : (start : SharedStore ι).store.version = 0 := rfl
  rw [List.length_append] at few
  obtain ⟨sound, -, hgrown⟩ := run_sound (sound_start projectId)
    (show start.store.version + first.length < Word.half by omega)
  obtain ⟨-, hmore, -⟩ := run_sound sound
    (show (start.run projectId first).store.version + more.length < Word.half by omega)
  rw [run_append]
  exact hmore

lemma run_draft (projectId : String) {learner : ι} {draft : Draft}
    (hdraft : shared.draft learner = some draft)
    {steps : List (LearnerStep ι)} (hends : ∀ move ∈ steps, ¬ move.Ends learner) :
    ∃ next, (shared.run projectId steps).draft learner = some next ∧
      next.version = draft.version := by
  induction steps generalizing shared draft with
  | nil => exact ⟨draft, hdraft, rfl⟩
  | cons move steps ih =>
    obtain ⟨hfirst, hrest⟩ := List.forall_mem_cons.mp hends
    obtain ⟨mid, hmid, hversion⟩ := (takes_step projectId shared move).draft hdraft hfirst
    obtain ⟨next, hnext, hlast⟩ := ih hmid hrest
    exact ⟨next, hnext, hlast.trans hversion⟩

/-- What is said of the merge of a call that begins with the step `first` after `earlier`, and
merges after `between`. -/
structure Isolated (projectId : String) (earlier : List (LearnerStep ι)) (first : LearnerStep ι)
    (between : List (LearnerStep ι)) (call : Prepared) (moment : Moment) : Prop where
  /-- If it goes through, the version has been the same since the call has read it. -/
  alone : ∀ merged, call.transaction? moment
      (start.run projectId (earlier ++ first :: between)).store = some (.ok merged) →
    ∀ done, done <+: first :: between →
      (start.run projectId (earlier ++ done)).store.version =
        (start.run projectId earlier).store.version
  /-- If the version has moved on, it is rejected. -/
  rejected : (start.run projectId (earlier ++ first :: between)).store.version ≠
      (start.run projectId earlier).store.version →
    ∀ outcome, call.transaction? moment
      (start.run projectId (earlier ++ first :: between)).store = some outcome →
    ∃ error, (call.finish projectId moment
        (start.run projectId (earlier ++ first :: between)).store).result = .error error ∧
      error = .mergeFailed (readWord (start.run projectId earlier).store.version)
        (.versionConflict (readWord (start.run projectId earlier).store.version)
          (readWord (start.run projectId (earlier ++ first :: between)).store.version)) ∧
      error.code = "CONSISTENCY_VIOLATION"
  /-- If it does not go through, whatever the reason, nothing changes. -/
  unchanged : (∀ merged, call.transaction? moment
      (start.run projectId (earlier ++ first :: between)).store ≠ some (.ok merged)) →
    (call.finish projectId moment
        (start.run projectId (earlier ++ first :: between)).store).store =
      (start.run projectId (earlier ++ first :: between)).store.under moment.faults

/-- A call in flight has read the version with its first step, and no merge that goes through
comes in between. -/
theorem isolated (projectId : String) {earlier between : List (LearnerStep ι)}
    {first : LearnerStep ι} {learner : ι} {draft : Draft} {call : Prepared} {moment : Moment}
    (few : (earlier ++ first :: between).length < Word.half)
    (hidle : (start.run projectId earlier).draft learner = none)
    (hbegun : (start.run projectId (earlier ++ [first])).draft learner = some draft)
    (hends : ∀ move ∈ between, ¬ move.Ends learner)
    (hcall : (start.run projectId (earlier ++ first :: between)).draft learner =
      some (.prepared call)) :
    Isolated projectId earlier first between call moment := by
  have few_earlier : earlier.length < Word.half := by
    rw [List.length_append] at few
    omega
  have before := sound_run projectId few_earlier
  have found := sound_run projectId few
  -- the version of the call is the one of the state in which it has begun
  have hversion : call.version = readWord (start.run projectId earlier).store.version := by
    rw [run_append] at hbegun
    have hread := (takes_step projectId _ first).begun hidle hbegun
    obtain ⟨next, hnext, hsame⟩ := run_draft projectId hbegun hends
    rw [← run_append, ← run_append, List.singleton_append, hcall] at hnext
    obtain rfl := Option.some.inj hnext
    exact hsame.trans hread
  have hbeforeWord := natCast_readWord before.settled.chained.counted
  refine ⟨?_, ?_, ?_⟩
  · intro merged hmerged done hdone
    rcases merge_cases found hcall moment with ⟨_, -, hcurrent, -⟩ | ⟨hnone, -⟩
    · obtain ⟨rest, hrest⟩ := hdone
      have hsplit : earlier ++ done ++ rest = earlier ++ first :: between := by
        rw [List.append_assoc, hrest]
      have hlater := version_append projectId (earlier ++ done) rest (by rw [hsplit]; exact few)
      have hlow := version_append projectId earlier done (by
        rw [← hsplit, List.length_append] at few
        omega)
      rw [hsplit] at hlater
      omega
    · exact absurd hmerged (hnone merged)
  · intro hmoved outcome houtcome
    have stale : call.version ≠
        readWord (start.run projectId (earlier ++ first :: between)).store.version := by
      have := natCast_readWord found.settled.chained.counted
      omega
    have hrejected := Prepared.transaction?_stale stale houtcome
    rw [Prepared.finish_of_some houtcome, hrejected, hversion]
    exact ⟨_, rfl, rfl, rfl⟩
  · intro hnone
    rcases merge_cases found hcall moment with ⟨merged, hmerged, -, -⟩ | ⟨-, hstore⟩
    · exact absurd hmerged (hnone merged)
    · exact hstore

/-- However the steps of learners that share a store are interleaved: every merge is isolated
from those of the other learners, no two logged deltas lead to the same version, and the store is
what the calls that went through lead to when they are performed one after another. A run has
fewer steps than there are signed words. -/
theorem run_serialisable (projectId : String) (steps : List (LearnerStep ι))
    (few : steps.length < Word.half) :
    ((start.run projectId steps).store.deltas.map (·.resultingVersion)).Nodup ∧
    (start.run projectId steps).store.under .none =
      (LearnerRun.run projectId .empty (start.run projectId steps).committed).under .none ∧
    ∀ earlier first between learner moment later draft call,
      steps = earlier ++ first :: between ++ .merge learner moment :: later →
      (start.run projectId earlier).draft learner = none →
      (start.run projectId (earlier ++ [first])).draft learner = some draft →
      (∀ move ∈ between, ¬ move.Ends learner) →
      (start.run projectId (earlier ++ first :: between)).draft learner = some (.prepared call) →
      Isolated projectId earlier first between call moment := by
  have sound := sound_run projectId few
  refine ⟨sound.settled.chained.nodup_deltas, sound.replayed, ?_⟩
  rintro earlier first between learner moment later draft call rfl hidle hbegun hends hcall
  rw [List.length_append] at few
  exact isolated projectId (by omega) hidle hbegun hends hcall

/-! Two learners bring the same pattern in. The second has read the version before the first has
merged, so its merge is rejected. -/

def sampleMoment : Moment := ⟨0, .none, LearnerRun.isSigned_zero, Faults.honest_none⟩

def sampleSeeds : List PatternSeed := [⟨.quotes .single, 2, 0.75, ["lang:python"]⟩]

def sampleRace : List (LearnerStep Bool) :=
  [.importSeeds false LearnerRun.samplePolicy sampleSeeds,
    .importSeeds true LearnerRun.samplePolicy sampleSeeds,
    .merge false sampleMoment, .merge true sampleMoment]

/-- What the second learner is about when it merges. -/
def sampleLate : Prepared := .ofSeeds LearnerRun.samplePolicy sampleSeeds 0 (by decide) rfl

theorem sampleRace_serialisable : sampleRace.length < Word.half ∧
    (start.run "sample" sampleRace).store.version = 1 ∧
    (start.run "sample" sampleRace).committed.length = 1 ∧
    ((start.run "sample" sampleRace).store.deltas.map (·.resultingVersion)).Nodup ∧
    (start.run "sample" sampleRace).store.under .none =
      (LearnerRun.run "sample" .empty (start.run "sample" sampleRace).committed).under .none ∧
    Isolated "sample" (sampleRace.take 1) (.importSeeds true LearnerRun.samplePolicy sampleSeeds)
      [.merge false sampleMoment] sampleLate sampleMoment := by
  obtain ⟨hdeltas, hserial, hmerges⟩ := run_serialisable "sample" sampleRace (by decide)
  have hisolated := hmerges (sampleRace.take 1) _ [.merge false sampleMoment] true sampleMoment []
    (.prepared sampleLate) sampleLate rfl rfl rfl
    (List.forall_mem_singleton.mpr Bool.false_ne_true) rfl
  exact ⟨by decide, by decide +kernel, by decide +kernel, hdeltas, hserial, hisolated⟩

end SharedStore

end HouseStyle
