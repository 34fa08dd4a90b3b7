import HouseStyle.Proofs.Learning.FileRows

/-!
# Files that a batch leaves tracked

A file whose text is the tracked one is passed over. This is decided by the row that the file has
before the batch, while the batch itself may move that row to another path. A file that was edited
is tracked after the batch as it reads, unless its row is moved away and the file is not analyzed
after that.
-/

namespace HouseStyle

/-- A file that is edited in a batch loses its row: a rename takes it to another path, and the file
reads as the row says, or the rename comes later than the edit. -/
def LosesRow (store : PatternStore) (kept : List FileChange) (change : FileChange)
    (content : String) : Prop :=
  ∃ file, store.getFile? change.path = some file ∧
    ∃ rename ∈ kept, rename.kind = .renamed ∧ rename.previousPath = some change.path ∧
      (file.Current content ∨ ∃ before later, kept = before ++ change :: later ∧ rename ∈ later)

/-- The same by the changes around the edit. -/
lemma losesRow_iff {store : PatternStore} {kept before later : List FileChange}
    {change : FileChange} {content : String} (proper : Coalesce.Proper kept)
    (hsplit : kept = before ++ change :: later) (hread : change.kind.needsExtraction = true) :
    LosesRow store kept change content ↔ ∃ file, store.getFile? change.path = some file ∧
      (MovesFrom change.path later ∨ MovesFrom change.path before ∧ file.Current content) := by
  have hmoves : ∀ rename ∈ kept, (rename.kind = .renamed ∧
      rename.previousPath = some change.path ↔ rename.treatment = .rekeyed change.path) :=
    fun rename hrename => (proper.proper rename hrename).rekeyed_iff.symm
  -- the changes are for different paths, so there is no other way to split them at the edit
  have honly : ∀ before' later', kept = before' ++ change :: later' → later' = later := by
    intro before' later' hsplit'
    have hnodup := proper.nodup.of_map
    rw [hsplit] at hnodup
    obtain ⟨hnew, -⟩ := List.nodup_cons.mp (List.nodup_middle.mp hnodup)
    rw [List.mem_append, not_or] at hnew
    obtain ⟨-, -, heq⟩ :=
      (List.append_cons_inj_of_notMem hnew.1 hnew.2).mp (hsplit.symm.trans hsplit')
    exact heq.symm
  refine exists_congr fun file => and_congr_right fun _ => ?_
  constructor
  · rintro ⟨rename, hrename, hkind, hsource, hcases⟩
    have htreatment := (hmoves rename hrename).mp ⟨hkind, hsource⟩
    rcases hcases with current | ⟨before', later', hsplit', hlater⟩
    · rw [hsplit] at hrename
      rcases List.mem_append.mp hrename with hbefore | hrest
      · exact .inr ⟨⟨rename, hbefore, htreatment⟩, current⟩
      · rcases List.mem_cons.mp hrest with rfl | hlater
        · rw [FileChange.treatment_of_needsExtraction hread] at htreatment
          cases htreatment
        · exact .inl ⟨rename, hlater, htreatment⟩
    · exact .inl ⟨rename, honly _ _ hsplit' ▸ hlater, htreatment⟩
  · rintro (⟨rename, hlater, htreatment⟩ | ⟨⟨rename, hbefore, htreatment⟩, current⟩)
    · have hrename : rename ∈ kept := by simp [hsplit, hlater]
      obtain ⟨hkind, hsource⟩ := (hmoves rename hrename).mpr htreatment
      exact ⟨rename, hrename, hkind, hsource, .inr ⟨before, later, hsplit, hlater⟩⟩
    · have hrename : rename ∈ kept := by simp [hsplit, hbefore]
      obtain ⟨hkind, hsource⟩ := (hmoves rename hrename).mpr htreatment
      exact ⟨rename, hrename, hkind, hsource, .inl current⟩

/-- After a batch that was learned, a file that the batch adds or modifies and that can be read and
analyzed is tracked with the digest of its text, unless it loses its row. -/
theorem learn_tracks {policy : LearningPolicy} {sources : Sources} {projectId : String} {now : Int}
    {store : PatternStore} {changes kept : List FileChange} {origin : Origin}
    {delta : LearningDelta} {change : FileChange} {content : String} {extraction : Extraction}
    (honest : store.faults.Honest)
    (h : (learn policy sources projectId now store changes origin).result = .ok delta)
    (hkept : coalesce policy.batchFiles changes = .ok kept) (hchange : change ∈ kept)
    (hread : change.kind.needsExtraction = true)
    (hcontent : sources.read change.path = .ok content)
    (hextraction : sources.extract change.path content = .ok extraction) :
    (∃ file, (learn policy sources projectId now store changes origin).store.getFile?
        change.path = some file ∧ file.contentHash = Digest.ofText content) ↔
      ¬LosesRow store kept change content := by
  obtain ⟨task, state, after, hbegin, hsteps, hstore, -, -, hfiles⟩ :=
    LearnerCall.learn_steps honest h
  obtain rfl := LearningTask.changes_of_begin hbegin hkept
  have proper := Coalesce.coalesce_proper hkept
  obtain ⟨before, later, hsplit⟩ := List.append_of_mem hchange
  have hrow := LearningTask.edited_row honest hbegin proper.nodup hsplit hread hsteps
  rw [losesRow_iff proper hsplit hread, hstore, PatternStore.getFile?, hfiles,
    ← PatternStore.getFile?, hrow]
  have tells := sources.examine_tells (store.getFile? change.path) change.path
  cases hreading : sources.examine (store.getFile? change.path) change.path with
  | failed =>
    rw [hreading] at tells
    obtain ⟨error, herror⟩ := tells content hcontent
    cases hextraction.symm.trans herror
  | unchanged =>
    rw [hreading] at tells
    obtain ⟨content', file, hcontent', hfile, current⟩ := tells
    obtain rfl := Except.ok.inj (hcontent.symm.trans hcontent')
    by_cases hlater : MovesFrom change.path later
    · simp [hfile, hlater]
    · by_cases hbefore : MovesFrom change.path before
      · simp [Reading.row, hfile, hlater, hbefore, current]
      · simp [Reading.row, hfile, hlater, hbefore, current.1]
  | analyzed analysis =>
    rw [hreading] at tells
    obtain ⟨content', hcontent', hdigest, hchanged⟩ := tells
    obtain rfl := Except.ok.inj (hcontent.symm.trans hcontent')
    cases hfile : store.getFile? change.path with
    | none => simp [Reading.row, MergeState.analyzedFile, hdigest]
    | some file =>
      have stale : ¬file.Current content := hchanged file hfile
      by_cases hlater : MovesFrom change.path later
      · simp [hlater]
      · simp [Reading.row, hlater, stale, MergeState.analyzedFile, hdigest]

/-! A tracked file is renamed, and another file comes up in its place: with another text it is
tracked, with the same text it is not. -/

def sampleReplacement : List FileChange := [.renamed "a.ts" "b.ts", .added "a.ts"]

def sampleOtherText : Sources := ⟨fun _ => .ok "\n", fun _ _ => .ok ⟨[], false⟩⟩

lemma sampleReplacement_coalesced : coalesce 10 sampleReplacement = .ok sampleReplacement := by
  decide +kernel

lemma sampleTracked_digest :
    (sampleTracked.getFile? "a.ts").map (·.contentHash) = some (Digest.ofText "") := by
  decide +kernel

theorem sampleReplacement_tracked : ∃ delta,
    (learn LearnerRun.samplePolicy sampleOtherText "sample" 0 (sampleTracked.under .none)
      sampleReplacement .manual).result = .ok delta ∧
    ∃ file, (learn LearnerRun.samplePolicy sampleOtherText "sample" 0
        (sampleTracked.under .none) sampleReplacement .manual).store.getFile? "a.ts" = some file ∧
      file.contentHash = Digest.ofText "\n" := by
  have hlearned : (learn LearnerRun.samplePolicy sampleOtherText "sample" 0
      (sampleTracked.under .none) sampleReplacement .manual).result.isOk = true := by decide +kernel
  obtain ⟨delta, hdelta⟩ := exists_ok hlearned
  have hsplit : sampleReplacement = [.renamed "a.ts" "b.ts"] ++ .added "a.ts" :: [] := rfl
  have hchange : .added "a.ts" ∈ sampleReplacement := by decide
  refine ⟨delta, hdelta, (learn_tracks Faults.honest_none hdelta sampleReplacement_coalesced
    hchange rfl rfl rfl).mpr ?_⟩
  rw [losesRow_iff (Coalesce.coalesce_proper sampleReplacement_coalesced) hsplit rfl]
  rintro ⟨file, hfile, ⟨_, hnone, -⟩ | ⟨-, current, -⟩⟩
  · cases hnone
  · have hold : sampleTracked.getFile? "a.ts" = some file := hfile
    have hdigest := sampleTracked_digest
    rw [hold, Option.map_some, current] at hdigest
    exact absurd hdigest (by decide +kernel)

theorem sampleReplacement_untracked :
    coalesce 10 sampleReplacement = .ok sampleReplacement ∧
    .added "a.ts" ∈ sampleReplacement ∧ sampleReading.read "a.ts" = .ok "" ∧
    (sampleReading.extract "a.ts" "").isOk = true ∧
    (learn LearnerRun.samplePolicy sampleReading "sample" 0 (sampleTracked.under .none)
      sampleReplacement .manual).result.isOk = true ∧
    (learn LearnerRun.samplePolicy sampleReading "sample" 0 (sampleTracked.under .none)
      sampleReplacement .manual).store.getFile? "a.ts" = none := by
  decide +kernel

end HouseStyle
