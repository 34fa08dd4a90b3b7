import HouseStyle.Learning.Merge
import HouseStyle.Proofs.Store.Lookup

/-!
# What a step of a merge does

A step writes the concepts, the evidence and the row of one file, or of two when it moves
a file. First it is said for each step how the tables look after it. What matters to the
patterns follows: the evidence of a pattern that is not among the touched ones is as it
was, and so are the rows of the files that show it.
-/

namespace HouseStyle

namespace PatternStore

variable {store after : PatternStore}

lemma mem_shownBy {id path : String} :
    id ∈ store.shownBy path ↔ ∃ row ∈ store.evidence, row.filePath = path ∧ row.patternId = id := by
  simp [shownBy, evidenceForFile, List.mem_mergeSort, and_assoc]

lemma filePath_ne_of_notMem_shownBy {id path : String} (h : id ∉ store.shownBy path) :
    ∀ row ∈ store.evidence, row.patternId = id → row.filePath ≠ path :=
  fun row hrow hid hpath => h (mem_shownBy.mpr ⟨row, hrow, hpath, hid⟩)

lemma clearFile_ok {path : String}
    (h : store.clearFile path = .ok after) (honest : store.faults.Honest) :
    after = { store with
      concepts := store.concepts.filter (fun row => !(row.filePath == path))
      evidence := store.evidence.filter (fun row => !(row.filePath == path)) } := by
  simp only [clearFile, bind_eq_ok, pure_eq_ok] at h
  obtain ⟨⟨s1, _⟩, h1, ⟨s2, _⟩, h2, rfl⟩ := h
  obtain rfl := deleteFileConcepts_ok h1 honest
  exact deleteFileEvidence_ok h2 honest

/-- Nothing in the store lies under a path. -/
structure Bare (store : PatternStore) (path : String) : Prop where
  file : store.getFile? path = none
  concepts : ∀ row ∈ store.concepts, row.filePath ≠ path
  evidence : ∀ row ∈ store.evidence, row.filePath ≠ path

/-- Only these tables matter. -/
lemma Bare.congr {store after : PatternStore} {path : String}
    (bare : store.Bare path) (hconcepts : after.concepts = store.concepts)
    (hevidence : after.evidence = store.evidence) (hfiles : after.files = store.files) :
    after.Bare path where
  file := by rw [getFile?, hfiles]; exact bare.file
  concepts := by rw [hconcepts]; exact bare.concepts
  evidence := by rw [hevidence]; exact bare.evidence

end PatternStore

namespace MergeState

variable {state after : MergeState} {now : Int}

/-- The row of a file that was analyzed. -/
def analyzedFile (now : Int) (path : String) (revision : Option String) (analysis : Analysis) :
    TrackedFile where
  filePath := path
  language := analysis.language.map (·.tag)
  contentHash := analysis.contentHash
  degraded := analysis.degraded
  analyzedAt := now
  revision

/-- The contents that an analysis shows, under their ids. -/
def seenIn (analysis : Analysis) : List (String × PatternContent) :=
  analysis.observations.map fun o => (o.content.id, o.content)

lemma examine_ok (honest : state.store.faults.Honest) {path : String} {revision : Option String}
    {analysis : Analysis} (h : state.examine now path revision analysis = .ok after) :
    (∃ numbers, after.store = { state.store with
      concepts := state.store.concepts.filter (fun row => !(row.filePath == path)) ++
        (analysis.concepts.map (Concept.toRow path)).map PatternStore.storedConcept
      evidence := state.store.evidence.filter (fun row => !(row.filePath == path)) ++
        analysis.observations.map (Observation.toRow path)
      files := Table.put state.store.files PatternStore.sameFilePath (fun _ new => new)
        (analyzedFile now path revision analysis)
      numbers }) ∧
      after.touched = state.touched ++ state.store.shownBy path ++ (seenIn analysis).map (·.1) ∧
      after.gained = state.gained ++ seenIn analysis ∧
      after.filesTouched = state.filesTouched + 1 := by
  simp only [examine, bind_eq_ok, pure_eq_ok] at h
  obtain ⟨s1, h1, s2, h2, s3, h3, s4, h4, rfl⟩ := h
  obtain rfl := PatternStore.clearFile_ok h1 honest
  obtain ⟨_, rfl⟩ := PatternStore.insertConcepts_ok h2 honest
  obtain ⟨_, rfl⟩ := PatternStore.insertEvidence_ok h3 honest
  obtain ⟨numbers, rfl⟩ := PatternStore.upsertFile_ok h4 honest
  exact ⟨⟨numbers, rfl⟩, rfl, rfl, rfl⟩

lemma delete_ok (honest : state.store.faults.Honest) {path : String}
    (h : state.delete path = .ok after) :
    (∃ numbers, after.store = { state.store with
      concepts := state.store.concepts.filter (fun row => !(row.filePath == path))
      evidence := state.store.evidence.filter (fun row => !(row.filePath == path))
      files := state.store.files.filter (fun row => !(row.filePath == path))
      numbers }) ∧
      after.touched = state.touched ++ state.store.shownBy path ∧ after.gained = state.gained ∧
      ((state.store.getFile? path).isSome → state.filesTouched < after.filesTouched) := by
  simp only [delete, bind_eq_ok, pure_eq_ok] at h
  obtain ⟨⟨s1, rows⟩, h1, s2, h2, rfl⟩ := h
  obtain ⟨⟨numbers, rfl⟩, hrows⟩ := PatternStore.deleteFile_ok h1 honest
  obtain rfl := PatternStore.clearFile_ok h2 honest
  refine ⟨⟨numbers, rfl⟩, rfl, rfl, ?_⟩
  intro hfile
  have hpositive : 0 < rows := by
    rw [hrows, List.countP_pos_iff]
    exact List.find?_isSome.mp hfile
  simp [hpositive]

/-- The rows of files after a move, before the revision of the target is set. -/
def movedFiles (files : List TrackedFile) (source target : String) : List TrackedFile :=
  (files.filter fun row => !(row.filePath == target)).map fun row =>
    if row.filePath == source then { row with filePath := target } else row

/-- The rows of files after a move. -/
def renamedFiles (files : List TrackedFile) (source target : String)
    (revision : Option String) : List TrackedFile :=
  let moved := movedFiles files source target
  match Table.lookup TrackedFile.filePath moved target with
  | some file =>
    Table.put moved PatternStore.sameFilePath (fun _ new => new)
      { file with revision := revision.or file.revision }
  | none => moved

lemma rename_ok (honest : state.store.faults.Honest) {source target : String}
    {revision : Option String} (h : state.rename source target revision = .ok after) :
    (∃ numbers, after.store = { state.store with
      concepts := (state.store.concepts.filter (fun row => !(row.filePath == target))).map
        (fun row => if row.filePath == source then { row with filePath := target } else row)
      evidence := (state.store.evidence.filter (fun row => !(row.filePath == target))).map
        (fun row => if row.filePath == source then { row with filePath := target } else row)
      files := renamedFiles state.store.files source target revision
      numbers }) ∧
      after.touched = state.touched ++ state.store.shownBy target ++ PatternStore.shownBy
        { state.store with
          evidence := state.store.evidence.filter fun row => !(row.filePath == target) } source ∧
      after.gained = state.gained ∧ after.filesTouched = state.filesTouched + 1 := by
  simp only [rename, bind_eq_ok] at h
  obtain ⟨s1, h1, ⟨s2, _⟩, h2, ⟨s3, _⟩, h3, ⟨s4, _⟩, h4, ⟨s5, _⟩, h5, h⟩ := h
  obtain rfl := PatternStore.clearFile_ok h1 honest
  obtain ⟨⟨_, rfl⟩, -⟩ := PatternStore.deleteFile_ok h2 honest
  obtain rfl := PatternStore.rekeyConcepts_ok h3 honest
  obtain rfl := PatternStore.rekeyEvidence_ok h4 honest
  obtain rfl := PatternStore.rekeyFile_ok h5 honest
  simp only [PatternStore.getFile?_eq_lookup] at h
  unfold renamedFiles movedFiles
  split at h
  · next file hfile =>
    simp only [bind_eq_ok, pure_eq_ok] at h
    obtain ⟨s6, h6, rfl⟩ := h
    obtain ⟨numbers, rfl⟩ := PatternStore.upsertFile_ok h6 honest
    simp only [hfile]
    exact ⟨⟨numbers, rfl⟩, rfl, trivial, trivial⟩
  · next hfile =>
    simp only [bind_eq_ok, pure_eq_ok] at h
    obtain ⟨s6, rfl, rfl⟩ := h
    simp only [hfile]
    exact ⟨⟨_, rfl⟩, rfl, trivial, trivial⟩

/-! ## Files after a move -/

lemma lookup_movedFiles (files : List TrackedFile) {source target : String}
    (hne : source ≠ target) (path : String) :
    Table.lookup TrackedFile.filePath (movedFiles files source target) path =
      if path = target then
        (Table.lookup TrackedFile.filePath files source).map ({ · with filePath := target })
      else if path = source then none
      else Table.lookup TrackedFile.filePath files path := by
  induction files with
  | nil => simp [movedFiles, Table.lookup]
  | cons file files ih =>
    unfold movedFiles Table.lookup at ih ⊢
    by_cases htarget : file.filePath = target
    · rw [List.filter_cons_of_neg (by simp [htarget]), ih]
      by_cases hp : path = target
      · simp [hp, htarget, beq_eq_false_iff_ne.mpr (Ne.symm hne)]
      · simp [hp, htarget, beq_eq_false_iff_ne.mpr (Ne.symm hp)]
    · rw [List.filter_cons_of_pos (by simp [htarget]), List.map_cons, List.find?_cons, ih]
      by_cases hsource : file.filePath = source
      · by_cases hp : path = target
        · simp [hp, hsource]
        · have hp' : (target == path) = false := beq_eq_false_iff_ne.mpr (Ne.symm hp)
          by_cases hps : path = source
          · simp [hps, hsource, hne, beq_eq_false_iff_ne.mpr (Ne.symm hne)]
          · simp [hp, hps, hsource, hp', beq_eq_false_iff_ne.mpr (Ne.symm hps)]
      · by_cases hp : path = file.filePath
        · simp [hp, hsource, htarget]
        · simp [beq_eq_false_iff_ne.mpr hsource, beq_eq_false_iff_ne.mpr (Ne.symm hp)]

lemma movedFiles_self (files : List TrackedFile) (target : String) :
    movedFiles files target target = files.filter fun row => !(row.filePath == target) := by
  unfold movedFiles
  conv_rhs => rw [← List.map_id (files.filter _)]
  apply List.map_congr_left
  intro row hrow
  have hne : (row.filePath == target) = false := by simpa using (List.mem_filter.mp hrow).2
  simp [hne]

/-- A move sets the revision of the row at its target, and no other row. -/
lemma lookup_renamedFiles (files : List TrackedFile) (source target : String)
    (revision : Option String) (path : String) :
    Table.lookup TrackedFile.filePath (renamedFiles files source target revision) path =
      (Table.lookup TrackedFile.filePath (movedFiles files source target) path).map fun file =>
        if path = target then { file with revision := revision.or file.revision } else file := by
  unfold renamedFiles
  simp only
  cases hfound : Table.lookup TrackedFile.filePath (movedFiles files source target) target with
  | some file =>
    have hpath : file.filePath = target := (Table.mem_of_lookup _ hfound).2
    rw [PatternStore.keyed_files.lookup_put]
    by_cases hp : path = target
    · simp [hp, hpath, hfound]
    · simp [hp, hpath]
  | none =>
    by_cases hp : path = target
    · simp [hp, hfound]
    · simp [hp]

/-- A path away from the two ends of a move keeps its row. -/
lemma lookup_renamedFiles_other (files : List TrackedFile) {source target path : String}
    (revision : Option String) (hs : path ≠ source) (ht : path ≠ target) :
    Table.lookup TrackedFile.filePath (renamedFiles files source target revision) path =
      Table.lookup TrackedFile.filePath files path := by
  rw [lookup_renamedFiles]
  by_cases hne : source = target
  · subst hne
    rw [movedFiles_self, Table.lookup_filter_ne]
    simp [ht]
  · rw [lookup_movedFiles files hne]
    simp [ht, hs]

lemma nodup_movedFiles {files : List TrackedFile} (source target : String)
    (nodup : (files.map (·.filePath)).Nodup) :
    ((movedFiles files source target).map (·.filePath)).Nodup := by
  have hleft := Table.nodup_filter TrackedFile.filePath files
    (fun row => !(row.filePath == target)) nodup
  have hmoved : (movedFiles files source target).map (·.filePath) =
      ((files.filter fun row => !(row.filePath == target)).map (·.filePath)).map
        fun path => if path = source then target else path := by
    unfold movedFiles
    rw [List.map_map, List.map_map]
    refine List.map_congr_left fun row _ => ?_
    by_cases hrow : row.filePath = source <;> simp [hrow]
  rw [hmoved]
  refine hleft.map_on fun a ha b hb hab => ?_
  -- nothing is left at the target, so only the source is brought there
  have hne : ∀ path ∈ (files.filter fun row => !(row.filePath == target)).map (·.filePath),
      path ≠ target := by
    intro path hpath
    obtain ⟨row, hrow, rfl⟩ := List.mem_map.mp hpath
    simpa using (List.mem_filter.mp hrow).2
  split at hab <;> split at hab
  · next hsource hsource' => rw [hsource, hsource']
  · exact absurd hab.symm (hne b hb)
  · exact absurd hab (hne a ha)
  · exact hab

lemma nodup_renamedFiles {files : List TrackedFile} (source target : String)
    (revision : Option String) (nodup : (files.map (·.filePath)).Nodup) :
    ((renamedFiles files source target revision).map (·.filePath)).Nodup := by
  have hmoved := nodup_movedFiles source target nodup
  unfold renamedFiles
  simp only
  split
  · exact PatternStore.keyed_files.nodup_put _ hmoved
  · exact hmoved

/-! ## Files after a step -/

lemma getFile?_examine (honest : state.store.faults.Honest) {path : String}
    {revision : Option String} {analysis : Analysis}
    (h : state.examine now path revision analysis = .ok after) (other : String) :
    after.store.getFile? other =
      if other = path then some (analyzedFile now path revision analysis)
      else state.store.getFile? other := by
  obtain ⟨⟨numbers, hstore⟩, -⟩ := examine_ok honest h
  rw [hstore, PatternStore.getFile?_eq_lookup, PatternStore.keyed_files.lookup_put]
  by_cases hother : other = path
  · subst hother
    cases Table.lookup TrackedFile.filePath state.store.files other <;> simp [analyzedFile]
  · simp [hother, analyzedFile, PatternStore.getFile?_eq_lookup]

lemma getFile?_delete (honest : state.store.faults.Honest) {path : String}
    (h : state.delete path = .ok after) (other : String) :
    after.store.getFile? other = if other = path then none else state.store.getFile? other := by
  obtain ⟨⟨numbers, hstore⟩, -⟩ := delete_ok honest h
  rw [hstore]
  exact Table.lookup_filter_ne TrackedFile.filePath state.store.files path other

lemma getFile?_rename (honest : state.store.faults.Honest) {source target : String}
    {revision : Option String} (h : state.rename source target revision = .ok after)
    (other : String) :
    after.store.getFile? other = Table.lookup TrackedFile.filePath
      (renamedFiles state.store.files source target revision) other := by
  obtain ⟨⟨numbers, hstore⟩, -⟩ := rename_ok honest h
  rw [hstore]
  rfl

/-! ## What matters to the patterns -/

/-- Every concept and every piece of evidence belongs to a tracked file. -/
structure Tracked (store : PatternStore) : Prop where
  concepts : ∀ row ∈ store.concepts, (store.getFile? row.filePath).isSome
  evidence : ∀ row ∈ store.evidence, (store.getFile? row.filePath).isSome

/-- Only these tables matter. -/
lemma Tracked.congr {store after : PatternStore} (h : Tracked store)
    (hconcepts : after.concepts = store.concepts) (hevidence : after.evidence = store.evidence)
    (hfiles : after.files = store.files) : Tracked after where
  concepts := by simpa only [PatternStore.getFile?, hconcepts, hfiles] using h.concepts
  evidence := by simpa only [PatternStore.getFile?, hevidence, hfiles] using h.evidence

/-- A path that is not tracked has nothing under it. -/
lemma Tracked.bare {store : PatternStore} (tracked : Tracked store) {path : String}
    (h : store.getFile? path = none) : store.Bare path where
  file := h
  concepts := by
    intro row hrow hpath
    have := tracked.concepts row hrow
    simp [hpath, h] at this
  evidence := by
    intro row hrow hpath
    have := tracked.evidence row hrow
    simp [hpath, h] at this

/-- What steps do to a merge. Only concepts, evidence and files are written, and a pattern
that is not touched in the end is shown by the same places and files as before. -/
structure Effect (state after : MergeState) : Prop where
  frame : ∃ concepts evidence files numbers,
    after.store = { state.store with concepts, evidence, files, numbers }
  touched : ∀ id ∈ state.touched, id ∈ after.touched
  gained : ∃ seen, after.gained = state.gained ++ seen ∧ ∀ entry ∈ seen, entry.1 = entry.2.id
  known : ∀ row ∈ after.store.evidence, (∃ old ∈ state.store.evidence,
    old.patternId = row.patternId) ∨ ∃ entry ∈ after.gained, entry.1 = row.patternId
  evidence : ∀ id ∉ after.touched,
    after.store.evidenceForPattern id = state.store.evidenceForPattern id
  files : ∀ id ∉ after.touched, after.store.filesForPattern id = state.store.filesForPattern id
  tracked : Tracked state.store → Tracked after.store

lemma filesForPattern_congr {store after : PatternStore} {id : String}
    (hevidence : after.evidenceForPattern id = store.evidenceForPattern id)
    (hfiles : ∀ row ∈ store.evidence, row.patternId = id →
      after.getFile? row.filePath = store.getFile? row.filePath) :
    after.filesForPattern id = store.filesForPattern id := by
  unfold PatternStore.filesForPattern
  rw [hevidence]
  apply List.map_congr_left
  intro path hpath
  rw [List.mem_mergeSort, List.mem_eraseDups] at hpath
  obtain ⟨row, hrow, rfl⟩ := List.mem_map.mp hpath
  obtain ⟨hmem, hid⟩ := List.mem_filter.mp hrow
  rw [hfiles row hmem (by simpa using hid)]

lemma filter_evidence_other {rows : List EvidenceRow} {id path : String}
    (h : ∀ row ∈ rows, row.patternId = id → row.filePath ≠ path) :
    (rows.filter fun row => !(row.filePath == path)).filter (·.patternId == id) =
      rows.filter (·.patternId == id) := by
  rw [List.filter_filter]
  apply List.filter_congr
  intro row hrow
  by_cases hid : row.patternId = id
  · simp [hid, h row hrow hid]
  · simp [hid]

lemma filter_evidence_moved {rows : List EvidenceRow} {id source target : String}
    (h : ∀ row ∈ rows, row.patternId = id → row.filePath ≠ source) :
    (rows.map fun row => if row.filePath == source then { row with filePath := target } else row
      ).filter (·.patternId == id) = rows.filter (·.patternId == id) := by
  have hkey : ((fun row : EvidenceRow => row.patternId == id) ∘ fun row =>
      if row.filePath == source then { row with filePath := target } else row) =
        fun row => row.patternId == id := by
    funext row
    simp only [Function.comp_apply]
    split <;> rfl
  rw [List.filter_map, hkey]
  conv_rhs => rw [← List.map_id (List.filter _ _)]
  apply List.map_congr_left
  intro row hrow
  obtain ⟨hmem, hid⟩ := List.mem_filter.mp hrow
  simp [h row hmem (by simpa using hid)]

theorem Effect.refl (state : MergeState) : Effect state state where
  frame := ⟨_, _, _, _, rfl⟩
  touched := fun _ h => h
  gained := ⟨[], by simp, by simp⟩
  known := fun row hrow => .inl ⟨row, hrow, rfl⟩
  evidence := fun _ _ => rfl
  files := fun _ _ => rfl
  tracked := id

theorem Effect.trans {state mid after : MergeState} (first : Effect state mid)
    (second : Effect mid after) : Effect state after where
  frame := by
    obtain ⟨_, _, _, _, h1⟩ := first.frame
    obtain ⟨_, _, _, _, h2⟩ := second.frame
    rw [h2, h1]
    exact ⟨_, _, _, _, rfl⟩
  touched := fun id h => second.touched id (first.touched id h)
  gained := by
    obtain ⟨seen1, h1, hall1⟩ := first.gained
    obtain ⟨seen2, h2, hall2⟩ := second.gained
    refine ⟨seen1 ++ seen2, by rw [h2, h1, List.append_assoc], ?_⟩
    intro entry hentry
    rcases List.mem_append.mp hentry with h | h
    · exact hall1 entry h
    · exact hall2 entry h
  known := by
    obtain ⟨seen2, h2, -⟩ := second.gained
    intro row hrow
    rcases second.known row hrow with ⟨old, hold, hid⟩ | hgained
    · rcases first.known old hold with ⟨older, holder, hid'⟩ | ⟨entry, hentry, hid'⟩
      · exact .inl ⟨older, holder, hid'.trans hid⟩
      · exact .inr ⟨entry, by rw [h2]; simp [hentry], hid'.trans hid⟩
    · exact .inr hgained
  evidence := fun id h =>
    (second.evidence id h).trans (first.evidence id fun hmid => h (second.touched id hmid))
  files := fun id h =>
    (second.files id h).trans (first.files id fun hmid => h (second.touched id hmid))
  tracked := fun h => second.tracked (first.tracked h)

lemma filter_observations_unseen {path id : String} {analysis : Analysis}
    (h : id ∉ (seenIn analysis).map (·.1)) :
    (analysis.observations.map (Observation.toRow path)).filter (·.patternId == id) = [] := by
  rw [List.filter_eq_nil_iff]
  intro row hrow
  obtain ⟨o, ho, rfl⟩ := List.mem_map.mp hrow
  intro hid
  apply h
  simp only [seenIn, List.map_map, List.mem_map, Function.comp_apply]
  exact ⟨o, ho, by simpa [Observation.toRow] using hid⟩

/-! ### Rows stay with tracked files -/

lemma examine_tracked (honest : state.store.faults.Honest) {path : String}
    {revision : Option String} {analysis : Analysis}
    (h : state.examine now path revision analysis = .ok after) (tracked : Tracked state.store) :
    Tracked after.store := by
  obtain ⟨⟨_, hstore⟩, -⟩ := examine_ok honest h
  have hfile := getFile?_examine honest h
  have hkeep : ∀ p, (state.store.getFile? p).isSome → (after.store.getFile? p).isSome := by
    intro p hp
    rw [hfile]
    split <;> simp [hp]
  constructor
  · intro row hrow
    rw [hstore] at hrow
    rcases List.mem_append.mp hrow with hold | hnew
    · exact hkeep _ (tracked.concepts row (List.mem_filter.mp hold).1)
    · simp only [List.map_map, List.mem_map] at hnew
      obtain ⟨concept, -, rfl⟩ := hnew
      simp [hfile, PatternStore.storedConcept, Concept.toRow]
  · intro row hrow
    rw [hstore] at hrow
    rcases List.mem_append.mp hrow with hold | hnew
    · exact hkeep _ (tracked.evidence row (List.mem_filter.mp hold).1)
    · obtain ⟨o, -, rfl⟩ := List.mem_map.mp hnew
      simp [hfile, Observation.toRow]

lemma delete_tracked (honest : state.store.faults.Honest) {path : String}
    (h : state.delete path = .ok after) (tracked : Tracked state.store) :
    Tracked after.store := by
  obtain ⟨⟨_, hstore⟩, -⟩ := delete_ok honest h
  have hkeep : ∀ p ≠ path, (state.store.getFile? p).isSome → (after.store.getFile? p).isSome := by
    intro p hp hsome
    rwa [getFile?_delete honest h, if_neg hp]
  constructor
  · intro row hrow
    rw [hstore] at hrow
    obtain ⟨hmem, hpath⟩ := List.mem_filter.mp hrow
    exact hkeep _ (by simpa using hpath) (tracked.concepts row hmem)
  · intro row hrow
    rw [hstore] at hrow
    obtain ⟨hmem, hpath⟩ := List.mem_filter.mp hrow
    exact hkeep _ (by simpa using hpath) (tracked.evidence row hmem)

/-- A row that does not lie at the target of a move is tracked after it where it lies then. -/
lemma isSome_renamedFiles {files : List TrackedFile} {target path : String} (source : String)
    (revision : Option String) (hne : path ≠ target)
    (h : (Table.lookup TrackedFile.filePath files path).isSome) :
    (Table.lookup TrackedFile.filePath (renamedFiles files source target revision)
      (if path = source then target else path)).isSome := by
  by_cases hs : path = source
  · subst hs
    rw [if_pos rfl, lookup_renamedFiles, lookup_movedFiles files hne]
    simpa using h
  · rwa [if_neg hs, lookup_renamedFiles_other files revision hs hne]

lemma rename_tracked (honest : state.store.faults.Honest) {source target : String}
    {revision : Option String} (h : state.rename source target revision = .ok after)
    (tracked : Tracked state.store) : Tracked after.store := by
  obtain ⟨⟨_, hstore⟩, -⟩ := rename_ok honest h
  have hkeep : ∀ p ≠ target, (state.store.getFile? p).isSome →
      (after.store.getFile? (if p = source then target else p)).isSome := by
    intro p hp hsome
    rw [getFile?_rename honest h]
    exact isSome_renamedFiles source revision hp hsome
  constructor
  · intro row hrow
    rw [hstore] at hrow
    obtain ⟨old, hold, rfl⟩ := List.mem_map.mp hrow
    obtain ⟨hmem, hpath⟩ := List.mem_filter.mp hold
    have hsome := hkeep _ (by simpa using hpath) (tracked.concepts old hmem)
    by_cases hs : old.filePath = source <;> simpa [hs] using hsome
  · intro row hrow
    rw [hstore] at hrow
    obtain ⟨old, hold, rfl⟩ := List.mem_map.mp hrow
    obtain ⟨hmem, hpath⟩ := List.mem_filter.mp hold
    have hsome := hkeep _ (by simpa using hpath) (tracked.evidence old hmem)
    by_cases hs : old.filePath = source <;> simpa [hs] using hsome

/-! ### Untouched patterns keep their places -/

theorem examine_effect (honest : state.store.faults.Honest) {path : String}
    {revision : Option String} {analysis : Analysis}
    (h : state.examine now path revision analysis = .ok after) : Effect state after := by
  obtain ⟨⟨_, hstore⟩, htouched, hgained, -⟩ := examine_ok honest h
  have huntouched : ∀ id ∉ after.touched,
      id ∉ state.store.shownBy path ∧ id ∉ (seenIn analysis).map (·.1) := by
    intro id hid
    rw [htouched, List.mem_append, not_or, List.mem_append, not_or] at hid
    exact ⟨hid.1.2, hid.2⟩
  have hevidence : ∀ id ∉ after.touched,
      after.store.evidenceForPattern id = state.store.evidenceForPattern id := by
    intro id hid
    obtain ⟨hshown, hunseen⟩ := huntouched id hid
    simp only [PatternStore.evidenceForPattern, hstore, List.filter_append,
      filter_observations_unseen hunseen, List.append_nil]
    exact filter_evidence_other (PatternStore.filePath_ne_of_notMem_shownBy hshown)
  exact
    { frame := ⟨_, _, _, _, hstore⟩
      touched := fun id hid => by
        rw [htouched]
        simp [hid]
      gained := by
        refine ⟨seenIn analysis, hgained, fun entry hentry => ?_⟩
        obtain ⟨o, -, rfl⟩ := List.mem_map.mp hentry
        rfl
      known := by
        intro row hrow
        rw [hstore] at hrow
        rcases List.mem_append.mp hrow with hold | hnew
        · exact .inl ⟨row, (List.mem_filter.mp hold).1, rfl⟩
        · obtain ⟨o, ho, rfl⟩ := List.mem_map.mp hnew
          refine .inr ⟨(o.content.id, o.content), ?_, rfl⟩
          rw [hgained]
          exact List.mem_append_right _ (List.mem_map.mpr ⟨o, ho, rfl⟩)
      evidence := hevidence
      files := by
        intro id hid
        refine filesForPattern_congr (hevidence id hid) fun row hrow hrowid => ?_
        have hpath := PatternStore.filePath_ne_of_notMem_shownBy (huntouched id hid).1
          row hrow hrowid
        rw [getFile?_examine honest h, if_neg hpath]
      tracked := examine_tracked honest h }

theorem delete_effect (honest : state.store.faults.Honest) {path : String}
    (h : state.delete path = .ok after) : Effect state after := by
  obtain ⟨⟨_, hstore⟩, htouched, hgained, -⟩ := delete_ok honest h
  have hother : ∀ id ∉ after.touched, ∀ row ∈ state.store.evidence, row.patternId = id →
      row.filePath ≠ path := by
    intro id hid
    rw [htouched, List.mem_append, not_or] at hid
    exact PatternStore.filePath_ne_of_notMem_shownBy hid.2
  have hevidence : ∀ id ∉ after.touched,
      after.store.evidenceForPattern id = state.store.evidenceForPattern id := by
    intro id hid
    simp only [PatternStore.evidenceForPattern, hstore]
    exact filter_evidence_other (hother id hid)
  exact
    { frame := ⟨_, _, _, _, hstore⟩
      touched := fun id hid => by
        rw [htouched]
        exact List.mem_append_left _ hid
      gained := ⟨[], by simpa using hgained, by simp⟩
      known := by
        intro row hrow
        rw [hstore] at hrow
        exact .inl ⟨row, (List.mem_filter.mp hrow).1, rfl⟩
      evidence := hevidence
      files := by
        intro id hid
        refine filesForPattern_congr (hevidence id hid) fun row hrow hrowid => ?_
        rw [getFile?_delete honest h, if_neg (hother id hid row hrow hrowid)]
      tracked := delete_tracked honest h }

theorem rename_effect (honest : state.store.faults.Honest) {source target : String}
    {revision : Option String} (h : state.rename source target revision = .ok after) :
    Effect state after := by
  obtain ⟨⟨_, hstore⟩, htouched, hgained, -⟩ := rename_ok honest h
  have huntouched : ∀ id ∉ after.touched, id ∉ state.store.shownBy target ∧
      id ∉ PatternStore.shownBy { state.store with
        evidence := state.store.evidence.filter fun row => !(row.filePath == target) } source := by
    intro id hid
    rw [htouched, List.mem_append, not_or, List.mem_append, not_or] at hid
    exact ⟨hid.1.2, hid.2⟩
  have hevidence : ∀ id ∉ after.touched,
      after.store.evidenceForPattern id = state.store.evidenceForPattern id := by
    intro id hid
    obtain ⟨htarget, hsource⟩ := huntouched id hid
    simp only [PatternStore.evidenceForPattern, hstore]
    rw [filter_evidence_moved (PatternStore.filePath_ne_of_notMem_shownBy hsource)]
    exact filter_evidence_other (PatternStore.filePath_ne_of_notMem_shownBy htarget)
  exact
    { frame := ⟨_, _, _, _, hstore⟩
      touched := fun id hid => by
        rw [htouched]
        simp [hid]
      gained := ⟨[], by simpa using hgained, by simp⟩
      known := by
        intro row hrow
        rw [hstore] at hrow
        obtain ⟨old, hold, rfl⟩ := List.mem_map.mp hrow
        refine .inl ⟨old, (List.mem_filter.mp hold).1, ?_⟩
        split <;> rfl
      evidence := hevidence
      files := by
        intro id hid
        refine filesForPattern_congr (hevidence id hid) fun row hrow hrowid => ?_
        obtain ⟨htarget, hsource⟩ := huntouched id hid
        have ht := PatternStore.filePath_ne_of_notMem_shownBy htarget row hrow hrowid
        -- the source is asked about after the target was cleared, and this row is still there
        have hs := PatternStore.filePath_ne_of_notMem_shownBy hsource row
          (List.mem_filter.mpr ⟨hrow, by simpa using ht⟩) hrowid
        rw [getFile?_rename honest h, lookup_renamedFiles_other _ _ hs ht]
        rfl
      tracked := rename_tracked honest h }

theorem step_effect (honest : state.store.faults.Honest) {step : MergeStep}
    (h : MergeState.step now state step = .ok after) : Effect state after := by
  cases step with
  | examine path revision reading =>
    cases reading with
    | analyzed analysis => exact examine_effect honest h
    | unchanged => cases h; exact .refl state
    | failed => cases h; exact .refl state
  | delete path => exact delete_effect honest h
  | rename source target revision => exact rename_effect honest h

lemma Effect.honest (effect : Effect state after) (honest : state.store.faults.Honest) :
    after.store.faults.Honest := by
  obtain ⟨_, _, _, _, hstore⟩ := effect.frame
  rw [hstore]
  exact honest

theorem steps_effect {steps : List MergeStep} (honest : state.store.faults.Honest)
    (h : steps.foldlM (MergeState.step now) state = .ok after) : Effect state after := by
  induction steps generalizing state with
  | nil => cases h; exact .refl _
  | cons step steps ih =>
    rw [List.foldlM_cons, bind_eq_ok] at h
    obtain ⟨mid, hstep, hrest⟩ := h
    have first := step_effect honest hstep
    exact first.trans (ih (first.honest honest) hrest)

/-- A step never gives two files one path. -/
theorem step_nodup (honest : state.store.faults.Honest) {step : MergeStep}
    (h : MergeState.step now state step = .ok after)
    (nodup : (state.store.files.map (·.filePath)).Nodup) :
    (after.store.files.map (·.filePath)).Nodup := by
  cases step with
  | examine path revision reading =>
    cases reading with
    | analyzed analysis =>
      obtain ⟨⟨_, hstore⟩, -⟩ := examine_ok honest h
      rw [hstore]
      exact PatternStore.keyed_files.nodup_put _ nodup
    | unchanged => cases h; exact nodup
    | failed => cases h; exact nodup
  | delete path =>
    obtain ⟨⟨_, hstore⟩, -⟩ := delete_ok honest h
    rw [hstore]
    exact Table.nodup_filter _ _ _ nodup
  | rename source target revision =>
    obtain ⟨⟨_, hstore⟩, -⟩ := rename_ok honest h
    rw [hstore]
    exact nodup_renamedFiles source target revision nodup

theorem steps_nodup {steps : List MergeStep} (honest : state.store.faults.Honest)
    (h : steps.foldlM (MergeState.step now) state = .ok after)
    (nodup : (state.store.files.map (·.filePath)).Nodup) :
    (after.store.files.map (·.filePath)).Nodup := by
  induction steps generalizing state with
  | nil => cases h; exact nodup
  | cons step steps ih =>
    rw [List.foldlM_cons, bind_eq_ok] at h
    obtain ⟨mid, hstep, hrest⟩ := h
    exact ih ((step_effect honest hstep).honest honest) hrest (step_nodup honest hstep nodup)

/-! ## Steps that find nothing to do -/

/-- Steps without work do nothing. -/
lemma foldlM_idle {steps : List MergeStep} {now : Int} (state : MergeState)
    (h : steps.any (·.isWork) = false) : steps.foldlM (MergeState.step now) state = .ok state := by
  induction steps with
  | nil => rfl
  | cons step steps ih =>
    rw [List.any_cons, Bool.or_eq_false_iff] at h
    have hstep : state.step now step = .ok state := by
      obtain ⟨hidle, -⟩ := h
      cases step with
      | examine path revision reading =>
        cases reading with
        | analyzed analysis => cases hidle
        | unchanged => rfl
        | failed => rfl
      | delete path => cases hidle
      | rename source target revision => cases hidle
    rw [List.foldlM_cons, hstep]
    exact ih h.2

lemma deleteWhere_none {ρ : Type} {table : Table} {faults : Faults} {rows : List ρ}
    {fits : ρ → Bool} (h : ∀ row ∈ rows, fits row = false) :
    table.deleteWhere faults rows fits = .ok (rows, 0) := by
  have hcount : rows.countP fits = 0 := by simpa [List.countP_eq_zero] using h
  simp only [Table.deleteWhere, hcount, if_true]
  rfl

/-- Deleting a path that has no rows does nothing. -/
lemma delete_of_bare {path : String} (bare : state.store.Bare path) :
    state.delete path = .ok state := by
  have hfiles : ∀ row ∈ state.store.files, (row.filePath == path) = false := by
    simpa [PatternStore.getFile?, List.find?_eq_none] using bare.file
  have hconcepts : ∀ row ∈ state.store.concepts, (row.filePath == path) = false :=
    fun row hrow => beq_eq_false_iff_ne.mpr (bare.concepts row hrow)
  have hevidence : ∀ row ∈ state.store.evidence, (row.filePath == path) = false :=
    fun row hrow => beq_eq_false_iff_ne.mpr (bare.evidence row hrow)
  have hold : state.store.conceptsForFile path = [] := by
    rw [PatternStore.conceptsForFile,
      List.filter_eq_nil_iff.mpr fun row hrow => by simp [hconcepts row hrow], List.mergeSort_nil]
  have hshown : state.store.shownBy path = [] := by
    rw [PatternStore.shownBy, PatternStore.evidenceForFile,
      List.filter_eq_nil_iff.mpr fun row hrow => by simp [hevidence row hrow], List.mergeSort_nil,
      List.map_nil]
  have hfile : state.store.deleteFile path = .ok (state.store, 0) := by
    rw [PatternStore.deleteFile, deleteWhere_none hfiles]
    rfl
  have hclear : state.store.clearFile path = .ok state.store := by
    rw [PatternStore.clearFile, PatternStore.deleteFileConcepts, deleteWhere_none hconcepts]
    simp only [bind, Except.bind, pure, Except.pure, PatternStore.deleteFileEvidence,
      deleteWhere_none hevidence]
  simp [delete, hfile, hclear, hold, hshown, bind, Except.bind, pure, Except.pure,
    ConceptCounts.add]

/-- A step counts its file, or leaves the store alone. -/
theorem step_counts (tracked : Tracked state.store) (honest : state.store.faults.Honest)
    {step : MergeStep} (h : MergeState.step now state step = .ok after) :
    state.filesTouched < after.filesTouched ∨
      (after.filesTouched = state.filesTouched ∧ after.store = state.store) := by
  cases step with
  | examine path revision reading =>
    cases reading with
    | analyzed analysis =>
      obtain ⟨-, -, -, hcount⟩ := examine_ok honest h
      exact .inl (by omega)
    | unchanged => cases h; exact .inr ⟨rfl, rfl⟩
    | failed => cases h; exact .inr ⟨rfl, rfl⟩
  | delete path =>
    cases hfile : state.store.getFile? path with
    | none =>
      have hsame : state = after :=
        Except.ok.inj ((delete_of_bare (tracked.bare hfile)).symm.trans h)
      exact .inr (hsame ▸ ⟨rfl, rfl⟩)
    | some file => exact .inl ((delete_ok honest h).2.2.2 (by rw [hfile]; rfl))
  | rename source target revision =>
    obtain ⟨-, -, -, hcount⟩ := rename_ok honest h
    exact .inl (by omega)

theorem steps_count {steps : List MergeStep} (tracked : Tracked state.store)
    (honest : state.store.faults.Honest)
    (h : steps.foldlM (MergeState.step now) state = .ok after) :
    state.filesTouched < after.filesTouched ∨
      (after.filesTouched = state.filesTouched ∧ after.store = state.store) := by
  induction steps generalizing state with
  | nil => cases h; exact .inr ⟨rfl, rfl⟩
  | cons step steps ih =>
    rw [List.foldlM_cons, bind_eq_ok] at h
    obtain ⟨mid, hstep, hrest⟩ := h
    have effect := step_effect honest hstep
    have later := ih (effect.tracked tracked) (effect.honest honest) hrest
    rcases step_counts tracked honest hstep with hmore | ⟨hsame, hstore⟩
    · refine .inl ?_
      rcases later with hlater | ⟨hlater, -⟩ <;> omega
    · rwa [hsame, hstore] at later

end MergeState

end HouseStyle
