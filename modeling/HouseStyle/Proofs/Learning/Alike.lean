import HouseStyle.Learning.Replay
import HouseStyle.Proofs.Learning.Observed
import HouseStyle.Proofs.Learning.Trees
import HouseStyle.Proofs.Learning.View
import HouseStyle.Proofs.Store.Evidence
import Mathlib

/-!
# What stores that show the same tree have in common

A store that has learned the texts of a tree and nothing else is a function of these texts, up
to the order of its rows: rows path by path, and the patterns from the evidence.
-/

namespace HouseStyle

open Observation (contents)

/-! ## What two stores that show the same have in common -/

/-- What is compared of a pattern. -/
structure PatternFacts where
  id : String
  content : PatternContent
  frequency : Nat
  examples : List PatternExample
  contexts : List String

def Pattern.facts (p : Pattern) : PatternFacts :=
  ⟨p.id, p.content, p.frequency, p.examples, p.contexts⟩

/-- Two stores have learned the same: the same tracked files, the same bags of concepts and
evidence, and the same patterns in the order of their ids. -/
structure LearnedAlike (store other : PatternStore) : Prop where
  files : (store.files.map (·.facts)).Perm (other.files.map (·.facts))
  concepts : store.concepts.Perm other.concepts
  evidence : store.evidence.Perm other.evidence
  patterns : ∃ ps qs, store.loadPatterns = .ok ps ∧ other.loadPatterns = .ok qs ∧
    ps.map (·.facts) = qs.map (·.facts)

/-- A store whose files are those of a tree, and whose patterns have been observed. -/
structure ShowsTree (extract : Extractor) (known : FileTree) (store : PatternStore) : Prop where
  nodup : (store.files.map (·.filePath)).Nodup
  shows : ∀ path, Shows extract store path (known path)
  observed : store.Observed

/-- What is known lies in a tree. -/
def Within (known tree : FileTree) : Prop :=
  ∀ path text, known path = some text → tree path = some text

namespace Extractor

variable (extract : Extractor) (tree : FileTree)

/-- How many observations there are in a file. -/
def placesAt (path : String) : Nat :=
  ((tree path).map fun text => (extract.evidence path text).length).getD 0

/-- There are fewer observations in the files of a tree than a database can count. -/
def Countable : Prop :=
  ∀ paths : List String, paths.Nodup → (paths.map (extract.placesAt tree)).sum < Word.half

end Extractor

/-- A store that has learned the texts of a tree and nothing else. -/
structure LearnedFrom (extract : Extractor) (policy : LearningPolicy) (known : FileTree)
    (store : PatternStore) : Prop extends ShowsTree extract known store where
  view : store.Invariant policy []

lemma learnedFrom_empty (extract : Extractor) (policy : LearningPolicy) :
    LearnedFrom extract policy (fun _ => none) .empty where
  nodup := List.nodup_nil
  shows := shows_empty extract
  observed := by simp [PatternStore.Observed, PatternStore.empty]
  view := PatternStore.invariant_empty policy

/-- The rule that an id stands for. -/
def contentOf (id : String) : PatternContent := (contents.find? (·.id == id)).getD default

lemma contentOf_id {c : PatternContent} (h : c ∈ contents) : contentOf c.id = c := by
  unfold contentOf
  cases hfound : contents.find? (·.id == c.id) with
  | none => simpa using List.find?_eq_none.mp hfound c h
  | some d =>
    have hid : d.id = c.id := by simpa using List.find?_some hfound
    exact Observation.content_of_id (List.mem_of_find?_eq_some hfound) h hid

namespace PatternStore

/-- What has to be stored under an id, going by the evidence. -/
def factsFor (store : PatternStore) (examples : Nat) (id : String) : PatternFacts :=
  ⟨id, contentOf id, store.countForPattern id, store.readExamples id examples,
    store.contextsFor id []⟩

end PatternStore

namespace ShowsTree

open PatternStore

variable {extract : Extractor} {known : FileTree} {store other : PatternStore}

/-- The evidence for a tree is always the same bag. -/
lemma evidence_perm (texts : ShowsTree extract known store)
    (texts' : ShowsTree extract known other) : store.evidence.Perm other.evidence :=
  perm_of_filter_key (·.filePath) fun path =>
    (texts.shows path).evidence.trans (texts'.shows path).evidence.symm

/-- The tracked files are those of which something is known. -/
lemma tracked_iff (texts : ShowsTree extract known store) (path : String) :
    (∃ file ∈ store.files, file.filePath = path) ↔ (known path).isSome := by
  have hfile := congrArg Option.isSome (texts.shows path).file
  rw [Option.isSome_map, Option.isSome_map] at hfile
  rw [← hfile, getFile?_eq_lookup, Option.isSome_iff_exists]
  constructor
  · rintro ⟨file, hmem, rfl⟩
    exact ⟨file, Table.lookup_of_mem _ texts.nodup hmem⟩
  · rintro ⟨file, hfound⟩
    exact ⟨file, Table.mem_of_lookup _ hfound⟩

/-- There are no more places than there are in the tree. -/
lemma count_lt {tree : FileTree} (texts : ShowsTree extract known store)
    (within : Within known tree) (countable : extract.Countable tree) (id : String) :
    store.countForPattern id < Word.half := by
  have hpath : ∀ path ∈ (store.evidence.map (·.filePath)).dedup,
      (store.evidence.map (·.filePath)).count path ≤ extract.placesAt tree path := by
    intro path _
    have hcount : (store.evidence.map (·.filePath)).count path =
        (store.evidence.filter (·.filePath == path)).length := by
      rw [List.count, List.countP_map, List.countP_eq_length_filter]
      rfl
    rw [hcount, (texts.shows path).evidence]
    cases hknown : known path with
    | none => exact Nat.zero_le _
    | some text =>
      rw [Extractor.placesAt, within path text hknown]
      exact Nat.le_refl _
  calc store.countForPattern id
      ≤ store.evidence.length := List.countP_le_length
    _ = ((store.evidence.map (·.filePath)).dedup.map
          fun path => (store.evidence.map (·.filePath)).count path).sum := by
        rw [List.sum_map_count_dedup_eq_length, List.length_map]
    _ ≤ ((store.evidence.map (·.filePath)).dedup.map (extract.placesAt tree)).sum :=
        List.sum_le_sum hpath
    _ < Word.half := countable _ (List.nodup_dedup _)

end ShowsTree

namespace LearnedFrom

open PatternStore

variable {extract : Extractor} {policy : LearningPolicy} {known : FileTree}
  {store : PatternStore}

lemma current_row (learned : LearnedFrom extract policy known store) {row : PatternRow}
    (hrow : row ∈ store.patterns) :
    ∃ p, Pattern.ofRow row = .ok p ∧ store.Fitting policy [] row.patternId p := by
  have hcurrent := learned.view.current row.patternId
  have hlookup : store.getPattern? row.patternId = some row :=
    Table.lookup_of_mem _ learned.view.nodup hrow
  simpa only [Current, hlookup] using hcurrent

/-- A pattern is stored exactly when there is evidence for it. -/
lemma mem_ids (learned : LearnedFrom extract policy known store) (id : String) :
    id ∈ store.patterns.map (·.patternId) ↔ 0 < store.countForPattern id := by
  constructor
  · intro h
    obtain ⟨row, hrow, rfl⟩ := List.mem_map.mp h
    obtain ⟨p, -, fits⟩ := learned.current_row hrow
    have hfrequency := fits.frequency
    have hpositive := fits.positive
    rw [fits.baseline (by simp)] at hfrequency
    omega
  · intro h
    have hcurrent := learned.view.current id
    cases hlookup : store.getPattern? id with
    | none =>
      simp only [Current, hlookup] at hcurrent
      omega
    | some row =>
      obtain ⟨hmem, hid⟩ := Table.mem_of_lookup _ hlookup
      exact List.mem_map.mpr ⟨row, hmem, hid⟩

lemma baselineOf_eq_zero (learned : LearnedFrom extract policy known store) (id : String) :
    store.baselineOf id = 0 := by
  unfold baselineOf
  cases hlookup : store.getPattern? id with
  | none => rfl
  | some row =>
    obtain ⟨hmem, hid⟩ := Table.mem_of_lookup _ hlookup
    obtain ⟨p, hp, fits⟩ := learned.current_row hmem
    exact (Pattern.ofRow_baseline hp).symm.trans (fits.baseline (by simp))

lemma row_facts (learned : LearnedFrom extract policy known store) {row : PatternRow}
    (hrow : row ∈ store.patterns) :
    ∃ p, Pattern.ofRow row = .ok p ∧ p.facts = store.factsFor policy.examples row.patternId := by
  obtain ⟨p, hp, fits⟩ := learned.current_row hrow
  have hid := Pattern.ofRow_id hp
  have hcontent : contentOf row.patternId = p.content := by
    rw [← fits.content]
    exact contentOf_id (learned.observed.content hrow hp)
  have hfrequency := fits.frequency
  rw [fits.baseline (by simp), Nat.zero_add] at hfrequency
  refine ⟨p, hp, ?_⟩
  rw [Pattern.facts, factsFor, hid, hcontent, hfrequency, fits.examples, fits.contexts (by simp)]

/-- The stored patterns in the order of their ids are what the evidence says. -/
lemma load_facts (learned : LearnedFrom extract policy known store) :
    ∃ ps, store.loadPatterns = .ok ps ∧ ps.map (·.facts) =
      (store.listPatterns.map (·.patternId)).map (store.factsFor policy.examples) := by
  have hread : ∀ row ∈ store.listPatterns, ∃ p, Pattern.ofRow row = .ok p ∧
      store.factsFor policy.examples row.patternId = p.facts := by
    intro row hrow
    obtain ⟨p, hp, hfacts⟩ := learned.row_facts (List.mem_mergeSort.mp hrow)
    exact ⟨p, hp, hfacts.symm⟩
  obtain ⟨ps, hps, hall⟩ := exists_mapM hread
  refine ⟨ps, hps, ?_⟩
  rw [List.map_map]
  exact (map_eq_map hall fun _ _ h => h).symm

lemma listPatterns_ids (store : PatternStore) : store.listPatterns.map (·.patternId) =
    (store.patterns.map (·.patternId)).mergeSort fun a b => a ≤ b := by
  unfold listPatterns
  rw [List.map_mergeSort]
  exact fun _ _ _ _ => rfl

variable {other : PatternStore} {policy' : LearningPolicy}

/-- Stores that have learned the same texts have learned the same. -/
theorem alike (learned : LearnedFrom extract policy known store)
    (learned' : LearnedFrom extract policy' known other)
    (hexamples : policy'.examples = policy.examples) : LearnedAlike store other := by
  have hfile : ∀ path, (store.getFile? path).map (·.facts) =
      (other.getFile? path).map (·.facts) := fun path =>
    (learned.shows path).file.trans (learned'.shows path).file.symm
  have hevidence := learned.evidence_perm learned'.toShowsTree
  have hlanguage : ∀ path, (store.getFile? path).bind (·.language) =
      (other.getFile? path).bind (·.language) := by
    intro path
    have h := congrArg (fun facts => facts.bind FileFacts.language) (hfile path)
    simpa [Option.bind_map, Function.comp_def, TrackedFile.facts] using h
  have hcount := countForPattern_perm hevidence
  have hfacts : store.factsFor policy.examples = other.factsFor policy'.examples := by
    funext id
    simp only [factsFor, contextsFor, hcount, hexamples, readExamples_perm hevidence,
      filesForPattern_perm hevidence hlanguage]
  have hids : (store.patterns.map (·.patternId)).Perm (other.patterns.map (·.patternId)) := by
    rw [List.perm_ext_iff_of_nodup learned.view.nodup learned'.view.nodup]
    intro id
    rw [learned.mem_ids, learned'.mem_ids, hcount]
  obtain ⟨ps, hps, hpsFacts⟩ := learned.load_facts
  obtain ⟨qs, hqs, hqsFacts⟩ := learned'.load_facts
  exact {
    files := by
      apply perm_of_filter_key FileFacts.path
      intro path
      have hown : ∀ s : PatternStore, (s.files.map (·.filePath)).Nodup →
          (s.files.map (·.facts)).filter (·.path == path) =
            ((s.getFile? path).map (·.facts)).toList := by
        intro s hnodup
        rw [List.filter_map, getFile?_eq_lookup, Option.toList_map, ← Table.filter_key _ hnodup]
        rfl
      rw [hown store learned.nodup, hown other learned'.nodup, hfile]
    concepts := perm_of_filter_key (·.filePath)
      fun path => (learned.shows path).concepts.trans (learned'.shows path).concepts.symm
    evidence := hevidence
    patterns := ⟨ps, qs, hps, hqs, by
      rw [hpsFacts, hqsFacts, listPatterns_ids, listPatterns_ids, mergeSort_texts hids, hfacts]⟩ }

end LearnedFrom

end HouseStyle
