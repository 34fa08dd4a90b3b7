import HouseStyle.Proofs.Learning.Batch
import HouseStyle.Proofs.Learning.FileSteps

/-!
# A store that shows a tree of files

What a store has of a path is the row, the concepts and the evidence of one text, or nothing.
A batch of edits that is learned from a tree makes the store show the texts of the tree at
every path whose last mention is not a deletion, whether a file is analyzed again or passed
over because its digest has not changed.
-/

namespace HouseStyle

/-- The texts of the files there are. -/
abbrev FileTree := String → Option String

/-- What is found in a text depends on the path and the text. -/
abbrev Extractor := String → String → Extraction

/-- Read from a tree. What is not there cannot be read. -/
def Sources.ofTree (extract : Extractor) (tree : FileTree) : Sources where
  read path :=
    match tree path with
    | some content => .ok content
    | none => .error (.readFailed path "not found")
  extract path content := .ok (extract path content)

/-- What is kept of a file beside the time and the revision of its analysis. -/
structure FileFacts where
  path : String
  language : Option String
  contentHash : String
  degraded : Bool
  deriving DecidableEq

def TrackedFile.facts (file : TrackedFile) : FileFacts :=
  ⟨file.filePath, file.language, file.contentHash, file.degraded⟩

namespace Extractor

variable (extract : Extractor) (path content : String)

/-- The analysis of a text. -/
def analysis : Analysis where
  language := Language.ofPath? path
  contentHash := Digest.ofText content
  concepts := (extract path content).concepts
  observations := Observation.observe path content (extract path content)
  degraded := (extract path content).degraded

def facts : FileFacts :=
  ⟨path, (Language.ofPath? path).map (·.tag), Digest.ofText content,
    (extract path content).degraded⟩

def concepts : List ConceptRow :=
  ((extract path content).concepts.map (Concept.toRow path)).map PatternStore.storedConcept

def evidence : List EvidenceRow :=
  (Observation.observe path content (extract path content)).map (Observation.toRow path)

end Extractor

/-- What a store has of a path is what is found in the text, or nothing if there is none. -/
structure Shows (extract : Extractor) (store : PatternStore) (path : String)
    (content : Option String) : Prop where
  file : (store.getFile? path).map (·.facts) = content.map (extract.facts path)
  concepts : store.concepts.filter (·.filePath == path) =
    (content.map (extract.concepts path)).getD []
  evidence : store.evidence.filter (·.filePath == path) =
    (content.map (extract.evidence path)).getD []

/-- Only these tables matter. -/
lemma Shows.congr {extract : Extractor} {store after : PatternStore} {path : String}
    {content : Option String} (shows : Shows extract store path content)
    (hfiles : after.files = store.files) (hconcepts : after.concepts = store.concepts)
    (hevidence : after.evidence = store.evidence) : Shows extract after path content where
  file := by
    simp only [PatternStore.getFile?, hfiles]
    exact shows.file
  concepts := by rw [hconcepts]; exact shows.concepts
  evidence := by rw [hevidence]; exact shows.evidence

lemma shows_empty (extract : Extractor) (path : String) : Shows extract .empty path none :=
  ⟨rfl, rfl, rfl⟩

/-! ## One step -/

section Rows

variable {ρ : Type} {key : ρ → String}

/-- Rows of a path after those of another were deleted. -/
lemma filter_key_other (rows : List ρ) {path other : String} (h : other ≠ path) :
    (rows.filter fun row => !(key row == path)).filter (key · == other) =
      rows.filter (key · == other) := by
  rw [List.filter_filter]
  apply List.filter_congr
  intro row _
  by_cases hrow : key row = other
  · simp [hrow, h]
  · simp [hrow]

lemma filter_key_self (rows : List ρ) (path : String) :
    (rows.filter fun row => !(key row == path)).filter (key · == path) = [] := by
  rw [List.filter_filter, List.filter_eq_nil_iff]
  intro row _
  simp

/-- Rows that all belong to one path. -/
lemma filter_key_all {rows : List ρ} {path : String} (h : ∀ row ∈ rows, key row = path) :
    rows.filter (key · == path) = rows := by
  rw [List.filter_eq_self]
  intro row hrow
  simp [h row hrow]

lemma filter_key_none {rows : List ρ} {path other : String} (h : ∀ row ∈ rows, key row = path)
    (hother : other ≠ path) : rows.filter (key · == other) = [] := by
  rw [List.filter_eq_nil_iff]
  intro row hrow
  simp [h row hrow, Ne.symm hother]

end Rows

namespace MergeState

variable {extract : Extractor} {state after : MergeState} {now : Int} {path content : String}

lemma examine_shows (honest : state.store.faults.Honest) {revision : Option String}
    (h : state.examine now path revision (extract.analysis path content) = .ok after) :
    Shows extract after.store path (some content) ∧
      ∀ other ≠ path, ∀ text, Shows extract state.store other text →
        Shows extract after.store other text := by
  obtain ⟨⟨numbers, hstore⟩, -⟩ := examine_ok honest h
  have hconcepts : ∀ row ∈ extract.concepts path content, row.filePath = path := by
    intro row hrow
    obtain ⟨_, hconcept, rfl⟩ := List.mem_map.mp hrow
    obtain ⟨concept, -, rfl⟩ := List.mem_map.mp hconcept
    rfl
  have hevidence : ∀ row ∈ extract.evidence path content, row.filePath = path := by
    intro row hrow
    obtain ⟨o, -, rfl⟩ := List.mem_map.mp hrow
    rfl
  have hfile := getFile?_examine honest h
  have hafterConcepts : after.store.concepts =
      state.store.concepts.filter (fun row => !(row.filePath == path)) ++
        extract.concepts path content := by
    rw [hstore]
    rfl
  have hafterEvidence : after.store.evidence =
      state.store.evidence.filter (fun row => !(row.filePath == path)) ++
        extract.evidence path content := by
    rw [hstore]
    rfl
  have hfacts : (analyzedFile now path revision (extract.analysis path content)).facts =
      extract.facts path content := by
    simp only [TrackedFile.facts, analyzedFile, Extractor.analysis, Extractor.facts]
  constructor
  · exact {
      file := by rw [hfile, if_pos rfl, Option.map_some, Option.map_some, hfacts]
      concepts := by
        rw [hafterConcepts, List.filter_append, filter_key_self, filter_key_all hconcepts,
          List.nil_append, Option.map_some, Option.getD_some]
      evidence := by
        rw [hafterEvidence, List.filter_append, filter_key_self, filter_key_all hevidence,
          List.nil_append, Option.map_some, Option.getD_some] }
  · intro other hother text shows
    exact {
      file := by
        rw [hfile, if_neg hother]
        exact shows.file
      concepts := by
        rw [hafterConcepts, List.filter_append, filter_key_other _ hother,
          filter_key_none hconcepts hother, List.append_nil]
        exact shows.concepts
      evidence := by
        rw [hafterEvidence, List.filter_append, filter_key_other _ hother,
          filter_key_none hevidence hother, List.append_nil]
        exact shows.evidence }

lemma delete_shows (honest : state.store.faults.Honest)
    (h : state.delete path = .ok after) :
    Shows extract after.store path none ∧
      ∀ other ≠ path, ∀ text, Shows extract state.store other text →
        Shows extract after.store other text := by
  obtain ⟨⟨numbers, hstore⟩, -⟩ := delete_ok honest h
  have hfile := getFile?_delete honest h
  constructor
  · exact {
      file := by
        rw [hfile, if_pos rfl]
        rfl
      concepts := by
        rw [hstore]
        exact filter_key_self _ path
      evidence := by
        rw [hstore]
        exact filter_key_self _ path }
  · intro other hother text shows
    exact {
      file := by
        rw [hfile, if_neg hother]
        exact shows.file
      concepts := by
        rw [hstore]
        exact (filter_key_other _ hother).trans shows.concepts
      evidence := by
        rw [hstore]
        exact (filter_key_other _ hother).trans shows.evidence }

end MergeState

/-! ## A batch -/

/-- A file that is there is passed over when its digest is known and it was understood. -/
lemma Sources.examine_ofTree {extract : Extractor} {tree : FileTree} {path content : String}
    (row : Option TrackedFile) (h : tree path = some content) :
    (Sources.ofTree extract tree).examine row path =
      if row.any fun file => file.contentHash == Digest.ofText content && !file.degraded then
        .unchanged
      else .analyzed (extract.analysis path content) := by
  simp only [Sources.examine, Sources.ofTree, h, Extractor.analysis]

/-- What is known of a path after a batch with its last mention was learned from a tree. -/
def textAfter (tree known : FileTree) (mention : Option ChangeKind) (path : String) :
    Option String :=
  match mention with
  | none => known path
  | some kind => if kind.needsExtraction then tree path else none

/-- What is known of each path, when one path has changed. -/
def FileTree.set (known : FileTree) (path : String) (text : Option String) : FileTree :=
  fun other => if other = path then text else known other

/-- What is known after one mention and then the later ones of other paths is what is known after
all of them. -/
lemma textAfter_cons (tree known : FileTree) {change : FileChange} {kept : List FileChange}
    (hnew : ∀ other ∈ kept, other.path ≠ change.path) (path : String) :
    textAfter tree (known.set change.path (textAfter tree known (some change.kind) change.path))
        ((Table.lookup FileChange.path kept path).map (·.kind)) path =
      textAfter tree known ((Table.lookup FileChange.path (change :: kept) path).map (·.kind))
        path := by
  unfold Table.lookup
  by_cases hchange : change.path = path
  · have hnone : kept.find? (·.path == path) = none := by
      rw [List.find?_eq_none]
      intro other hother heq
      exact hnew other hother ((beq_iff_eq.mp heq).trans hchange.symm)
    rw [hnone, List.find?_cons_of_pos (by simp [hchange])]
    simp [textAfter, FileTree.set, hchange]
  · rw [List.find?_cons_of_neg (by simp [hchange])]
    cases kept.find? (·.path == path) with
    | none => simp [textAfter, FileTree.set, Ne.symm hchange]
    | some other => simp [textAfter]

namespace MergeState

variable {extract : Extractor} {state after : MergeState} {now : Int} {tree known : FileTree}
  {start : PatternStore} {revision : Option String}

/-- A step that is right for its own path and spares the others is right for all. -/
lemma shows_set {path : String} {text : Option String}
    (shows : ∀ other, Shows extract state.store other (known other))
    (hown : Shows extract after.store path text)
    (hothers : ∀ other ≠ path, ∀ text, Shows extract state.store other text →
      Shows extract after.store other text) :
    ∀ other, Shows extract after.store other (known.set path text other) := by
  intro other
  unfold FileTree.set
  by_cases hother : other = path
  · rw [if_pos hother, hother]
    exact hown
  · rw [if_neg hother]
    exact hothers other hother _ (shows other)

/-- Texts of one path that have the same digest are the same. -/
def ToldApart (tree known : FileTree) : Prop :=
  ∀ path old new, known path = some old → tree path = some new →
    Digest.ofText old = Digest.ofText new → old = new

/-- What was learned from the tree itself is told apart. -/
lemma ToldApart.set (told : ToldApart tree known) (kind : ChangeKind) (path : String) :
    ToldApart tree (known.set path (textAfter tree known (some kind) path)) := by
  intro other old new hold hnew hdigest
  unfold FileTree.set at hold
  split at hold
  · next hother =>
    simp only [textAfter] at hold
    split at hold
    · rw [← hother, hnew] at hold
      exact (Option.some.inj hold).symm
    · cases hold
  · exact told other old new hold hnew hdigest

/-- The step for one change. -/
lemma edit_shows {change : FileChange} (honest : state.store.faults.Honest)
    (shows : ∀ path, Shows extract state.store path (known path))
    (hrow : (start.getFile? change.path).map (·.facts) =
      (known change.path).map (extract.facts change.path))
    (reads : change.kind.needsExtraction = true → (tree change.path).isSome)
    (told : ToldApart tree known)
    (h : state.step now (MergeStep.ofEdit (.ofTree extract tree) start revision change) =
      .ok after) :
    ∀ path, Shows extract after.store path
      (known.set change.path (textAfter tree known (some change.kind) change.path) path) := by
  unfold MergeStep.ofEdit at h
  simp only [textAfter]
  split at h
  · next hread =>
    rw [if_pos hread]
    obtain ⟨content, hcontent⟩ := Option.isSome_iff_exists.mp (reads hread)
    rw [Sources.examine_ofTree _ hcontent] at h
    rw [hcontent]
    split at h
    · next hsame =>
      -- the digest tells that the text is the one that is shown already
      obtain rfl : state = after := Except.ok.inj h
      obtain ⟨row, hfound, hdigest⟩ := (Option.any_eq_true _ _).mp hsame
      rw [hfound] at hrow
      obtain ⟨old, hold, hfacts⟩ := Option.map_eq_some_iff.mp hrow.symm
      have hhash : Digest.ofText old = row.contentHash := congrArg FileFacts.contentHash hfacts
      obtain ⟨hdigest, -⟩ := Bool.and_eq_true_iff.mp hdigest
      obtain rfl := told _ old content hold hcontent (hhash.trans (beq_iff_eq.mp hdigest))
      refine shows_set shows ?_ fun other _ text hshows => hshows
      rw [← hold]
      exact shows change.path
    · obtain ⟨hown, hothers⟩ := examine_shows honest h
      exact shows_set shows hown hothers
  · next hforget =>
    rw [if_neg hforget]
    obtain ⟨hown, hothers⟩ := delete_shows honest h
    exact shows_set shows hown hothers

/-- The steps for a batch with one change for each path. -/
theorem edits_show {kept : List FileChange} (honest : state.store.faults.Honest)
    (nodup : (kept.map (·.path)).Nodup)
    (shows : ∀ path, Shows extract state.store path (known path))
    (hrows : ∀ change ∈ kept, (start.getFile? change.path).map (·.facts) =
      (known change.path).map (extract.facts change.path))
    (reads : ∀ change ∈ kept, change.kind.needsExtraction = true → (tree change.path).isSome)
    (told : ToldApart tree known)
    (h : (kept.map (MergeStep.ofEdit (.ofTree extract tree) start revision)).foldlM
      (MergeState.step now) state = .ok after) :
    ∀ path, Shows extract after.store path (textAfter tree known
      ((Table.lookup FileChange.path kept path).map (·.kind)) path) := by
  induction kept generalizing state known with
  | nil =>
    obtain rfl := pure_eq_ok.mp h
    exact shows
  | cons change kept ih =>
    rw [List.map_cons, List.foldlM_cons, bind_eq_ok] at h
    obtain ⟨mid, hfirst, hrest⟩ := h
    rw [List.map_cons, List.nodup_cons] at nodup
    have hnew : ∀ other ∈ kept, other.path ≠ change.path := by
      intro other hother heq
      exact nodup.1 (heq ▸ List.mem_map_of_mem hother)
    have first := edit_shows honest shows (hrows change (by simp)) (reads change (by simp)) told
      hfirst
    have effect := step_effect honest hfirst
    have rest := ih (effect.honest honest) nodup.2 first
      (fun other hother => by
        unfold FileTree.set
        rw [if_neg (hnew other hother)]
        exact hrows other (by simp [hother]))
      (fun other hother => reads other (by simp [hother])) (told.set change.kind change.path) hrest
    intro path
    rw [← textAfter_cons tree known hnew path]
    exact rest path

end MergeState

end HouseStyle
