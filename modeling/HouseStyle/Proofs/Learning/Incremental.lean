import HouseStyle.Proofs.Learning.Alike
import HouseStyle.Proofs.Learning.Progress
import Mathlib.Data.List.Chain

/-!
# Learning edits is learning from scratch

Whatever the history of a tree of files, learning its edits batch by batch leads to the same
files, concepts, evidence and patterns as learning the last tree from an empty store. Every
edit that is accepted goes through, and both stores show the same texts in the end.
-/

namespace HouseStyle

/-! ## Edits -/

/-- A batch of changes, and the tree of files as it is when the batch is learned. -/
structure Edit where
  tree : FileTree
  changes : List FileChange
  origin : Origin
  policy : LearningPolicy
  now : Int
  signed : Word.isSigned now = true

namespace Edit

variable {extract : Extractor} {known : FileTree} {store : PatternStore} {edit : Edit}

/-- The call that learns an edit, on a sound database. -/
def call (extract : Extractor) (edit : Edit) : LearnerCall where
  request := .learn (.ofTree extract edit.tree) edit.changes edit.origin
  policy := edit.policy
  now := edit.now
  faults := .none
  signed := edit.signed
  honest := Faults.honest_none

/-- What is known of the tree after an edit. -/
def learned (edit : Edit) (known : FileTree) : FileTree :=
  fun path => textAfter edit.tree known (lastMention? edit.changes path) path

/-- Every path at which the tree has changed is mentioned. -/
def Covers (edit : Edit) (before : FileTree) : Prop :=
  ∀ path, before path ≠ edit.tree path → (lastMention? edit.changes path).isSome

/-- Every file that has to be read is there. -/
def Reads (edit : Edit) : Prop :=
  ∀ path kind, lastMention? edit.changes path = some kind → kind.needsExtraction = true →
    (edit.tree path).isSome

/-- A store that shows a tree shows the tree after an edit, once it has learned the edit. -/
theorem showsTree {projectId : String} {delta : LearningDelta}
    (texts : ShowsTree extract known store) (edits : Coalesce.Edits edit.changes)
    (reads : edit.Reads) (told : MergeState.ToldApart edit.tree known)
    (h : ((edit.call extract).perform projectId store).result = .ok delta) :
    ShowsTree extract (edit.learned known) ((edit.call extract).perform projectId store).store := by
  have moved : ShowsTree extract known (store.under .none) :=
    ⟨texts.nodup, fun path => (texts.shows path).congr rfl rfl rfl, texts.observed⟩
  obtain ⟨task, hbegin, hcases⟩ := LearnerCall.learn_ok h
  obtain ⟨hcoalesce, -⟩ := LearningTask.begin_ok hbegin
  have kept := Coalesce.coalesce_edits edits hcoalesce
  have hsteps := LearningTask.steps_edits (.ofTree extract edit.tree) hbegin kept.edits
  have hlast : ∀ change ∈ task.changes,
      lastMention? edit.changes change.path = some change.kind := by
    intro change hchange
    rw [← kept.last, Table.lookup_of_mem _ kept.nodup hchange, Option.map_some]
  have shown : ∀ {state : MergeState},
      (task.steps (.ofTree extract edit.tree)).foldlM (MergeState.step edit.now)
        (.start (store.under .none)) = .ok state →
      ∀ path, Shows extract state.store path (edit.learned known path) := by
    intro state hstate path
    rw [hsteps] at hstate
    have hstart : ∀ path, Shows extract (MergeState.start (store.under .none)).store path
        (known path) := moved.shows
    have hshow := MergeState.edits_show Faults.honest_none kept.nodup hstart
      (fun change _ => (moved.shows change.path).file)
      (fun change hchange => reads _ _ (hlast change hchange)) told hstate path
    rwa [kept.last] at hshow
  rcases hcases with ⟨hidle, hstore⟩ | ⟨merged, hmerge, hstore⟩
  · have hperform : ((edit.call extract).perform projectId store).store =
        store.under .none := hstore
    rw [hperform]
    exact { moved with shows := shown (MergeState.foldlM_idle _ hidle) }
  · have hperform : ((edit.call extract).perform projectId store).store = merged.store := hstore
    rw [hperform]
    obtain ⟨state, final, changes, parts⟩ := PatternStore.merge_parts hmerge Faults.honest_none
    exact {
      nodup := by
        rw [parts.files]
        exact MergeState.steps_nodup Faults.honest_none parts.steps moved.nodup
      shows := fun path =>
        (shown parts.steps path).congr parts.files parts.concepts parts.evidence
      observed := PatternStore.merge_observed Faults.honest_none moved.observed
        (task.steps_observe _) hmerge }

/-- After an edit that covers the changes since a tree, what is known lies in the new tree. -/
lemma within_learned {before : FileTree} (within : Within known before)
    (covers : edit.Covers before) : Within (edit.learned known) edit.tree := by
  intro path text htext
  unfold learned textAfter at htext
  split at htext
  · next hmention =>
    have hsame : before path = edit.tree path := by
      by_contra hne
      have := covers path hne
      rw [hmention] at this
      cases this
    rw [← hsame]
    exact within path text htext
  · split at htext
    · exact htext
    · cases htext

/-- One edit. -/
theorem learnedFrom {projectId : String} {delta : LearningDelta}
    (learned : LearnedFrom extract edit.policy known store) (edits : Coalesce.Edits edit.changes)
    (reads : edit.Reads) (told : MergeState.ToldApart edit.tree known)
    (within : Within (edit.learned known) edit.tree) (countable : extract.Countable edit.tree)
    (h : ((edit.call extract).perform projectId store).result = .ok delta) :
    LearnedFrom extract edit.policy (edit.learned known)
      ((edit.call extract).perform projectId store).store := by
  have texts := showsTree learned.toShowsTree edits reads told h
  have fits : (edit.call extract).Fits store := by
    intro merged hmerged
    have hstore : ((edit.call extract).perform projectId store).store = merged.store := by
      rw [LearnerCall.perform_store, hmerged]
    show ∀ id, store.baselineOf id + merged.store.countForPattern id < Word.half
    intro id
    rw [learned.baselineOf_eq_zero, Nat.zero_add, ← hstore]
    exact texts.count_lt within countable id
  have view : store.Invariant (edit.call extract).policy [] := learned.view
  exact { texts with view := LearnerRun.perform_invariant projectId view fits }

end Edit

/-! ## Histories -/

/-- A history of edits under one configuration: accepted batches without renames that mention
whatever has changed, from trees whose files are all there when they are read and can be told
apart by their digests. -/
structure History (extract : Extractor) (policy : LearningPolicy) (edits : List Edit) :
    Prop where
  one : ∀ edit ∈ edits, edit.policy = policy
  proper : ∀ edit ∈ edits, (edit.call extract).Proper
  renameless : ∀ edit ∈ edits, Coalesce.Edits edit.changes
  reads : ∀ edit ∈ edits, edit.Reads
  covers : edits.IsChain fun before edit => edit.Covers before.tree
  told : ∀ edit ∈ edits, ∀ before ∈ edits, MergeState.ToldApart edit.tree before.tree
  countable : ∀ edit ∈ edits, extract.Countable edit.tree

namespace History

variable {extract : Extractor} {policy : LearningPolicy} {projectId : String}
  {store : PatternStore} {edit last : Edit} {edits : List Edit} {known : FileTree}

/-- The calls that learn a history. -/
def calls (extract : Extractor) (edits : List Edit) : List LearnerCall :=
  edits.map (·.call extract)

/-- What is known of the tree after a history. -/
def learned (known : FileTree) (edits : List Edit) : FileTree :=
  edits.foldl (fun known edit => edit.learned known) known

lemma tail (history : History extract policy (edit :: edits)) : History extract policy edits where
  one := fun e he => history.one e (by simp [he])
  proper := fun e he => history.proper e (by simp [he])
  renameless := fun e he => history.renameless e (by simp [he])
  reads := fun e he => history.reads e (by simp [he])
  covers := history.covers.tail
  told := fun e he before hbefore => history.told e (by simp [he]) before (by simp [hbefore])
  countable := fun e he => history.countable e (by simp [he])

/-- Every batch of a history goes through. -/
theorem run_succeeds (projectId : String) (history : History extract policy edits) (healthy : store.Healthy)
    (few : store.version + edits.length < Word.half) :
    LearnerRun.Succeeds projectId store (calls extract edits) := by
  apply LearnerRun.run_succeeds projectId _ healthy
  · rwa [calls, List.length_map]
  · intro call hcall
    obtain ⟨edit, hedit, rfl⟩ := List.mem_map.mp hcall
    exact history.proper edit hedit

/-- Learning a history leads to a store that has learned texts of its last tree. What the
first edit covers is said of `before`, in which all that is known at the start lies. -/
theorem run_learned (before : FileTree) (history : History extract policy edits)
    (succeeds : LearnerRun.Succeeds projectId store (calls extract edits))
    (store_learned : LearnedFrom extract policy known store) (within : Within known before)
    (covers : ∀ edit ∈ edits.head?, edit.Covers before)
    (told : ∀ edit ∈ edits.head?, MergeState.ToldApart edit.tree known)
    (hlast : edits.getLast? = some last) :
    Within (learned known edits) last.tree ∧ LearnedFrom extract policy (learned known edits)
      (LearnerRun.run projectId store (calls extract edits)) := by
  induction edits generalizing store known before with
  | nil => cases hlast
  | cons edit edits ih =>
    obtain ⟨delta, hresult⟩ := succeeds (store, edit.call extract)
      (by simp [calls, LearnerRun.trace])
    have rest : LearnerRun.Succeeds projectId ((edit.call extract).perform projectId store).store
        (calls extract edits) := fun step hstep => succeeds step (List.mem_cons_of_mem _ hstep)
    obtain rfl := history.one edit (by simp)
    have within' := Edit.within_learned within (covers edit (by simp))
    have first := Edit.learnedFrom store_learned (history.renameless edit (by simp))
      (history.reads edit (by simp)) (told edit (by simp)) within'
      (history.countable edit (by simp)) hresult
    cases edits with
    | nil =>
      obtain rfl : edit = last := by simpa using hlast
      exact ⟨within', first⟩
    | cons next edits =>
      refine ih edit.tree history.tail rest first within' ?_ ?_ (by simpa using hlast)
      · rintro e he
        obtain rfl : next = e := by simpa using he
        exact (List.isChain_cons_cons.mp history.covers).1
      · rintro e he path old new hold hnew hdigest
        obtain rfl : next = e := by simpa using he
        exact history.told next (by simp) edit (by simp) path old new (within' path old hold)
          hnew hdigest

/-- Learning a history from an empty store. Nothing is known at first, so the first batch
need not cover anything. -/
theorem learned_of_empty (projectId : String) (history : History extract policy edits)
    (few : edits.length < Word.half) (hlast : edits.getLast? = some last) :
    Within (learned (fun _ => none) edits) last.tree ∧
      LearnedFrom extract policy (learned (fun _ => none) edits)
        (LearnerRun.run projectId .empty (calls extract edits)) := by
  have few' : PatternStore.empty.version + (edits.length : Int) < Word.half := by
    show (0 : Int) + _ < _
    omega
  have succeeds := history.run_succeeds projectId PatternStore.healthy_empty few'
  cases edits with
  | nil => cases hlast
  | cons edit edits =>
    refine run_learned edit.tree history succeeds (learnedFrom_empty extract policy)
      (fun path text h => nomatch h) ?_ ?_ hlast
    · rintro e he path hne
      obtain rfl : edit = e := by simpa using he
      exact absurd rfl hne
    · rintro e - path old new hold
      cases hold

end History

/-- A batch that adds exactly the files which a store tracks. -/
structure AddsTracked (scratch : Edit) (store : PatternStore) : Prop where
  added : ∀ change ∈ scratch.changes, change.kind = .added
  tracked : ∀ path, (∃ change ∈ scratch.changes, Path.normalize change.path = path) ↔
    ∃ file ∈ store.files, file.filePath = path

namespace AddsTracked

variable {scratch : Edit} {store : PatternStore} {known : FileTree}

lemma mention (adds : AddsTracked scratch store)
    (tracked : ∀ path, (∃ file ∈ store.files, file.filePath = path) ↔ (known path).isSome)
    (path : String) :
    lastMention? scratch.changes path =
      if (known path).isSome then some .added else none := by
  unfold lastMention?
  split
  · next hsome =>
    obtain ⟨change, hchange, hpath⟩ := (adds.tracked path).mpr ((tracked path).mpr hsome)
    have hmem : change ∈ scratch.changes.filter fun c => Path.normalize c.path == path :=
      List.mem_filter.mpr ⟨hchange, by simpa using hpath⟩
    obtain ⟨other, hother⟩ := Option.ne_none_iff_exists'.mp
      (mt List.getLast?_eq_none_iff.mp (List.ne_nil_of_mem hmem))
    have hadded := adds.added other (List.mem_filter.mp (List.mem_of_getLast? hother)).1
    rw [hother, Option.map_some, hadded]
  · next hunknown =>
    have hnone : scratch.changes.filter (fun c => Path.normalize c.path == path) = [] := by
      rw [List.filter_eq_nil_iff]
      intro change hchange hpath
      exact hunknown ((tracked path).mp
        ((adds.tracked path).mp ⟨change, hchange, beq_iff_eq.mp hpath⟩))
    rw [hnone]
    rfl

lemma renameless (adds : AddsTracked scratch store) : Coalesce.Edits scratch.changes := by
  intro change hchange hkind
  rw [adds.added change hchange] at hkind
  cases hkind

lemma reads (adds : AddsTracked scratch store)
    (tracked : ∀ path, (∃ file ∈ store.files, file.filePath = path) ↔ (known path).isSome)
    (within : Within known scratch.tree) : scratch.Reads := by
  intro path kind hmention _
  rw [adds.mention tracked] at hmention
  split at hmention
  · next hsome =>
    obtain ⟨text, htext⟩ := Option.isSome_iff_exists.mp hsome
    rw [within path text htext]
    rfl
  · cases hmention

/-- What is known after the batch is what is known of the tracked files. -/
lemma learned (adds : AddsTracked scratch store)
    (tracked : ∀ path, (∃ file ∈ store.files, file.filePath = path) ↔ (known path).isSome)
    (within : Within known scratch.tree) : scratch.learned (fun _ => none) = known := by
  funext path
  unfold Edit.learned
  rw [adds.mention tracked]
  cases hknown : known path with
  | none => rfl
  | some text => simp [textAfter, ChangeKind.needsExtraction, within path text hknown]

end AddsTracked

namespace History

variable {extract : Extractor} {policy : LearningPolicy} {last scratch : Edit}
  {edits : List Edit}

/-- Learning a history batch by batch, through digests that are known, files that come and go
and patterns that die and come back, goes through, and is learning its last tree at once. -/
theorem learned_from_scratch (projectId : String) (history : History extract policy edits)
    (few : edits.length < Word.half) (hlast : edits.getLast? = some last)
    (sameTree : scratch.tree = last.tree)
    (sameExamples : scratch.policy.examples = policy.examples)
    (proper : (scratch.call extract).Proper)
    (adds : AddsTracked scratch (LearnerRun.run projectId .empty (calls extract edits))) :
    LearnerRun.Succeeds projectId .empty (calls extract edits) ∧
    (∃ delta, ((scratch.call extract).perform projectId .empty).result = .ok delta) ∧
    LearnedAlike (LearnerRun.run projectId .empty (calls extract edits))
      ((scratch.call extract).perform projectId .empty).store := by
  have few' : PatternStore.empty.version + (edits.length : Int) < Word.half := by
    show (0 : Int) + _ < _
    omega
  have room : PatternStore.empty.version + 1 < Word.half := by decide
  obtain ⟨within, store_learned⟩ := history.learned_of_empty projectId few hlast
  obtain ⟨delta, hresult⟩ :=
    LearnerCall.perform_succeeds projectId proper PatternStore.healthy_empty room
  rw [← sameTree] at within
  have tracked := store_learned.toShowsTree.tracked_iff
  have known := adds.learned tracked within
  have hmem : last ∈ edits := List.mem_of_getLast? hlast
  have scratch_learned := Edit.learnedFrom (learnedFrom_empty extract scratch.policy)
    adds.renameless (adds.reads tracked within) (fun path old new hold => nomatch hold)
    (known.symm ▸ within) (sameTree ▸ history.countable last hmem) hresult
  rw [known] at scratch_learned
  exact ⟨history.run_succeeds projectId PatternStore.healthy_empty few', ⟨delta, hresult⟩,
    store_learned.alike scratch_learned sameExamples⟩

/-! A file that is added, then removed and written anew with other quotes in one batch. -/

def sampleTree (text : String) : FileTree := fun path => if path = "a.py" then some text else none

def sampleExtract : Extractor := fun _ _ => ⟨[⟨"x", .other, 0.5, 1, 1⟩], false⟩

def sampleEdit (text : String) (changes : List FileChange) : Edit :=
  ⟨sampleTree text, changes, .manual, LearnerRun.samplePolicy, 0, LearnerRun.isSigned_zero⟩

def sampleTexts : List String := ["x = 'a'\n", "x = \"a\"\n"]

def sampleEdits : List Edit :=
  [sampleEdit "x = 'a'\n" [.added "a.py"],
    sampleEdit "x = \"a\"\n" [.deleted "a.py", .modified "a.py"]]

def sampleScratch : Edit := sampleEdit "x = \"a\"\n" [.added "a.py"]

lemma sampleTree_some {text found path : String} (h : sampleTree text path = some found) :
    path = "a.py" ∧ found = text := by
  unfold sampleTree at h
  split at h
  · next hpath => exact ⟨hpath, (Option.some.inj h).symm⟩
  · cases h

lemma sample_mention {changes : List FileChange} {path : String} {kind : ChangeKind}
    (only : ∀ change ∈ changes, Path.normalize change.path = "a.py")
    (h : lastMention? changes path = some kind) : path = "a.py" := by
  obtain ⟨change, hchange, -⟩ := Option.map_eq_some_iff.mp h
  have hmem := List.mem_filter.mp (List.mem_of_getLast? hchange)
  exact (beq_iff_eq.mp hmem.2).symm.trans (only change hmem.1)

lemma sampleTree_countable {text : String}
    (h : (sampleExtract.evidence "a.py" text).length < Word.half) :
    sampleExtract.Countable (sampleTree text) := by
  intro paths hnodup
  have hother : ∀ path ≠ "a.py", path ∈ paths →
      sampleExtract.placesAt (sampleTree text) path = 0 := by
    intro path hpath _
    simp [Extractor.placesAt, sampleTree, hpath]
  have hsum := List.sum_map_eq_nsmul_single "a.py"
    (sampleExtract.placesAt (sampleTree text)) hother
  have honce := List.nodup_iff_count_le_one.mp hnodup "a.py"
  have hplaces : sampleExtract.placesAt (sampleTree text) "a.py" < Word.half := h
  rw [hsum]
  change paths.count "a.py" * _ < Word.half
  calc paths.count "a.py" * sampleExtract.placesAt (sampleTree text) "a.py"
      ≤ 1 * sampleExtract.placesAt (sampleTree text) "a.py" := Nat.mul_le_mul_right _ honce
    _ = sampleExtract.placesAt (sampleTree text) "a.py" := Nat.one_mul _
    _ < Word.half := hplaces

lemma sampleEdit_proper {text : String} {changes : List FileChange}
    (h : (coalesce 10 changes).isOk = true) :
    ((sampleEdit text changes).call sampleExtract).Proper where
  sound := rfl
  accepted := by
    refine ⟨exists_ok h, rfl, ?_⟩
    intro path content extraction hextraction c hc
    obtain rfl := Except.ok.inj hextraction
    obtain rfl := List.mem_singleton.mp hc
    decide
  finite := LearnerRun.samplePolicy_finite

set_option maxRecDepth 10000 in
lemma sample_evidence : ∀ text ∈ sampleTexts,
    (sampleExtract.evidence "a.py" text).length = 1 := by decide +kernel

lemma sampleEdits_history : History sampleExtract LearnerRun.samplePolicy sampleEdits where
  one := by simp [sampleEdits, sampleEdit]
  proper := by
    intro edit hedit
    rcases List.mem_pair.mp hedit with rfl | rfl
    · exact sampleEdit_proper (by decide)
    · exact sampleEdit_proper (by decide)
  renameless := by
    have : sampleEdits.all fun edit => edit.changes.all fun change => change.kind ≠ .renamed := by
      decide
    simpa [Coalesce.Edits, List.all_eq_true] using this
  reads := by
    intro edit hedit path kind hmention _
    rcases List.mem_pair.mp hedit with rfl | rfl
    · simp [sampleEdit, sampleTree, sample_mention (by decide) hmention]
    · simp [sampleEdit, sampleTree, sample_mention (by decide) hmention]
  covers := by
    rw [sampleEdits, List.isChain_pair]
    intro path hne
    have hpath : path = "a.py" := by
      by_contra hother
      exact hne (by simp [sampleEdit, sampleTree, hother])
    rw [hpath]
    decide
  told := by
    intro edit hedit before hbefore path old new hold hnew hdigest
    have htexts : ∀ edit ∈ sampleEdits, ∃ text ∈ sampleTexts, edit.tree = sampleTree text := by
      simp [sampleEdits, sampleEdit, sampleTexts]
    obtain ⟨text, htext, htree⟩ := htexts edit hedit
    obtain ⟨text', htext', htree'⟩ := htexts before hbefore
    rw [htree'] at hold
    rw [htree] at hnew
    obtain ⟨-, rfl⟩ := sampleTree_some hold
    obtain ⟨-, rfl⟩ := sampleTree_some hnew
    have hdigests : ∀ a ∈ sampleTexts, ∀ b ∈ sampleTexts,
        Digest.ofText a = Digest.ofText b → a = b := by decide +kernel
    exact hdigests _ htext' _ htext hdigest
  countable := by
    intro edit hedit
    rcases List.mem_pair.mp hedit with rfl | rfl
    · exact sampleTree_countable (by rw [sample_evidence _ (by simp [sampleTexts])]; decide)
    · exact sampleTree_countable (by rw [sample_evidence _ (by simp [sampleTexts])]; decide)

/-- What is known in the end is the last text of the file. -/
lemma sampleEdits_learned :
    learned (fun _ => none) sampleEdits = sampleTree "x = \"a\"\n" := by
  funext path
  by_cases hpath : path = "a.py"
  · rw [hpath]
    decide
  · have hnone : ∀ changes : List FileChange,
        (∀ change ∈ changes, Path.normalize change.path = "a.py") →
        lastMention? changes path = none := by
      intro changes only
      by_contra hsome
      obtain ⟨kind, hkind⟩ := Option.ne_none_iff_exists'.mp hsome
      exact hpath (sample_mention only hkind)
    simp [learned, sampleEdits, Edit.learned, sampleEdit, textAfter, sampleTree, hpath,
      hnone [.added "a.py"] (by decide),
      hnone [.deleted "a.py", .modified "a.py"] (by decide)]

theorem sampleEdits_from_scratch :
    LearnedAlike (LearnerRun.run "sample" .empty (calls sampleExtract sampleEdits))
      ((sampleScratch.call sampleExtract).perform "sample" .empty).store :=
  have few : sampleEdits.length < Word.half := by decide
  have sameTree : sampleScratch.tree =
      (sampleEdit "x = \"a\"\n" [.deleted "a.py", .modified "a.py"]).tree := rfl
  have proper : (sampleScratch.call sampleExtract).Proper := sampleEdit_proper (by decide)
  have texts := (sampleEdits_history.learned_of_empty "sample" few rfl).2
  have adds : AddsTracked sampleScratch
      (LearnerRun.run "sample" .empty (calls sampleExtract sampleEdits)) := {
    added := by decide
    tracked := fun path => by
      have hpath : Path.normalize "a.py" = "a.py" := by decide
      rw [texts.toShowsTree.tracked_iff, sampleEdits_learned, sampleTree]
      split <;> simp [sampleScratch, sampleEdit, FileChange.added, eq_comm, *] }
  (learned_from_scratch "sample" sampleEdits_history few rfl sameTree rfl proper adds).2.2

end History

end HouseStyle
