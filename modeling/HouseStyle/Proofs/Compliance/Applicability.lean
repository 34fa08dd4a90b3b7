import HouseStyle.Compliance.Check
import HouseStyle.Proofs.Learning.Contexts

/-!
# The files that a pattern applies to

The languages that a pattern applies to are read off its contexts. These hold directories and
language tags in one sorted list, which is cut at a limit, so tags are lost when many
directories come before them. As long as there is room for the tags, and no directory is taken
for one, a pattern applies to the files of the languages that its evidence is written in, and to
all files when its evidence is written in none.
-/

namespace HouseStyle

lemma Language.tag_injective {a b : Language} (h : a.tag = b.tag) : a = b := by
  cases a <;> cases b <;> first | rfl | exact absurd h (by decide)

lemma Pattern.appliesTo_iff {p : Pattern} {language : Option Language} :
    p.appliesTo language = true ↔
      p.languages = [] ∨ ∃ known, language = some known ∧ known.tag ∈ p.languages := by
  simp [Pattern.appliesTo, Option.any_eq_true]

namespace PatternStore

variable {store : PatternStore} {imported : List String} {key : String}

/-- A language that the evidence of a pattern is written in. -/
def IsShownIn (store : PatternStore) (key : String) (language : Language) : Prop :=
  ∃ place ∈ store.evidence, place.patternId = key ∧
    Language.ofPath? place.filePath = some language

/-- The evidence of a pattern speaks for files of the languages that it is written in, and for
all files when it is written in none. -/
def SpeaksFor (store : PatternStore) (key : String) (language : Option Language) : Prop :=
  (∀ known, ¬store.IsShownIn key known) ∨ ∃ known, language = some known ∧
    store.IsShownIn key known

/-- The directories of the evidence of a pattern and the tags of its languages. -/
def shownContexts (store : PatternStore) (key : String) : List String :=
  (store.evidenceForPattern key).flatMap fun place =>
    (Path.parent? place.filePath).toList ++
      ((Language.ofPath? place.filePath).map (Pattern.languageMark ++ ·.tag)).toList

/-- How many of the contexts that the evidence of a pattern gives come before one of them. -/
def contextsBefore (store : PatternStore) (key context : String) : Nat :=
  (sortedTexts (store.shownContexts key)).idxOf context

/-- The tags of all languages that a pattern is shown in are among its first contexts, and when
there are none, no directory there is taken for a tag. -/
structure TagsFit (store : PatternStore) (key : String) : Prop where
  tags : ∀ language, store.IsShownIn key language →
    store.contextsBefore key (Pattern.languageMark ++ language.tag) < contextLimit
  directories : (∀ language, ¬store.IsShownIn key language) →
    ∀ place ∈ store.evidence, place.patternId = key →
      ∀ tag, Path.parent? place.filePath = some (Pattern.languageMark ++ tag) →
        contextLimit ≤ store.contextsBefore key (Pattern.languageMark ++ tag)

lemma mem_shownContexts {context : String} : context ∈ store.shownContexts key ↔
    ∃ place ∈ store.evidence, place.patternId = key ∧
      (Path.parent? place.filePath = some context ∨ ∃ language,
        Language.ofPath? place.filePath = some language ∧
          context = Pattern.languageMark ++ language.tag) := by
  simp only [shownContexts, evidenceForPattern, List.mem_flatMap, List.mem_filter, beq_iff_eq,
    List.mem_append, Option.mem_toList, Option.map_eq_some_iff, and_assoc,
    @eq_comm _ context]

/-- A language tag is shown by a file of the language, and by no directory. -/
lemma mark_mem_shownContexts {language : Language} :
    Pattern.languageMark ++ language.tag ∈ store.shownContexts key ↔
      store.IsShownIn key language := by
  rw [mem_shownContexts]
  refine exists_congr fun place => and_congr_right fun _ => and_congr_right fun _ => ?_
  constructor
  · rintro (hparent | ⟨other, hother, htag⟩)
    · exact absurd hparent (language.mark_ne_parent place.filePath)
    · have htext : language.tag = other.tag := by
        simpa [← String.toList_inj, String.toList_append] using htag
      rw [Language.tag_injective htext]
      exact hother
  · exact fun h => .inr ⟨language, h, rfl⟩

lemma Situated.contextsFor_eq (situated : store.Situated imported) :
    store.contextsFor key [] = (sortedTexts (store.shownContexts key)).take contextLimit := by
  rw [contextsFor, List.nil_append]
  congr 1
  apply sortedTexts_congr
  intro context
  rw [situated.mem_contexts, mem_shownContexts]

/-- A pattern names what its evidence shows, as far as there is room. -/
lemma Situated.mem_languages (situated : store.Situated imported) {p : Pattern}
    (hcontexts : p.contexts = store.contextsFor key []) {tag : String} :
    tag ∈ p.languages ↔ Pattern.languageMark ++ tag ∈ store.shownContexts key ∧
      store.contextsBefore key (Pattern.languageMark ++ tag) < contextLimit := by
  rw [Pattern.mem_languages, hcontexts, situated.contextsFor_eq]
  constructor
  · intro hmem
    have hsorted := List.mem_of_mem_take hmem
    exact ⟨mem_sortedTexts.mp hsorted, (List.mem_take_iff_idxOf_lt hsorted).mp hmem⟩
  · rintro ⟨hshown, hplace⟩
    exact (List.mem_take_iff_idxOf_lt (mem_sortedTexts.mpr hshown)).mpr hplace

/-- The tag of a language among what a pattern names. -/
lemma Situated.tag_mem_languages (situated : store.Situated imported) {p : Pattern}
    (hcontexts : p.contexts = store.contextsFor key []) {language : Language} :
    language.tag ∈ p.languages ↔ store.IsShownIn key language ∧
      store.contextsBefore key (Pattern.languageMark ++ language.tag) < contextLimit := by
  rw [situated.mem_languages hcontexts, mark_mem_shownContexts]

/-- When the tags fit, a pattern applies to the files that its evidence speaks for. -/
lemma Situated.applies_of_tagsFit (situated : store.Situated imported) {p : Pattern}
    (hcontexts : p.contexts = store.contextsFor key []) (fits : store.TagsFit key)
    (language : Option Language) :
    p.appliesTo language = true ↔ store.SpeaksFor key language := by
  rw [Pattern.appliesTo_iff]
  by_cases hshown : ∃ known, store.IsShownIn key known
  · obtain ⟨shown, hshown⟩ := hshown
    have hsome : p.languages ≠ [] := List.ne_nil_of_mem
      ((situated.tag_mem_languages hcontexts).mpr ⟨hshown, fits.tags shown hshown⟩)
    simp only [SpeaksFor, hsome, false_or, situated.tag_mem_languages hcontexts]
    constructor
    · rintro ⟨known, hknown, hmem, -⟩
      exact .inr ⟨known, hknown, hmem⟩
    · rintro (hunshown | ⟨known, hknown, hmem⟩)
      · exact absurd hshown (hunshown shown)
      · exact ⟨known, hknown, hmem, fits.tags known hmem⟩
  · have hunshown := not_exists.mp hshown
    have hnone : p.languages = [] := by
      rw [List.eq_nil_iff_forall_not_mem]
      intro tag hmem
      obtain ⟨hcontext, hfew⟩ := (situated.mem_languages hcontexts).mp hmem
      obtain ⟨place, hplace, hkey, hparent | ⟨known, hknown, -⟩⟩ := mem_shownContexts.mp hcontext
      · exact absurd hfew (not_lt.mpr (fits.directories hunshown place hplace hkey tag hparent))
      · exact hunshown known ⟨place, hplace, hkey, hknown⟩
    simp only [SpeaksFor, hnone, true_or, true_iff]
    exact .inl hunshown

/-- A pattern that applies to the files that its evidence speaks for has room for the tags. -/
lemma Situated.tagsFit_of_applies (situated : store.Situated imported) {p : Pattern}
    (hcontexts : p.contexts = store.contextsFor key [])
    (follows : ∀ path, p.appliesTo (Language.ofPath? path) = true ↔
      store.SpeaksFor key (Language.ofPath? path)) : store.TagsFit key := by
  -- a path without a language tells whether the pattern has language tags at all
  have hplain : Language.ofPath? "" = none := by decide
  simp only [Pattern.appliesTo_iff] at follows
  constructor
  case tags =>
    intro language hshown
    obtain ⟨place, -, -, hlanguage⟩ := id hshown
    have hspeaks : store.SpeaksFor key (Language.ofPath? place.filePath) :=
      .inr ⟨language, hlanguage, hshown⟩
    rcases (follows place.filePath).mpr hspeaks with hnone | ⟨known, hknown, hmem⟩
    · rcases (follows "").mp (.inl hnone) with hunshown | ⟨known, hknown, -⟩
      · exact absurd hshown (hunshown language)
      · rw [hplain] at hknown
        cases hknown
    · obtain rfl := Option.some.inj (hlanguage.symm.trans hknown)
      exact ((situated.tag_mem_languages hcontexts).mp hmem).2
  case directories =>
    intro hunshown place hplace hkey tag hparent
    by_contra hfew
    have hmem : tag ∈ p.languages := (situated.mem_languages hcontexts).mpr
      ⟨mem_shownContexts.mpr ⟨place, hplace, hkey, .inl hparent⟩, not_le.mp hfew⟩
    rcases (follows "").mpr (.inl hunshown) with hnone | ⟨known, hknown, -⟩
    · rw [hnone] at hmem
      cases hmem
    · rw [hplain] at hknown
      cases hknown

/-- A pattern applies to the files that its evidence speaks for exactly when its tags fit. -/
theorem Situated.applies_iff (situated : store.Situated imported) {p : Pattern}
    (hcontexts : p.contexts = store.contextsFor key []) :
    (∀ path, p.appliesTo (Language.ofPath? path) = true ↔
      store.SpeaksFor key (Language.ofPath? path)) ↔ store.TagsFit key :=
  ⟨situated.tagsFit_of_applies hcontexts,
    fun fits path => situated.applies_of_tagsFit hcontexts fits (Language.ofPath? path)⟩

end PatternStore

/-- A call that learns a batch without renames. -/
def LearnerCall.Edits (call : LearnerCall) : Prop :=
  ∃ sources changes origin, call.request = .learn sources changes origin ∧ Coalesce.Edits changes

lemma LearnerCall.Edits.keepsLanguages {call : LearnerCall} (edits : call.Edits)
    (store : PatternStore) : call.KeepsLanguages store := by
  obtain ⟨sources, changes, origin, hrequest, hedits⟩ := edits
  intro sources' changes' origin' kept hrequest' hkept change hchange hrenamed
  obtain ⟨-, rfl, -⟩ := LearnerRequest.learn.inj (hrequest.symm.trans hrequest')
  exact absurd hrenamed ((Coalesce.coalesce_edits hedits hkept).edits change hchange)

/-- A batch that was learned leaves the evidence that its steps lead to. -/
lemma LearnerCall.perform_steps {call : LearnerCall} {projectId : String} {store : PatternStore}
    {sources : Sources} {changes : List FileChange} {origin : Origin} {delta : LearningDelta}
    (hrequest : call.request = .learn sources changes origin)
    (h : (call.perform projectId store).result = .ok delta) :
    ∃ task state, LearningTask.begin call.policy (store.under call.faults) changes origin =
        .ok task ∧
      (task.steps sources).foldlM (MergeState.step call.now) (.start (store.under call.faults)) =
        .ok state ∧
      (call.perform projectId store).store.evidence = state.store.evidence := by
  unfold perform at h ⊢
  rw [hrequest] at h ⊢
  obtain ⟨task, state, after, hbegin, hsteps, hstore, -, hevidence, -⟩ :=
    learn_steps call.honest h
  exact ⟨task, state, hbegin, hsteps, by rw [hstore, hevidence]⟩

namespace LearnerRun

open PatternStore

lemma imported_edits {calls : List LearnerCall} (edits : ∀ call ∈ calls, call.Edits) :
    imported calls = [] := by
  rw [imported, List.flatMap_eq_nil_iff]
  intro call hcall
  obtain ⟨_, _, _, hrequest, -⟩ := edits call hcall
  rw [hrequest]
  rfl

lemma run_edited (projectId : String) {calls : List LearnerCall}
    (edits : ∀ call ∈ calls, call.Edits) : (run projectId .empty calls).Situated [] := by
  have keeps : ∀ step ∈ trace projectId .empty calls, step.2.KeepsLanguages step.1 :=
    fun step hstep => (edits step.2 (mem_trace hstep)).keepsLanguages step.1
  have situated := run_situated situated_empty keeps
  rwa [imported_edits edits] at situated

/-- After any run of batches without renames from an empty store, a stored pattern applies to
the files that its evidence speaks for exactly when its language tags fit among its contexts. -/
theorem run_applies (projectId : String) (calls : List LearnerCall)
    (edits : ∀ call ∈ calls, call.Edits) :
    ∀ row ∈ (run projectId .empty calls).patterns, ∃ p, Pattern.ofRow row = .ok p ∧
      ((∀ path, p.appliesTo (Language.ofPath? path) = true ↔
        (run projectId .empty calls).SpeaksFor p.id (Language.ofPath? path)) ↔
      (run projectId .empty calls).TagsFit p.id) := by
  have situated := run_edited projectId edits
  intro row hrow
  obtain ⟨p, hp, hid, hcontexts⟩ := situated.reads hrow (by simp)
  refine ⟨p, hp, ?_⟩
  rw [hid]
  exact situated.applies_iff hcontexts

/-- A first batch with few enough places stores a pattern for each of them. -/
lemma stored_of_evidence {projectId : String} {call : LearnerCall} {place : EvidenceRow}
    (edits : call.Edits) (few : (run projectId .empty [call]).evidence.length < Word.half)
    (hplace : place ∈ (run projectId .empty [call]).evidence) :
    ∃ row ∈ (run projectId .empty [call]).patterns, row.patternId = place.patternId := by
  have fits : call.Fits .empty := by
    intro merged hmerged
    have hstore : run projectId .empty [call] = merged.store := by
      rw [run, run, call.perform_store, hmerged]
    obtain ⟨_, _, _, hrequest, -⟩ := edits
    rw [hrequest]
    intro id
    have hcount : merged.store.countForPattern id ≤ merged.store.evidence.length :=
      List.countP_le_length
    have hbaseline : PatternStore.empty.baselineOf id = 0 := rfl
    rw [hstore] at few
    omega
  have inv := perform_invariant projectId (invariant_empty call.policy) fits
  rw [run, run] at hplace ⊢
  exact inv.materialised.shown place hplace

/-! Empty files show the styles of their names: a batch of one file, and one with files in as
many directories as there are contexts, all of which come before the language tags. -/

/-- A batch that adds empty files. -/
def sampleFiles (paths : List String) : LearnerCall :=
  { sampleBatch (paths.map .added) with
    policy := { samplePolicy with batchFiles := contextLimit } }

/-- What the steps of the batch lead to. -/
def sampleState? (paths : List String) : Option MergeState :=
  (LearningTask.begin (sampleFiles paths).policy (empty.under (sampleFiles paths).faults)
    (paths.map .added) .manual).toOption.bind fun task =>
      ((task.steps sampleReading).foldlM (MergeState.step (sampleFiles paths).now)
        (.start (empty.under (sampleFiles paths).faults))).toOption

def sampleKey : String := (PatternContent.fileNaming .camel).id

/-- Every file is named in camel case, and shows that and nothing else. -/
def AllCamel (paths : List String) : Prop :=
  (sampleState? paths).map (fun state =>
    (state.store.evidence.map (·.filePath), state.gained.map (·.2))) =
      some (paths, paths.map fun _ => .fileNaming .camel)

variable {paths : List String}

lemma sampleFiles_edits (paths : List String) : (sampleFiles paths).Edits := by
  refine ⟨_, _, _, rfl, ?_⟩
  intro change hchange
  obtain ⟨path, -, rfl⟩ := List.mem_map.mp hchange
  exact nofun

lemma AllCamel.proper (camel : AllCamel paths) : (sampleFiles paths).Proper where
  sound := rfl
  accepted := by
    refine ⟨?_, rfl, ?_⟩
    · cases hbegin : LearningTask.begin (sampleFiles paths).policy
        (empty.under (sampleFiles paths).faults) (paths.map .added) .manual with
      | ok task => exact ⟨task.changes, (LearningTask.begin_ok hbegin).1⟩
      | error error => simp [AllCamel, sampleState?, hbegin, Except.toOption] at camel
    · intro path content extraction hextraction c hc
      obtain rfl := Except.ok.inj hextraction
      cases hc
  finite := samplePolicy_finite

lemma AllCamel.evidence (camel : AllCamel paths) :
    (run "sample" .empty [sampleFiles paths]).evidence.map (·.filePath) = paths ∧
      ∀ place ∈ (run "sample" .empty [sampleFiles paths]).evidence,
        place.patternId = sampleKey := by
  obtain ⟨delta, hdelta⟩ :=
    LearnerCall.perform_succeeds "sample" camel.proper healthy_empty (by decide)
  obtain ⟨task, state, hbegin, hsteps, hevidence⟩ := LearnerCall.perform_steps rfl hdelta
  simp only [AllCamel, sampleState?, hbegin, hsteps, Except.toOption, Option.bind_some,
    Option.map_some, Option.some.injEq, Prod.mk.injEq] at camel
  obtain ⟨hpaths, hgained⟩ := camel
  have effect := MergeState.steps_effect (sampleFiles paths).honest hsteps
  rw [run, run, hevidence]
  refine ⟨hpaths, ?_⟩
  intro place hplace
  obtain ⟨seen, hseen, hall⟩ := effect.gained
  rcases effect.known place hplace with ⟨old, hold, -⟩ | ⟨entry, hentry, hid⟩
  · cases hold
  · have hcontent : entry.2 = .fileNaming .camel := by
      have hmem : entry.2 ∈ state.gained.map (·.2) := List.mem_map_of_mem hentry
      rw [hgained] at hmem
      obtain ⟨_, -, heq⟩ := List.mem_map.mp hmem
      exact heq.symm
    rw [hseen] at hentry
    rw [← hid, hall entry (by simpa [MergeState.start] using hentry), hcontent]
    rfl

lemma AllCamel.shown (camel : AllCamel paths) {path : String} (hpath : path ∈ paths) :
    ∃ place ∈ (run "sample" .empty [sampleFiles paths]).evidence,
      place.patternId = sampleKey ∧ place.filePath = path := by
  obtain ⟨hpaths, hkeys⟩ := camel.evidence
  rw [← hpaths] at hpath
  obtain ⟨place, hplace, rfl⟩ := List.mem_map.mp hpath
  exact ⟨place, hplace, hkeys place hplace, rfl⟩

lemma AllCamel.stored (camel : AllCamel paths) (few : paths.length < Word.half) {path : String}
    (hpath : path ∈ paths) : ∃ row ∈ (run "sample" .empty [sampleFiles paths]).patterns,
      row.patternId = sampleKey := by
  obtain ⟨place, hplace, hkey, -⟩ := camel.shown hpath
  rw [← hkey]
  refine stored_of_evidence (sampleFiles_edits paths) ?_ hplace
  rwa [← camel.evidence.1, List.length_map] at few

/-- All places show one pattern, so its contexts are those of all the paths. -/
lemma AllCamel.contexts (camel : AllCamel paths) :
    (run "sample" .empty [sampleFiles paths]).shownContexts sampleKey =
      paths.flatMap fun path => (Path.parent? path).toList ++
        ((Language.ofPath? path).map (Pattern.languageMark ++ ·.tag)).toList := by
  obtain ⟨hpaths, hkeys⟩ := camel.evidence
  have hall : ∀ place ∈ (run "sample" .empty [sampleFiles paths]).evidence,
      (place.patternId == sampleKey) = true := fun place hplace => by simp [hkeys place hplace]
  conv_rhs => rw [← hpaths]
  rw [shownContexts, evidenceForPattern, List.filter_eq_self.mpr hall, List.flatMap_map]

lemma sampleFile_camel : AllCamel ["src/userId.ts"] := by
  unfold AllCamel
  decide +kernel

theorem sampleFile_applies :
    (∃ row ∈ (run "sample" .empty [sampleFiles ["src/userId.ts"]]).patterns,
      row.patternId = sampleKey) ∧
    ∀ row ∈ (run "sample" .empty [sampleFiles ["src/userId.ts"]]).patterns,
      ∃ p, Pattern.ofRow row = .ok p ∧
      ((∀ path, p.appliesTo (Language.ofPath? path) = true ↔
        (run "sample" .empty [sampleFiles ["src/userId.ts"]]).SpeaksFor p.id
          (Language.ofPath? path)) ↔
      (run "sample" .empty [sampleFiles ["src/userId.ts"]]).TagsFit p.id) :=
  ⟨sampleFile_camel.stored (by decide) List.mem_cons_self,
    run_applies "sample" [sampleFiles ["src/userId.ts"]]
      (List.forall_mem_singleton.mpr (sampleFiles_edits ["src/userId.ts"]))⟩

def samplePaths : List String :=
  "0123456789ABCDEFGHIJKLMNOPQRSTUV".toList.map fun directory =>
    String.ofList [directory, '/', 'a', 'B', '.', 't', 's']

lemma samplePaths_camel : AllCamel samplePaths := by
  unfold AllCamel
  decide +kernel

lemma samplePaths_first : "0/aB.ts" ∈ samplePaths := by decide

lemma samplePaths_contexts : contextLimit ≤ (sortedTexts (samplePaths.flatMap fun path =>
      (Path.parent? path).toList ++
        ((Language.ofPath? path).map (Pattern.languageMark ++ ·.tag)).toList)).idxOf
    (Pattern.languageMark ++ Language.typeScript.tag) := by
  decide +kernel

/-- The tag of TypeScript does not fit among the contexts of the second batch. -/
lemma samplePaths_unfit :
    ¬(run "sample" .empty [sampleFiles samplePaths]).TagsFit sampleKey := by
  intro fits
  obtain ⟨place, hplace, hkey, hpath⟩ := samplePaths_camel.shown samplePaths_first
  have hfew := fits.tags .typeScript ⟨place, hplace, hkey, by rw [hpath]; decide⟩
  rw [contextsBefore, samplePaths_camel.contexts] at hfew
  exact absurd hfew (not_lt.mpr samplePaths_contexts)

/-- All evidence of the second batch is in TypeScript, yet its pattern does not apply to just
the files in TypeScript. -/
theorem samplePaths_overreach : (∀ call ∈ [sampleFiles samplePaths], call.Edits) ∧
    ∃ row ∈ (run "sample" .empty [sampleFiles samplePaths]).patterns,
      ∃ p, Pattern.ofRow row = .ok p ∧
      ¬∀ path, p.appliesTo (Language.ofPath? path) = true ↔
        (run "sample" .empty [sampleFiles samplePaths]).SpeaksFor p.id
          (Language.ofPath? path) := by
  have edits : ∀ call ∈ [sampleFiles samplePaths], call.Edits :=
    List.forall_mem_singleton.mpr (sampleFiles_edits samplePaths)
  have situated := run_edited "sample" edits
  obtain ⟨row, hrow, hkey⟩ := samplePaths_camel.stored (by decide) samplePaths_first
  obtain ⟨p, hp, hid, hcontexts⟩ := situated.reads hrow (by simp)
  refine ⟨edits, row, hrow, p, hp, ?_⟩
  rw [hid, situated.applies_iff hcontexts, hkey]
  exact samplePaths_unfit

end LearnerRun

end HouseStyle
