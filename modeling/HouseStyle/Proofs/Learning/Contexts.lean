import HouseStyle.Proofs.Learning.Renames
import HouseStyle.Proofs.Learning.View

/-!
# Languages of tracked files and of patterns

The row of a tracked file names the language of the text that was analyzed. A move gives the
row to another path and leaves the language as it is, so the language is that of the path as
long as no file is moved to a path of another language. The contexts of a pattern that no seed
has brought in then name the languages of the files that show it, and directories of theirs
that are called like a language.
-/

namespace HouseStyle

/-! ## Directories and language tags -/

/-- A directory is written with the slash at its end. -/
lemma Path.getLast?_parent {path directory : String} (h : Path.parent? path = some directory) :
    directory.toList.getLast? = some '/' := by
  unfold Path.parent? at h
  split at h
  · cases h
  · next kept hne =>
    obtain rfl := Option.some.inj h
    have hhead := List.head?_dropWhile_not (fun c => decide (c ≠ '/')) path.toList.reverse
    rw [String.toList_ofList, List.getLast?_reverse]
    cases hkept : path.toList.reverse.dropWhile (· ≠ '/') with
    | nil => exact absurd hkept hne
    | cons c rest =>
      rw [hkept] at hhead
      simpa using hhead

namespace Pattern

lemma languageOf?_eq_some {context tag : String} :
    languageOf? context = some tag ↔ context = languageMark ++ tag := by
  unfold languageOf?
  simp only [List.isPrefixOf_iff_prefix]
  constructor
  · intro h
    split at h
    · next hmark =>
      obtain ⟨rest, hrest⟩ := hmark
      obtain rfl := Option.some.inj h
      rw [← String.toList_inj, String.toList_append, String.toList_ofList, ← hrest,
        List.drop_left]
    · cases h
  · rintro rfl
    rw [String.toList_append, if_pos (List.prefix_append _ _), List.drop_left,
      String.ofList_toList]

lemma mem_languages {p : Pattern} {tag : String} :
    tag ∈ p.languages ↔ languageMark ++ tag ∈ p.contexts := by
  simp [languages, List.mem_filterMap, languageOf?_eq_some]

end Pattern

/-- No directory is a language tag. -/
lemma Language.mark_ne_parent (language : Language) (path : String) :
    Path.parent? path ≠ some (Pattern.languageMark ++ language.tag) := by
  intro h
  have hslash := Path.getLast?_parent h
  cases language <;> exact absurd hslash (by decide)

/-! ## Rows of files -/

/-- The row of a file names the language that the path tells. -/
def TrackedFile.Labelled (file : TrackedFile) : Prop :=
  file.language = (Language.ofPath? file.filePath).map (·.tag)

namespace MergeStep

/-- A step that puts a row under a path puts the language of the path there. -/
def Labels : MergeStep → Prop
  | .examine path _ (.analyzed analysis) => analysis.language = Language.ofPath? path
  | .examine _ _ _ | .delete _ => True
  | .rename source target _ => Language.ofPath? source = Language.ofPath? target

lemma labels_examine (sources : Sources) (row : Option TrackedFile) (path : String)
    (revision : Option String) : Labels (.examine path revision (sources.examine row path)) := by
  unfold Sources.examine
  split
  · trivial
  · simp only
    split
    · trivial
    · split
      · trivial
      · simp only [Labels]

end MergeStep

namespace MergeState

variable {state after : MergeState} {now : Int}

lemma renamedFiles_labelled {files : List TrackedFile} {source target : String}
    (revision : Option String) (labelled : ∀ file ∈ files, file.Labelled)
    (same : Language.ofPath? source = Language.ofPath? target) :
    ∀ file ∈ renamedFiles files source target revision, file.Labelled := by
  have moved : ∀ file ∈ movedFiles files source target, file.Labelled := by
    intro file hfile
    obtain ⟨old, hold, rfl⟩ := List.mem_map.mp hfile
    have hlabel := labelled old (List.mem_filter.mp hold).1
    split
    · next hsource =>
      rw [TrackedFile.Labelled, beq_iff_eq.mp hsource, same] at hlabel
      exact hlabel
    · exact hlabel
  unfold renamedFiles
  simp only
  split
  · next found hfound =>
    intro file hfile
    have hlabel := moved found (Table.mem_of_lookup _ hfound).1
    rcases Table.mem_put hfile with hold | rfl | ⟨_, _, rfl⟩
    · exact moved file hold
    · exact hlabel
    · exact hlabel
  · exact moved

lemma step_labelled {step : MergeStep} (honest : state.store.faults.Honest)
    (h : state.step now step = .ok after) (labels : step.Labels)
    (labelled : ∀ file ∈ state.store.files, file.Labelled) :
    ∀ file ∈ after.store.files, file.Labelled := by
  cases step with
  | examine path revision reading =>
    cases reading with
    | analyzed analysis =>
      obtain ⟨⟨_, hstore⟩, -⟩ := examine_ok honest h
      have hnew : (analyzedFile now path revision analysis).Labelled :=
        congrArg (Option.map Language.tag) labels
      intro file hfile
      have hput : file ∈ Table.put state.store.files PatternStore.sameFilePath
          (fun _ new => new) (analyzedFile now path revision analysis) := by
        rwa [hstore] at hfile
      rcases Table.mem_put hput with hold | rfl | ⟨_, _, rfl⟩
      · exact labelled file hold
      · exact hnew
      · exact hnew
    | unchanged => exact Except.ok.inj h ▸ labelled
    | failed => exact Except.ok.inj h ▸ labelled
  | delete path =>
    obtain ⟨⟨_, hstore⟩, -⟩ := delete_ok honest h
    intro file hfile
    rw [hstore] at hfile
    exact labelled file (List.mem_filter.mp hfile).1
  | rename source target revision =>
    obtain ⟨⟨_, hstore⟩, -⟩ := rename_ok honest h
    rw [hstore]
    exact renamedFiles_labelled revision labelled labels

lemma steps_labelled {steps : List MergeStep} (honest : state.store.faults.Honest)
    (h : steps.foldlM (MergeState.step now) state = .ok after)
    (labels : ∀ step ∈ steps, step.Labels)
    (labelled : ∀ file ∈ state.store.files, file.Labelled) :
    ∀ file ∈ after.store.files, file.Labelled := by
  induction steps generalizing state with
  | nil => exact pure_eq_ok.mp h ▸ labelled
  | cons step steps ih =>
    rw [List.foldlM_cons, bind_eq_ok] at h
    obtain ⟨mid, hfirst, hrest⟩ := h
    exact ih ((step_effect honest hfirst).honest honest) hrest
      (fun later hlater => labels later (by simp [hlater]))
      (step_labelled honest hfirst (labels step (by simp)) labelled)

end MergeState

/-- No rename of a batch takes a tracked file to a path of another language. -/
def PatternStore.KeepsLanguages (store : PatternStore) (kept : List FileChange) : Prop :=
  ∀ change ∈ kept, change.kind = .renamed → ∀ source, change.previousPath = some source →
    (store.getFile? source).isSome = true → Language.ofPath? source = Language.ofPath? change.path

lemma LearningTask.steps_label {policy : LearningPolicy} {store : PatternStore}
    {changes : List FileChange} {origin : Origin} {task : LearningTask} (sources : Sources)
    (h : LearningTask.begin policy store changes origin = .ok task)
    (keeps : store.KeepsLanguages task.changes) : ∀ step ∈ task.steps sources, step.Labels := by
  intro step hstep
  obtain ⟨change, hmem, hchange⟩ := List.mem_filterMap.mp hstep
  simp only [MergeStep.ofChange?] at hchange
  split at hchange
  · obtain rfl := Option.some.inj hchange
    exact MergeStep.labels_examine _ _ _ _
  · next hread =>
    split at hchange
    · next hkind =>
      obtain ⟨source, hsource, rfl⟩ := Option.map_eq_some_iff.mp hchange
      have htracked : task.tracked.any (·.filePath == source) = true := by
        simpa [FileChange.isRead, hkind, hsource] using hread
      have hmentioned : source ∈ mentionedPaths task.changes :=
        List.mem_flatMap.mpr ⟨change, hmem, by simp [hsource]⟩
      rw [any_tracked h hmentioned] at htracked
      exact keeps change hmem hkind source hsource htracked
    · obtain rfl := Option.some.inj hchange
      trivial

/-! ## Contexts of patterns -/

namespace PatternStore

variable {store after : PatternStore} {policy : LearningPolicy} {version : Nat} {now : Int}
  {imported : List String} {key : String}

/-- What is stored under an id was not brought in from outside. -/
def Unbased (store : PatternStore) (key : String) : Prop :=
  ∀ p, store.readPattern? key = .ok (some p) → p.baseline = 0

/-- What is stored under an id was computed from the evidence, and from nothing else. -/
def Placed (store : PatternStore) (key : String) : Prop :=
  ∀ row, store.getPattern? key = some row → ∃ p, Pattern.ofRow row = .ok p ∧ p.baseline = 0 ∧
    p.contexts = store.contextsFor key []

lemma Placed.unbased (placed : store.Placed key) : store.Unbased key := by
  intro q hq
  obtain ⟨row, hrow, hread⟩ := readPattern?_eq_some.mp hq
  obtain ⟨p, hp, hbaseline, -⟩ := placed row hrow
  obtain rfl : p = q := Except.ok.inj (hp.symm.trans hread)
  exact hbaseline

lemma Unbased.congr (unbased : store.Unbased key)
    (hrow : after.getPattern? key = store.getPattern? key) : after.Unbased key := by
  unfold Unbased readPattern?
  rw [hrow]
  exact unbased

lemma ShowsAlike.placed (alike : ShowsAlike store after key)
    (hrow : after.getPattern? key = store.getPattern? key) (placed : store.Placed key) :
    after.Placed key := by
  unfold Placed
  rw [hrow, alike.contexts]
  exact placed

/-- Computing a pattern anew that was not brought in takes its contexts from the evidence. -/
theorem recomputePattern_placed {content : Option PatternContent} {gained : Bool}
    {change : Option PatternChange} (honest : store.faults.Honest)
    (hcontent : ∀ c, content = some c → c.id = key) (unbased : store.Unbased key)
    (h : store.recomputePattern policy version now content gained key = .ok (after, change)) :
    after.Placed key := by
  have alike := (recomputePattern_written honest hcontent h).showsAlike key
  obtain ⟨existing, hread, hcases⟩ := recomputePattern_cases h
  have absent : after.getPattern? key = none → after.Placed key := by
    intro hnone row hrow
    rw [hnone] at hrow
    cases hrow
  have hbaseline : ∀ q, existing = some q → q.baseline = 0 :=
    fun q hq => unbased q (hq ▸ hread)
  split at hcases
  · rcases hcases with ⟨rfl, rfl, -⟩ | ⟨p, rfl, hbury, -⟩
    · exact absent (readPattern?_eq_none.mp hread)
    · obtain rfl := readPattern?_id hread
      obtain ⟨numbers, rfl⟩ := buryPattern_ok hbury honest
      apply absent
      rw [getPattern?_buried, if_pos rfl]
  · rcases hcases with ⟨rfl, -, rfl, -⟩ | ⟨p, candidate, hput⟩
    · exact absent (readPattern?_eq_none.mp hread)
    · have hcontexts : p.contexts = store.contextsFor key [] := by
        rw [candidate.contexts]
        cases existing with
        | none => rfl
        | some q => simp [hbaseline q rfl]
      have hzero : p.baseline = 0 := by
        rw [candidate.baseline]
        cases existing with
        | none => rfl
        | some q => exact hbaseline q rfl
      obtain rfl := candidate.id
      have sound : ∀ e ∈ p.examples, e.Sound := by
        rw [candidate.examples]
        exact fun e => readExamples_sound
      obtain ⟨q, hq, hqcontexts, -, hqbaseline⟩ := putPattern_read honest hread sound hput
      obtain ⟨row, hrow, hqrow⟩ := readPattern?_eq_some.mp hq
      intro row' hrow'
      obtain rfl : row = row' := Option.some.inj (hrow.symm.trans hrow')
      refine ⟨q, hqrow, ?_, ?_⟩
      · rw [hqbaseline (by rw [hzero]; decide), hzero]
      · rw [hqcontexts, hcontexts, alike.contexts]

lemma recompute_placed {gained : List (String × PatternContent)}
    (hgained : ∀ k c, gained.lookup k = some c → c.id = k) {keys : List String}
    {before all : List PatternChange} (honest : store.faults.Honest)
    (unbased : ∀ k ∉ imported, store.Unbased k)
    (rest : ∀ k ∉ imported, k ∉ keys → store.Placed k)
    (h : keys.foldlM (collecting fun store id => store.recomputePattern policy version now
      (gained.lookup id) (gained.lookup id).isSome id) (store, before) = .ok (after, all)) :
    ∀ k ∉ imported, after.Placed k := by
  induction keys generalizing store before with
  | nil =>
    obtain ⟨rfl, rfl⟩ := Prod.mk.inj (pure_eq_ok.mp h)
    exact fun k hk => rest k hk (by simp)
  | cons key keys ih =>
    simp only [List.foldlM_cons, collecting, bind_eq_ok, pure_eq_ok] at h
    obtain ⟨_, ⟨⟨mid, change⟩, hfirst, rfl⟩, hrest⟩ := h
    have hwritten := recomputePattern_written honest (hgained key) hfirst
    have hothers := recomputePattern_others honest hfirst
    have hown : key ∉ imported → mid.Placed key :=
      fun hk => recomputePattern_placed honest (hgained key) (unbased key hk) hfirst
    refine ih (hwritten.honest honest) ?_ ?_ hrest
    · intro k hk
      by_cases hkey : k = key
      · exact hkey ▸ (hown (hkey ▸ hk)).unbased
      · exact (unbased k hk).congr (hothers k hkey)
    · intro k hk hkeys
      by_cases hkey : k = key
      · exact hkey ▸ hown (hkey ▸ hk)
      · exact (hwritten.showsAlike k).placed (hothers k hkey) (rest k hk (by simp [hkey, hkeys]))

lemma importSeeds_placed {seeds : List PatternSeed} {before all : List PatternChange}
    (honest : store.faults.Honest) (named : ∀ seed ∈ seeds, seed.content.id ∈ imported)
    (placed : ∀ k ∉ imported, store.Placed k)
    (h : seeds.foldlM (collecting fun store seed =>
      store.importSeed policy version now seed) (store, before) = .ok (after, all)) :
    ∀ k ∉ imported, after.Placed k := by
  induction seeds generalizing store before with
  | nil =>
    obtain ⟨rfl, rfl⟩ := Prod.mk.inj (pure_eq_ok.mp h)
    exact placed
  | cons seed seeds ih =>
    simp only [List.foldlM_cons, collecting, bind_eq_ok, pure_eq_ok] at h
    obtain ⟨_, ⟨⟨mid, change⟩, hfirst, rfl⟩, hrest⟩ := h
    have hwritten := importSeed_written honest hfirst
    refine ih (hwritten.honest honest) (fun s hs => named s (by simp [hs])) ?_ hrest
    intro k hk
    have hne : k ≠ seed.content.id := by
      rintro rfl
      exact hk (named seed (by simp))
    exact (hwritten.showsAlike k).placed (importSeed_others honest hfirst k hne) (placed k hk)

/-! ## Calls -/

/-- What holds of files and patterns between two calls. -/
structure Situated (store : PatternStore) (imported : List String) : Prop where
  nodup : (store.patterns.map (·.patternId)).Nodup
  tracked : MergeState.Tracked store
  labelled : ∀ file ∈ store.files, file.Labelled
  placed : ∀ k ∉ imported, store.Placed k

lemma situated_empty : Situated .empty [] where
  nodup := List.nodup_nil
  tracked := ⟨by simp [empty], by simp [empty]⟩
  labelled := by simp [empty]
  placed := nofun

/-- Only these tables matter. -/
lemma Situated.congr (situated : store.Situated imported)
    (hpatterns : after.patterns = store.patterns) (hconcepts : after.concepts = store.concepts)
    (hevidence : after.evidence = store.evidence) (hfiles : after.files = store.files) :
    after.Situated imported where
  nodup := by rw [hpatterns]; exact situated.nodup
  tracked := situated.tracked.congr hconcepts hevidence hfiles
  labelled := by rw [hfiles]; exact situated.labelled
  placed := by
    intro k hk
    have alike : ShowsAlike store after k := by
      constructor
      · simp only [evidenceForPattern, hevidence]
      · simp only [filesForPattern, evidenceForPattern, hevidence, getFile?, hfiles]
    exact alike.placed (by simp only [getPattern?, hpatterns]) (situated.placed k hk)

theorem merge_situated {origin : Origin} {mode : LearningMode} {preceding : Nat}
    {steps : List MergeStep} {merged : Merged} (situated : store.Situated imported)
    (honest : store.faults.Honest) (labels : ∀ step ∈ steps, step.Labels)
    (h : store.merge policy origin mode preceding now steps = .ok merged) :
    merged.store.Situated imported := by
  obtain ⟨state, final, changes, parts⟩ := merge_parts h honest
  have honest' := parts.effect.honest honest
  obtain ⟨_, _, _, hfinal⟩ := parts.writes.frame
  obtain ⟨_, _, _, _, hstore⟩ := parts.effect.frame
  have hrow : ∀ k, state.store.getPattern? k = store.getPattern? k := by
    intro k
    rw [hstore]
    rfl
  have final_situated : final.Situated imported := {
    nodup := parts.writes.nodup (by rw [hstore]; exact situated.nodup)
    tracked := by
      rw [hfinal]
      exact (parts.effect.tracked situated.tracked).congr rfl rfl rfl
    labelled := by
      rw [hfinal]
      exact MergeState.steps_labelled honest parts.steps labels situated.labelled
    placed := by
      refine recompute_placed (fun k c => gained_content parts.effect) honest'
        (fun k hk => (situated.placed k hk).unbased.congr (hrow k)) ?_ parts.recompute
      intro k hk hkeys
      have huntouched : k ∉ state.touched := by
        intro htouched
        exact hkeys (mem_sortedTexts.mpr (List.mem_append_left _ htouched))
      have alike : ShowsAlike store state.store k :=
        ⟨parts.effect.evidence k huntouched, parts.effect.files k huntouched⟩
      exact alike.placed (hrow k) (situated.placed k hk) }
  exact final_situated.congr parts.patterns (by rw [parts.concepts, hfinal])
    (by rw [parts.evidence, hfinal]) (by rw [parts.files, hfinal])

theorem importSeeds_situated {preceding : Nat} {seeds : List PatternSeed} {merged : Merged}
    (situated : store.Situated imported) (honest : store.faults.Honest)
    (named : ∀ seed ∈ seeds, seed.content.id ∈ imported)
    (h : store.importSeeds policy preceding now seeds = .ok merged) :
    merged.store.Situated imported := by
  obtain ⟨final, changes, parts⟩ := importSeeds_parts h honest
  obtain ⟨_, _, _, hfinal⟩ := parts.writes.frame
  have final_situated : final.Situated imported := {
    nodup := parts.writes.nodup situated.nodup
    tracked := by
      rw [hfinal]
      exact situated.tracked.congr rfl rfl rfl
    labelled := by
      rw [hfinal]
      exact situated.labelled
    placed := importSeeds_placed honest named situated.placed parts.imports }
  exact final_situated.congr parts.patterns (by rw [parts.concepts, hfinal])
    (by rw [parts.evidence, hfinal]) (by rw [parts.files, hfinal])

/-! ## What contexts say -/

lemma mem_filesForPattern {path : String} {language : Option String} :
    (path, language) ∈ store.filesForPattern key ↔
      (∃ place ∈ store.evidence, place.patternId = key ∧ place.filePath = path) ∧
        language = (store.getFile? path).bind (·.language) := by
  simp only [filesForPattern, evidenceForPattern, List.mem_map, List.mem_mergeSort,
    List.mem_eraseDups, List.mem_filter, beq_iff_eq, Prod.mk.injEq]
  constructor
  · rintro ⟨_, ⟨place, ⟨hplace, hkey⟩, rfl⟩, rfl, rfl⟩
    exact ⟨⟨place, hplace, hkey, rfl⟩, rfl⟩
  · rintro ⟨⟨place, hplace, hkey, rfl⟩, rfl⟩
    exact ⟨_, ⟨place, ⟨hplace, hkey⟩, rfl⟩, rfl, rfl⟩

/-- A file that shows a pattern is tracked with the language of its path. -/
lemma Situated.language_eq (situated : store.Situated imported) {place : EvidenceRow}
    (hplace : place ∈ store.evidence) : (store.getFile? place.filePath).bind (·.language) =
      (Language.ofPath? place.filePath).map (·.tag) := by
  obtain ⟨file, hfile⟩ := Option.isSome_iff_exists.mp (situated.tracked.evidence place hplace)
  obtain ⟨hmem, hpath⟩ := Table.mem_of_lookup TrackedFile.filePath hfile
  rw [hfile, Option.bind_some, situated.labelled file hmem, hpath]

/-- The contexts that the files of a pattern give are the directories of its evidence and the
tags of its languages. -/
lemma Situated.mem_contexts (situated : store.Situated imported) {context : String} :
    context ∈ contextsOfFiles (store.filesForPattern key) ↔
      ∃ place ∈ store.evidence, place.patternId = key ∧
        (Path.parent? place.filePath = some context ∨ ∃ language,
          Language.ofPath? place.filePath = some language ∧
            context = Pattern.languageMark ++ language.tag) := by
  simp only [contextsOfFiles, List.mem_flatMap, Prod.exists, List.mem_append, Option.mem_toList,
    List.mem_map, mem_filesForPattern]
  constructor
  · rintro ⟨_, _, ⟨⟨place, hplace, hkey, rfl⟩, rfl⟩, hparent | ⟨tag, htag, rfl⟩⟩
    · exact ⟨place, hplace, hkey, .inl hparent⟩
    · rw [situated.language_eq hplace] at htag
      obtain ⟨language, hlanguage, rfl⟩ := Option.map_eq_some_iff.mp htag
      exact ⟨place, hplace, hkey, .inr ⟨language, hlanguage, rfl⟩⟩
  · rintro ⟨place, hplace, hkey, hcontext⟩
    refine ⟨_, _, ⟨⟨place, hplace, hkey, rfl⟩, rfl⟩, hcontext.imp_right ?_⟩
    rintro ⟨language, hlanguage, rfl⟩
    exact ⟨language.tag, by rw [situated.language_eq hplace, hlanguage]; rfl, rfl⟩

/-- A stored pattern that was not brought in is read with the contexts of its files. -/
lemma Situated.reads (situated : store.Situated imported) {row : PatternRow}
    (hrow : row ∈ store.patterns) (hnamed : row.patternId ∉ imported) :
    ∃ p, Pattern.ofRow row = .ok p ∧ p.id = row.patternId ∧
      p.contexts = store.contextsFor row.patternId [] := by
  have hlookup : store.getPattern? row.patternId = some row :=
    Table.lookup_of_mem _ situated.nodup hrow
  obtain ⟨p, hp, -, hcontexts⟩ := situated.placed row.patternId hnamed row hlookup
  exact ⟨p, hp, Pattern.ofRow_id hp, hcontexts⟩

/-- Languages follow the paths: a tracked file has the language of its path, and the `lang:`
contexts of a pattern that was not brought in are languages of files that show it now, or else
directories of these that are called like a tag and name no language. -/
structure Tagged (store : PatternStore) (imported : List String) : Prop where
  files : ∀ file ∈ store.files, file.language = (Language.ofPath? file.filePath).map (·.tag)
  patterns : ∀ row ∈ store.patterns, row.patternId ∉ imported → ∃ p, Pattern.ofRow row = .ok p ∧
    ∀ tag ∈ p.languages,
      (∃ place ∈ store.evidence, place.patternId = p.id ∧ ∃ language,
        Language.ofPath? place.filePath = some language ∧ tag = language.tag) ∨
      (∃ place ∈ store.evidence, place.patternId = p.id ∧
        Path.parent? place.filePath = some (Pattern.languageMark ++ tag)) ∧
        ∀ language : Language, tag ≠ language.tag

theorem Situated.tagged (situated : store.Situated imported) : store.Tagged imported where
  files := situated.labelled
  patterns := by
    intro row hrow hnamed
    obtain ⟨p, hp, hid, hcontexts⟩ := situated.reads hrow hnamed
    refine ⟨p, hp, ?_⟩
    intro tag htag
    rw [Pattern.mem_languages, hcontexts, contextsFor, List.nil_append] at htag
    have hmem := mem_sortedTexts.mp (List.mem_of_mem_take htag)
    rw [hid]
    obtain ⟨place, hplace, hkey, hparent | ⟨language, hlanguage, hcontext⟩⟩ :=
      situated.mem_contexts.mp hmem
    · refine .inr ⟨⟨place, hplace, hkey, hparent⟩, ?_⟩
      rintro language rfl
      exact language.mark_ne_parent place.filePath hparent
    · have htext : tag = language.tag := by
        simpa [← String.toList_inj, String.toList_append] using hcontext
      exact .inl ⟨place, hplace, hkey, language, hlanguage, htext⟩

end PatternStore

namespace LearnerCall

/-- No rename that a call learns takes a tracked file to a path of another language. -/
def KeepsLanguages (call : LearnerCall) (store : PatternStore) : Prop :=
  ∀ sources changes origin kept, call.request = .learn sources changes origin →
    coalesce call.policy.batchFiles changes = .ok kept → store.KeepsLanguages kept

end LearnerCall

namespace LearnerRun

open PatternStore

theorem perform_situated {store : PatternStore} {imported : List String} {call : LearnerCall}
    (projectId : String) (situated : store.Situated imported)
    (keeps : call.KeepsLanguages store) :
    (call.perform projectId store).store.Situated (imported ++ call.request.imported) := by
  have moved : (store.under call.faults).Situated imported := situated.congr rfl rfl rfl rfl
  have wider : (store.under call.faults).Situated (imported ++ call.request.imported) :=
    { moved with placed := fun k hk => moved.placed k fun hold => hk (List.mem_append_left _ hold) }
  rw [call.perform_store]
  cases hmerged : call.merged? store with
  | none => exact wider
  | some merged =>
    rcases LearnerCall.merged?_cases hmerged with
      ⟨sources, changes, origin, task, hrequest, hbegin, hmerge⟩ | ⟨seeds, hrequest, himport⟩
    · have hkept := keeps sources changes origin task.changes hrequest
        (LearningTask.begin_ok hbegin).1
      exact merge_situated wider call.honest (task.steps_label sources hbegin hkept) hmerge
    · refine importSeeds_situated wider call.honest ?_ himport
      intro seed hseed
      rw [hrequest]
      exact List.mem_append_right _ (List.mem_map.mpr ⟨seed, hseed, rfl⟩)

theorem run_situated {store : PatternStore} {projectId : String} {imported : List String}
    {calls : List LearnerCall} (situated : store.Situated imported)
    (keeps : ∀ step ∈ trace projectId store calls, step.2.KeepsLanguages step.1) :
    (run projectId store calls).Situated (imported ++ LearnerRun.imported calls) := by
  induction calls generalizing store imported with
  | nil => simpa [LearnerRun.imported, run] using situated
  | cons call calls ih =>
    have first := perform_situated projectId situated (keeps (store, call) (by simp [trace]))
    have rest := ih first fun step hstep => keeps step (by simp [trace, hstep])
    simpa [LearnerRun.imported, run, List.append_assoc] using rest

/-- After any run from an empty store whose renames keep to one language, languages follow the
paths. -/
theorem run_tagged (projectId : String) (calls : List LearnerCall)
    (keeps : ∀ step ∈ trace projectId .empty calls, step.2.KeepsLanguages step.1) :
    (run projectId .empty calls).Tagged (LearnerRun.imported calls) := by
  simpa using (run_situated situated_empty keeps).tagged

/-! A file is renamed within its language, and to a path of another one. -/

def sampleRename (target : String) : List LearnerCall :=
  [sampleBatch [.added "a.ts"], sampleBatch [.renamed "a.ts" target]]

lemma sampleBatch_keepsLanguages {changes : List FileChange} (store : PatternStore)
    (hkept : coalesce 10 changes = .ok changes)
    (keeps : ∀ change ∈ changes, ∀ source, change.previousPath = some source →
      Language.ofPath? source = Language.ofPath? change.path) :
    (sampleBatch changes).KeepsLanguages store := by
  rintro sources changes' origin kept hrequest hcoalesce change hchange - source hsource -
  obtain ⟨-, rfl, -⟩ := LearnerRequest.learn.inj hrequest
  obtain rfl := Except.ok.inj (hkept.symm.trans hcoalesce)
  exact keeps change hchange source hsource

theorem sampleRename_tagged :
    (run "sample" .empty (sampleRename "b.ts")).Tagged (imported (sampleRename "b.ts")) := by
  refine run_tagged "sample" (sampleRename "b.ts") ?_
  simp only [sampleRename, trace, List.mem_cons, List.not_mem_nil, or_false, forall_eq_or_imp,
    forall_eq]
  exact ⟨sampleBatch_keepsLanguages _ (by decide) (by decide),
    sampleBatch_keepsLanguages _ (by decide) (by decide)⟩

theorem sampleRename_mistagged : ¬∀ file ∈ (run "sample" .empty (sampleRename "a.py")).files,
    file.language = (Language.ofPath? file.filePath).map (·.tag) := by
  decide +kernel

end LearnerRun

end HouseStyle
