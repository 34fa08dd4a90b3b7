import HouseStyle.Proofs.Learning.Replay
import HouseStyle.Proofs.Learning.View

/-!
# Seeds are counted exactly

The last seed for a pattern decides its baseline, and the evidence in the store is added to
that. Counts are stored as signed words and added as unsigned ones, so this holds as long as a
seed together with the evidence stays below the upper half of the 64-bit words; beyond that the
stored pattern and the log no longer agree.
-/

namespace HouseStyle

namespace PatternSeed

/-- The last of some seeds for a pattern. -/
def last? (seeds : List PatternSeed) (id : String) : Option PatternSeed :=
  (seeds.filter (·.content.id == id)).getLast?

lemma last?_cons (seed : PatternSeed) (seeds : List PatternSeed) (id : String) :
    last? (seed :: seeds) id =
      (last? seeds id).or (if seed.content.id = id then some seed else none) := by
  unfold last?
  by_cases h : seed.content.id = id
  · rw [List.filter_cons_of_pos (by simpa using h), List.getLast?_cons, if_pos h]
    cases (seeds.filter (·.content.id == id)).getLast? <;> rfl
  · rw [List.filter_cons_of_neg (by simpa using h), if_neg h, Option.or_none]

end PatternSeed

namespace PatternStore

variable {store after : PatternStore} {policy : LearningPolicy} {version : Nat} {now : Int}
  {key : String}

/-- A pattern is read with a baseline, and its frequency counts its evidence on top. -/
def CountsFrom (store : PatternStore) (key : String) (baseline : Nat) : Prop :=
  ∃ p, store.readPattern? key = .ok (some p) ∧ p.baseline = baseline ∧
    p.frequency = baseline + store.countForPattern key

lemma CountsFrom.congr {baseline : Nat} (counts : store.CountsFrom key baseline)
    (hrow : after.getPattern? key = store.getPattern? key)
    (hcount : after.countForPattern key = store.countForPattern key) :
    after.CountsFrom key baseline := by
  unfold CountsFrom readPattern?
  rw [hrow, hcount]
  exact counts

/-- A seed with a frequency is counted exactly. -/
lemma importSeed_counts {seed : PatternSeed} {change : Option PatternChange}
    (honest : store.faults.Honest) (positive : 0 < seed.frequency)
    (bound : seed.frequency + store.countForPattern seed.content.id < Word.half)
    (h : store.importSeed policy version now seed = .ok (after, change)) :
    after.CountsFrom seed.content.id seed.frequency := by
  have hcount := ((importSeed_written honest h).showsAlike seed.content.id).count
  obtain ⟨existing, hread, hcases⟩ := importSeed_cases h
  rw [addWords_of_lt bound, if_neg (by omega)] at hcases
  obtain ⟨p, seeded, hput⟩ := hcases
  have hfrequency : p.frequency = seed.frequency + store.countForPattern seed.content.id := by
    rw [seeded.frequency, seeded.baseline, addWords_of_lt bound]
  have sound : ∀ e ∈ p.examples, e.Sound := by
    rw [seeded.examples]
    exact fun e => readExamples_sound
  rw [← seeded.id] at hread
  obtain ⟨q, hq, -, hqfrequency, hqbaseline⟩ := putPattern_read honest hread sound hput
  rw [seeded.id] at hq
  refine ⟨q, hq, ?_, ?_⟩
  · rw [hqbaseline (by rw [seeded.baseline]; omega), seeded.baseline]
  · rw [hqfrequency (by omega), hfrequency, hcount]

/-- After seeds the pattern of each is counted as the last seed for it says. -/
theorem importSeeds_counts (key : String) {seeds : List PatternSeed}
    {before all : List PatternChange} (honest : store.faults.Honest)
    (bound : ∀ seed ∈ seeds,
      seed.frequency + store.countForPattern seed.content.id < Word.half)
    (h : seeds.foldlM (collecting fun store seed =>
      store.importSeed policy version now seed) (store, before) = .ok (after, all)) :
    match PatternSeed.last? seeds key with
    | none => after.getPattern? key = store.getPattern? key
    | some seed => 0 < seed.frequency → after.CountsFrom key seed.frequency := by
  induction seeds generalizing store before with
  | nil =>
    obtain ⟨rfl, rfl⟩ := Prod.mk.inj (pure_eq_ok.mp h)
    rfl
  | cons first seeds ih =>
    simp only [List.foldlM_cons, collecting, bind_eq_ok, pure_eq_ok] at h
    obtain ⟨_, ⟨⟨mid, change⟩, hfirst, rfl⟩, hrest⟩ := h
    have hwritten := importSeed_written honest hfirst
    have later := ih (hwritten.honest honest)
      (fun seed hseed => by rw [(hwritten.showsAlike _).count]; exact bound seed (by simp [hseed]))
      hrest
    rw [PatternSeed.last?_cons]
    cases hlast : PatternSeed.last? seeds key with
    | some seed =>
      rw [hlast] at later
      exact later
    | none =>
      rw [hlast] at later
      by_cases hkey : first.content.id = key
      · subst hkey
        rw [if_pos rfl]
        intro positive
        have counts := importSeed_counts honest positive (bound first (by simp)) hfirst
        obtain ⟨_, -, writes⟩ := collecting_writes
          (fun seed _ s t change hs ht => importSeed_written hs ht) (hwritten.honest honest) hrest
        obtain ⟨_, _, _, hafter⟩ := writes.frame
        exact counts.congr later (by rw [hafter]; rfl)
      · rw [if_neg hkey]
        exact later.trans (importSeed_others honest hfirst key (Ne.symm hkey))

/-- A pattern that a seed puts has the counts of the seed. -/
lemma importSeed_puts {seed : PatternSeed} {change : PatternChange} {p : Pattern}
    (honest : store.faults.Honest)
    (bound : seed.frequency + store.countForPattern seed.content.id < Word.half)
    (h : store.importSeed policy version now seed = .ok (after, some change))
    (hput : change.put? = some p) : p.frequency < Word.half ∧ p.baseline < Word.half := by
  obtain ⟨existing, -, hcases⟩ := importSeed_cases h
  split at hcases
  · cases hcases.2
  · obtain ⟨q, seeded, hq⟩ := hcases
    rcases putPattern_ok hq honest with ⟨-, -, -, -, hnone⟩ | ⟨-, hchange, -⟩
    · cases hnone
    · obtain rfl := Option.some.inj hchange
      obtain rfl : q = p := by simpa [put?_putChange] using hput
      rw [seeded.frequency, seeded.baseline, addWords_of_lt bound]
      omega

lemma importSeeds_puts {seeds : List PatternSeed} {before all : List PatternChange}
    (honest : store.faults.Honest)
    (bound : ∀ seed ∈ seeds,
      seed.frequency + store.countForPattern seed.content.id < Word.half)
    (hbefore : ∀ change ∈ before, ∀ p, change.put? = some p →
      p.frequency < Word.half ∧ p.baseline < Word.half)
    (h : seeds.foldlM (collecting fun store seed =>
      store.importSeed policy version now seed) (store, before) = .ok (after, all)) :
    ∀ change ∈ all, ∀ p, change.put? = some p →
      p.frequency < Word.half ∧ p.baseline < Word.half := by
  induction seeds generalizing store before with
  | nil =>
    obtain ⟨rfl, rfl⟩ := Prod.mk.inj (pure_eq_ok.mp h)
    exact hbefore
  | cons first seeds ih =>
    simp only [List.foldlM_cons, collecting, bind_eq_ok, pure_eq_ok] at h
    obtain ⟨_, ⟨⟨mid, change⟩, hfirst, rfl⟩, hrest⟩ := h
    have hwritten := importSeed_written honest hfirst
    refine ih (hwritten.honest honest) ?_ ?_ hrest
    · intro seed hseed
      rw [(hwritten.showsAlike _).count]
      exact bound seed (by simp [hseed])
    · intro found hfound p hput
      rcases List.mem_append.mp hfound with hold | hnew
      · exact hbefore found hold p hput
      · obtain rfl := Option.mem_toList.mp hnew
        exact importSeed_puts honest (bound first (by simp)) hfirst hput

end PatternStore

/-- The text of a pattern's confidence is read as the number that is stored of it. -/
def Pattern.KeepsConfidence (p : Pattern) : Prop :=
  ∃ read, ConfidenceReads p.confidence read ∧
    sameConfidence read (Decimal.unsignedZero p.confidence) = true

namespace LearnerCall

open PatternStore

variable {call : LearnerCall} {store : PatternStore} {seeds : List PatternSeed}

/-- What is assumed of seeds: with the evidence in the store they stay signed words. -/
def Bounded (seeds : List PatternSeed) (store : PatternStore) : Prop :=
  ∀ seed ∈ seeds, seed.frequency + store.countForPattern seed.content.id < Word.half

/-- The patterns that an import writes are plain. -/
lemma written_plain (hrequest : call.request = .importSeeds seeds) (bound : Bounded seeds store)
    (kept : ∀ p ∈ call.written store, p.KeepsConfidence) :
    ∀ p ∈ call.written store, p.Plain := by
  intro p hp
  have hconfidence := kept p hp
  unfold written at hp
  split at hp
  · next merged hmerged =>
    rcases merged?_cases hmerged with ⟨_, _, _, _, hlearn, -⟩ | ⟨seeds', himport, hmerge⟩
    · rw [hrequest] at hlearn
      cases hlearn
    · obtain rfl := LearnerRequest.importSeeds.inj (hrequest.symm.trans himport)
      obtain ⟨final, changes, parts⟩ := importSeeds_parts hmerge call.honest
      obtain ⟨delta, -, hcommit⟩ := parts.commit
      rw [(commit_ok hcommit (parts.writes.honest call.honest)).1] at hp
      obtain ⟨change, hchange, hput⟩ := List.mem_filterMap.mp hp
      have bound' : Bounded seeds (store.under call.faults) := bound
      obtain ⟨hfrequency, hbaseline⟩ :=
        importSeeds_puts call.honest bound' (fun _ h => absurd h List.not_mem_nil) parts.imports
          change hchange p hput
      exact ⟨hfrequency, hbaseline, hconfidence⟩
  · cases hp

/-- An import is refused, and leaves the store as it was, or the last seed for each pattern is
counted exactly. -/
theorem perform_counts (projectId : String) (hrequest : call.request = .importSeeds seeds)
    (bound : Bounded seeds store) :
    match (call.perform projectId store).result with
    | .error _ => (call.perform projectId store).store = store.under call.faults
    | .ok _ => ∀ id seed, PatternSeed.last? seeds id = some seed → 0 < seed.frequency →
      (call.perform projectId store).store.CountsFrom id seed.frequency := by
  unfold perform
  rw [hrequest]
  simp only [importPatterns]
  cases seeds.forM PatternSeed.check with
  | error error => rfl
  | ok =>
    by_cases hnil : seeds.isEmpty = true
    · simp only [hnil, if_true]
      rintro id seed hlast
      rw [List.isEmpty_iff.mp hnil] at hlast
      cases hlast
    · simp only [hnil, if_false, Bool.false_eq_true]
      cases himport : (store.under call.faults).importSeeds call.policy
          (readWord (store.under call.faults).version) call.now seeds with
      | error error => rfl
      | ok merged =>
        obtain ⟨final, changes, parts⟩ := importSeeds_parts himport call.honest
        obtain ⟨_, _, _, hfinal⟩ := parts.writes.frame
        intro id seed hlast positive
        have bound' : Bounded seeds (store.under call.faults) := bound
        have counts := importSeeds_counts id call.honest bound' parts.imports
        rw [hlast] at counts
        refine (counts positive).congr ?_ ?_
        · exact congrArg (Table.lookup PatternRow.patternId · id) parts.patterns
        · show merged.store.countForPattern id = final.countForPattern id
          rw [hfinal]
          unfold countForPattern
          rw [parts.evidence]

end LearnerCall

namespace LearnerRun

open PatternStore

/-- What is assumed of a run and of the import after it for the log to give the patterns: there
are fewer calls than signed words, the patterns written are told apart by their ids, those of the
run are plain, and the confidences of the import are read from their texts. -/
structure Replayable (projectId : String) (calls : List LearnerCall) (call : LearnerCall) :
    Prop where
  few : calls.length + 1 < Word.half
  distinct : ∀ p ∈ written projectId .empty (calls ++ [call]),
    ∀ q ∈ written projectId .empty (calls ++ [call]),
      p.content.id = q.content.id → p.content = q.content
  plain : ∀ p ∈ written projectId .empty calls, p.Plain
  kept : ∀ p ∈ call.written (run projectId .empty calls), p.KeepsConfidence

lemma Replayable.verified {projectId : String} {calls : List LearnerCall} {call : LearnerCall}
    {seeds : List PatternSeed} (replayable : Replayable projectId calls call)
    (hrequest : call.request = .importSeeds seeds)
    (bound : LearnerCall.Bounded seeds (run projectId .empty calls)) :
    (call.perform projectId (run projectId .empty calls)).store.verifyReplay = .ok true := by
  have hplain : ∀ p ∈ written projectId .empty (calls ++ [call]), p.Plain := by
    intro p hp
    rw [written_concat] at hp
    rcases List.mem_append.mp hp with hold | hnew
    · exact replayable.plain p hold
    · exact LearnerCall.written_plain hrequest bound replayable.kept p hnew
  have hdistinct :
      Distinct (· ∈ (written projectId .empty (calls ++ [call])).map (·.content)) := by
    intro c d hc hd heq
    obtain ⟨p, hp, rfl⟩ := List.mem_map.mp hc
    obtain ⟨q, hq, rfl⟩ := List.mem_map.mp hd
    exact replayable.distinct p hp q hq heq
  have hroom : PatternStore.empty.version + ((calls ++ [call]).length : Int) < Word.half := by
    have few := replayable.few
    simp only [empty, List.length_append, List.length_singleton]
    omega
  have logged := run_logged hdistinct (logged_empty _) hroom fun p hp =>
    ⟨hplain p hp, List.mem_map_of_mem hp⟩
  rw [run_append] at logged
  exact logged.verified

/-- An import after any run from an empty store, of seeds whose frequencies with the evidence
stay below the upper half of the 64-bit words, is refused and leaves the store as it was, or the
last seed for each pattern is counted exactly. Replaying the log then still gives the stored
patterns. -/
theorem run_imports (projectId : String) (calls : List LearnerCall) (call : LearnerCall)
    (seeds : List PatternSeed) (hrequest : call.request = .importSeeds seeds)
    (bound : LearnerCall.Bounded seeds (run projectId .empty calls)) :
    (match (call.perform projectId (run projectId .empty calls)).result with
      | .error _ => (call.perform projectId (run projectId .empty calls)).store =
        (run projectId .empty calls).under call.faults
      | .ok _ => ∀ id seed, PatternSeed.last? seeds id = some seed → 0 < seed.frequency →
        (call.perform projectId (run projectId .empty calls)).store.CountsFrom id
          seed.frequency) ∧
    (Replayable projectId calls call →
      (call.perform projectId (run projectId .empty calls)).store.verifyReplay = .ok true) :=
  ⟨LearnerCall.perform_counts projectId hrequest bound,
    fun replayable => replayable.verified hrequest bound⟩

/-! A pattern that was brought in before is brought in twice more by one call, and the other way
a seed has the first frequency that is no signed word. -/

def sampleQuotes (frequency : Nat) : PatternSeed := ⟨.quotes .single, frequency, 0.5, []⟩

def sampleSeeds : LearnerCall := sampleCall (.importSeeds [sampleQuotes 1, sampleQuotes 7])

lemma sampleSeeds_written : ∀ p ∈ written "sample" .empty (sampleImports ++ [sampleSeeds]),
    p.content = .quotes .single ∧ p.Plain := by
  decide +kernel

lemma sampleSeeds_bounded :
    LearnerCall.Bounded [sampleQuotes 1, sampleQuotes 7] (run "sample" .empty sampleImports) := by
  unfold LearnerCall.Bounded
  decide +kernel

lemma sampleSeeds_replayable : Replayable "sample" sampleImports sampleSeeds where
  few := by decide
  distinct := fun p hp q hq _ =>
    (sampleSeeds_written p hp).1.trans (sampleSeeds_written q hq).1.symm
  plain := by
    intro p hp
    have hmem := List.mem_append_left (sampleSeeds.written (run "sample" .empty sampleImports)) hp
    rw [← written_concat] at hmem
    exact (sampleSeeds_written p hmem).2
  kept := by
    intro p hp
    have hmem := List.mem_append_right (written "sample" .empty sampleImports) hp
    rw [← written_concat] at hmem
    exact (sampleSeeds_written p hmem).2.confidence

theorem sampleSeeds_imported :
    (match (sampleSeeds.perform "sample" (run "sample" .empty sampleImports)).result with
      | .error _ => (sampleSeeds.perform "sample" (run "sample" .empty sampleImports)).store =
        (run "sample" .empty sampleImports).under sampleSeeds.faults
      | .ok _ => ∀ id seed, PatternSeed.last? [sampleQuotes 1, sampleQuotes 7] id = some seed →
        0 < seed.frequency →
        (sampleSeeds.perform "sample" (run "sample" .empty sampleImports)).store.CountsFrom id
          seed.frequency) ∧
    (sampleSeeds.perform "sample" (run "sample" .empty sampleImports)).store.verifyReplay =
      .ok true :=
  (run_imports "sample" sampleImports sampleSeeds [sampleQuotes 1, sampleQuotes 7] rfl
    sampleSeeds_bounded).imp_right fun replay => replay sampleSeeds_replayable

def sampleLarge : LearnerCall := sampleCall (.importSeeds [sampleQuotes Word.half])

theorem sampleLarge_miscounted :
    (sampleLarge.perform "sample" .empty).result.isOk = true ∧
    ∃ id seed, PatternSeed.last? [sampleQuotes Word.half] id = some seed ∧ 0 < seed.frequency ∧
      ¬(sampleLarge.perform "sample" .empty).store.CountsFrom id seed.frequency := by
  have hread : ((sampleLarge.perform "sample" .empty).store.readPattern?
      (PatternContent.quotes .single).id).toOption.bind (·.map (·.baseline)) = some 0 := by
    decide +kernel
  refine ⟨by decide +kernel, (PatternContent.quotes .single).id, sampleQuotes Word.half, ?_,
    by decide, ?_⟩
  · rw [PatternSeed.last?_cons, sampleQuotes, if_pos rfl]
    rfl
  · rintro ⟨p, hp, hbaseline, -⟩
    rw [hp] at hread
    have hzero : p.baseline = 0 := by simpa [Except.toOption] using hread
    rw [hzero] at hbaseline
    exact absurd hbaseline (by decide)

end LearnerRun

end HouseStyle
