import HouseStyle.Proofs.Learning.Calls
import HouseStyle.Proofs.Store.Evidence
import HouseStyle.Proofs.Text.Sorted
import Mathlib

/-!
# What the log adds up to

Every merge counts what it does to concepts and patterns, and announces the patterns that come
and go. Over a run the counts in the log add up to what is stored, and the announcements of a
pattern tell its life: it is discovered, removed, discovered again.
-/

namespace HouseStyle

/-! ## Counting concepts -/

namespace ConceptCounts

/-- By how many the concepts have become more. -/
def net (counts : ConceptCounts) : Int := counts.added - counts.removed

@[simp] lemma net_zero : zero.net = 0 := rfl

@[simp] lemma net_add (a b : ConceptCounts) : (a.add b).net = a.net + b.net := by
  simp only [net, add]
  omega

end ConceptCounts

lemma net_diffLocations (old new : List (Int × Int)) :
    (diffLocations old new).net = new.length - old.length := by
  simp only [diffLocations, ConceptCounts.net]
  omega

lemma length_locationsOf (key : String × String) (marks : List ConceptMark) :
    (locationsOf key marks).length = marks.countP (·.key == key) := by
  simp [locationsOf, List.countP_eq_length_filter]

/-- Marks under a new key and under the keys before it. -/
lemma countP_key {key : String × String} {keys : List (String × String)} (hnew : key ∉ keys)
    (marks : List ConceptMark) :
    marks.countP (fun mark => decide (mark.key ∈ key :: keys)) =
      marks.countP (·.key == key) + marks.countP (fun mark => decide (mark.key ∈ keys)) := by
  induction marks with
  | nil => rfl
  | cons mark marks ih =>
    simp only [List.countP_cons, ih]
    by_cases hkey : mark.key = key
    · simp [hkey, hnew]
      omega
    · simp [hkey]
      omega

/-- The fold over different keys counts the marks that have one of them. -/
lemma net_foldl_diff {keys : List (String × String)} (nodup : keys.Nodup)
    (old new : List ConceptMark) (counts : ConceptCounts) :
    (keys.foldl (fun counts key =>
      counts.add (diffLocations (locationsOf key old) (locationsOf key new))) counts).net =
      counts.net + (new.countP (fun mark => decide (mark.key ∈ keys)) -
        old.countP (fun mark => decide (mark.key ∈ keys))) := by
  induction keys generalizing counts with
  | nil => simp
  | cons key keys ih =>
    obtain ⟨hnew, hrest⟩ := List.nodup_cons.mp nodup
    rw [List.foldl_cons, ih hrest, ConceptCounts.net_add, net_diffLocations, length_locationsOf,
      length_locationsOf, countP_key hnew, countP_key hnew]
    omega

/-- A comparison of concepts counts by how many they have become more. -/
theorem net_diffConcepts (old new : List ConceptMark) :
    (diffConcepts old new).net = new.length - old.length := by
  have hkeys : ∀ marks : List ConceptMark, (∀ mark ∈ marks, mark ∈ new ++ old) →
      marks.countP (fun mark => decide (mark.key ∈ ((new ++ old).map (·.key)).eraseDups)) =
        marks.length := by
    intro marks hmarks
    rw [List.countP_eq_length]
    intro mark hmark
    rw [decide_eq_true_iff, List.mem_eraseDups]
    exact List.mem_map_of_mem (hmarks mark hmark)
  rw [diffConcepts, net_foldl_diff (nodup_eraseDups _), ConceptCounts.net_zero, Int.zero_add,
    hkeys new (by simp +contextual), hkeys old (by simp +contextual)]

lemma length_filter_path (rows : List ConceptRow) (path : String) :
    (rows.filter fun row => !(row.filePath == path)).length +
      rows.countP (·.filePath == path) = rows.length := by
  have hparts := List.length_eq_countP_add_countP (·.filePath == path) (l := rows)
  rw [← List.countP_eq_length_filter]
  simp only [Bool.not_eq_true, Bool.decide_eq_false] at hparts
  omega

lemma PatternStore.length_conceptsForFile (store : PatternStore) (path : String) :
    (store.conceptsForFile path).length = store.concepts.countP (·.filePath == path) := by
  simp [conceptsForFile, List.countP_eq_length_filter]

namespace MergeState

variable {state after : MergeState} {now : Int}

/-- What a merge counts of concepts is what it does to them, and one that counts no file counts
no concept. -/
structure Counted (state after : MergeState) : Prop where
  concepts : (after.store.concepts.length : Int) - state.store.concepts.length =
    after.counts.net - state.counts.net
  files : state.filesTouched ≤ after.filesTouched
  idle : after.filesTouched = state.filesTouched → after.counts = state.counts

lemma Counted.refl (state : MergeState) : Counted state state where
  concepts := by omega
  files := Nat.le_refl _
  idle := fun _ => rfl

lemma Counted.trans {mid : MergeState} (first : Counted state mid) (second : Counted mid after) :
    Counted state after where
  concepts := by
    have := first.concepts
    have := second.concepts
    omega
  files := Nat.le_trans first.files second.files
  idle := by
    intro hfiles
    have := first.files
    have := second.files
    rw [second.idle (by omega), first.idle (by omega)]

lemma examine_counted (honest : state.store.faults.Honest) {path : String}
    {revision : Option String} {analysis : Analysis}
    (h : state.examine now path revision analysis = .ok after) : Counted state after := by
  obtain ⟨⟨_, hstore⟩, -, -, hfiles⟩ := examine_ok honest h
  have hcounts : after.counts = state.counts.add (diffConcepts
      ((state.store.conceptsForFile path).map .ofRow) (analysis.concepts.map .ofConcept)) := by
    simp only [examine, bind_eq_ok, pure_eq_ok] at h
    obtain ⟨_, -, _, -, _, -, _, -, rfl⟩ := h
    rfl
  refine ⟨?_, by omega, by omega⟩
  have hold := length_filter_path state.store.concepts path
  rw [hcounts, ConceptCounts.net_add, net_diffConcepts, hstore]
  simp only [List.length_append, List.length_map, PatternStore.length_conceptsForFile]
  omega

lemma delete_counted (honest : state.store.faults.Honest) {path : String}
    (h : state.delete path = .ok after) : Counted state after := by
  obtain ⟨⟨_, hstore⟩, -, -, -⟩ := delete_ok honest h
  have hcounts : after.counts =
      state.counts.add ⟨0, 0, (state.store.conceptsForFile path).length⟩ ∧
      ((after.filesTouched = state.filesTouched ∧ state.store.conceptsForFile path = []) ∨
        after.filesTouched = state.filesTouched + 1) := by
    simp only [delete, bind_eq_ok, pure_eq_ok] at h
    obtain ⟨⟨s1, rows⟩, -, s2, -, rfl⟩ := h
    refine ⟨rfl, ?_⟩
    by_cases hnone : state.store.conceptsForFile path = []
    · by_cases hrows : 0 < rows <;> simp [hnone, hrows]
    · exact .inr (by simp [hnone])
  obtain ⟨hcounts, hfiles⟩ := hcounts
  refine ⟨?_, by omega, ?_⟩
  · have hold := length_filter_path state.store.concepts path
    rw [hcounts, ConceptCounts.net_add, hstore]
    simp only [ConceptCounts.net, PatternStore.length_conceptsForFile]
    omega
  · intro hsame
    rcases hfiles with ⟨-, hnone⟩ | hmore
    · rw [hcounts, hnone]
      rfl
    · omega

lemma rename_counted (honest : state.store.faults.Honest) {source target : String}
    {revision : Option String} (h : state.rename source target revision = .ok after) :
    Counted state after := by
  obtain ⟨⟨_, hstore⟩, -, -, hfiles⟩ := rename_ok honest h
  have hcounts : after.counts =
      state.counts.add ⟨0, 0, (state.store.conceptsForFile target).length⟩ := by
    simp only [rename, bind_eq_ok] at h
    obtain ⟨_, -, _, -, _, -, _, -, _, -, h⟩ := h
    split at h
    · simp only [bind_eq_ok, pure_eq_ok] at h
      obtain ⟨_, -, rfl⟩ := h
      rfl
    · simp only [bind_eq_ok, pure_eq_ok] at h
      obtain ⟨_, -, rfl⟩ := h
      rfl
  refine ⟨?_, by omega, by omega⟩
  have hold := length_filter_path state.store.concepts target
  rw [hcounts, ConceptCounts.net_add, hstore]
  simp only [ConceptCounts.net, List.length_map, PatternStore.length_conceptsForFile]
  omega

lemma step_counted (honest : state.store.faults.Honest) {step : MergeStep}
    (h : MergeState.step now state step = .ok after) : Counted state after := by
  cases step with
  | examine path revision reading =>
    cases reading with
    | analyzed analysis => exact examine_counted honest h
    | unchanged => cases h; exact .refl state
    | failed => cases h; exact .refl state
  | delete path => exact delete_counted honest h
  | rename source target revision => exact rename_counted honest h

theorem steps_counted {steps : List MergeStep} (honest : state.store.faults.Honest)
    (h : steps.foldlM (MergeState.step now) state = .ok after) : Counted state after := by
  induction steps generalizing state with
  | nil => cases h; exact .refl _
  | cons step steps ih =>
    rw [List.foldlM_cons, bind_eq_ok] at h
    obtain ⟨mid, hstep, hrest⟩ := h
    exact (step_counted honest hstep).trans (ih ((step_effect honest hstep).honest honest) hrest)

end MergeState

/-! ## The life of a pattern -/

/-- A pattern comes or goes. -/
inductive Turn where
  | discovered
  | removed
  deriving DecidableEq

/-- The turn that a pattern has taken last, when it is stored or not. -/
def Turn.last : Bool → Turn
  | true => discovered
  | false => removed

/-- Turns that lead from a pattern that is stored, or not, to one that is stored, or not. -/
inductive Turns : Bool → List Turn → Bool → Prop where
  | nil (stored : Bool) : Turns stored [] stored
  | discovered {turns : List Turn} {stored : Bool} :
    Turns true turns stored → Turns false (.discovered :: turns) stored
  | removed {turns : List Turn} {stored : Bool} :
    Turns false turns stored → Turns true (.removed :: turns) stored

namespace Turns

variable {before mid after : Bool} {first second turns : List Turn}

lemma append (h : Turns before first mid) (later : Turns mid second after) :
    Turns before (first ++ second) after := by
  induction h with
  | nil => exact later
  | discovered _ ih => exact .discovered (ih later)
  | removed _ ih => exact .removed (ih later)

/-- From one place to the next the turns change. -/
lemma alternate (h : Turns before turns after) {k : Nat} {turn : Turn}
    (hk : turns[k]? = some turn) :
    turn = .discovered ↔ (k % 2 = 0 ↔ before = false) := by
  induction h generalizing k with
  | nil => simp at hk
  | discovered _ ih =>
    cases k with
    | zero =>
      obtain rfl : Turn.discovered = turn := by simpa using hk
      simp
    | succ k =>
      rw [ih (by simpa using hk)]
      simp only [Bool.true_eq_false, iff_false, iff_true]
      omega
  | removed _ ih =>
    cases k with
    | zero =>
      obtain rfl : Turn.removed = turn := by simpa using hk
      simp
    | succ k =>
      rw [ih (by simpa using hk)]
      simp only [Bool.true_eq_false, iff_false, iff_true]
      omega

lemma getLast (h : Turns before turns after) :
    turns.getLast?.getD (Turn.last before) = Turn.last after := by
  induction h with
  | nil => rfl
  | discovered _ ih => rw [List.getLast?_cons, Option.getD_some]; exact ih
  | removed _ ih => rw [List.getLast?_cons, Option.getD_some]; exact ih

/-- The last turn of a pattern that was not stored at first tells whether it is stored now. -/
lemma getLast_eq_discovered (h : Turns false turns after) :
    turns.getLast? = some .discovered ↔ after = true := by
  have hlast := h.getLast
  cases hturns : turns.getLast? with
  | none => cases after <;> simp_all [Turn.last]
  | some turn => cases after <;> simp_all [Turn.last]

/-- Without removals there is one turn at most. -/
lemma length_le_one (h : Turns before turns after) (hkept : .removed ∉ turns) :
    turns.length ≤ 1 := by
  cases h with
  | nil => simp
  | discovered rest =>
    cases rest with
    | nil => simp
    | removed => simp at hkept
  | removed => simp at hkept

end Turns

namespace PatternChange

/-- The pattern that has changed. -/
def id : PatternChange → String
  | created pattern | updated pattern => pattern.id
  | removed id => id

/-- The turn that a change is for a pattern. -/
def turn? (id : String) : PatternChange → Option Turn
  | created pattern => if pattern.id = id then some .discovered else none
  | updated _ => none
  | removed removedId => if removedId = id then some .removed else none

/-- How many patterns more there are after changes. -/
def net (changes : List PatternChange) : Int :=
  (changes.filterMap (·.created?)).length - (changes.filterMap (·.removed?)).length

lemma net_append (first second : List PatternChange) :
    net (first ++ second) = net first + net second := by
  simp only [net, List.filterMap_append, List.length_append]
  omega

lemma id_of_turn? {change : PatternChange} {id : String} {turn : Turn}
    (h : change.turn? id = some turn) : change.id = id := by
  cases change with
  | created pattern => exact (Option.ite_none_right_eq_some.mp h).1
  | updated pattern => simp [turn?] at h
  | removed removedId => exact (Option.ite_none_right_eq_some.mp h).1

/-- Changes of different patterns have one turn at most for each. -/
lemma length_turns_le_one {changes : List PatternChange} (nodup : (changes.map (·.id)).Nodup)
    (id : String) : (changes.filterMap (·.turn? id)).length ≤ 1 := by
  have hcount : (changes.filterMap (·.turn? id)).length ≤ changes.countP (·.id == id) := by
    rw [List.length_filterMap_eq_countP]
    apply List.countP_mono_left
    intro change _ hsome
    obtain ⟨turn, hturn⟩ := Option.isSome_iff_exists.mp hsome
    simp [id_of_turn? hturn]
  have hone : (changes.map (·.id)).count id ≤ 1 := List.nodup_iff_count_le_one.mp nodup id
  rw [List.count_eq_countP, List.countP_map] at hone
  exact Nat.le_trans hcount hone

end PatternChange

namespace Event

/-- The turn that an event tells of a pattern. -/
def turn? (id : String) : Event → Option Turn
  | patternDiscovered _ patternId _ _ => if patternId = id then some .discovered else none
  | patternRemoved _ patternId _ => if patternId = id then some .removed else none
  | _ => none

end Event

/-- Where there is one result at most, it does not matter that some are listed first. -/
lemma filterMap_parted {α β : Type} {first second all : α → Option β} {xs : List α}
    (hparts : ∀ x, (first x = all x ∧ second x = none) ∨ (first x = none ∧ second x = all x))
    (hone : (xs.filterMap all).length ≤ 1) :
    xs.filterMap first ++ xs.filterMap second = xs.filterMap all := by
  induction xs with
  | nil => rfl
  | cons x xs ih =>
    cases hall : all x with
    | none =>
      obtain ⟨hfirst, hsecond⟩ : first x = none ∧ second x = none := by
        rcases hparts x with ⟨hf, hs⟩ | ⟨hf, hs⟩ <;> simp [hf, hs, hall]
      rw [List.filterMap_cons_none hall] at hone ⊢
      rw [List.filterMap_cons_none hfirst, List.filterMap_cons_none hsecond]
      exact ih hone
    | some y =>
      rw [List.filterMap_cons_some hall] at hone ⊢
      have hrest : xs.filterMap all = [] := List.length_eq_zero_iff.mp (by simpa using hone)
      obtain ⟨hf, hs⟩ := List.append_eq_nil_iff.mp ((ih (by simp [hrest])).trans hrest)
      rcases hparts x with ⟨hfirst, hsecond⟩ | ⟨hfirst, hsecond⟩
      · rw [List.filterMap_cons_some (hfirst.trans hall), List.filterMap_cons_none hsecond, hf, hs,
          hrest, List.append_nil]
      · rw [List.filterMap_cons_none hfirst, List.filterMap_cons_some (hsecond.trans hall), hf, hs,
          hrest, List.nil_append]

/-- The patterns that came are told before those that went. For a pattern with one turn at most
this is the order of the changes. -/
lemma Merged.turns_events {merged : Merged} {id : String} (projectId : String)
    (hlogged : merged.delta.isNoop = false)
    (hone : (merged.changes.filterMap (·.turn? id)).length ≤ 1) :
    (merged.events projectId).filterMap (·.turn? id) = merged.changes.filterMap (·.turn? id) := by
  have htold : (merged.events projectId).filterMap (·.turn? id) =
      merged.changes.filterMap (fun change => change.created?.bind fun pattern =>
        if pattern.id = id then some .discovered else none) ++
      merged.changes.filterMap (fun change => change.removed?.bind fun removedId =>
        if removedId = id then some .removed else none) := by
    simp [events, hlogged, List.filterMap_filterMap, Event.turn?]
  rw [htold]
  refine filterMap_parted (fun change => ?_) hone
  cases change with
  | created pattern => exact .inl ⟨rfl, rfl⟩
  | updated pattern => exact .inl ⟨rfl, rfl⟩
  | removed removedId => exact .inr ⟨rfl, rfl⟩

/-! ## Writes to patterns -/

namespace PatternStore

variable {store after : PatternStore} {version : Nat} {now : Int}

/-- With different ids there is one row under the id of a pattern that is stored. -/
lemma length_filter_pattern (nodup : (store.patterns.map (·.patternId)).Nodup) {id : String}
    (hstored : (store.getPattern? id).isSome) :
    (store.patterns.filter fun row => !(row.patternId == id)).length + 1 =
      store.patterns.length := by
  obtain ⟨row, hrow⟩ := Option.isSome_iff_exists.mp hstored
  have hone := Table.filter_key PatternRow.patternId nodup id
  rw [← getPattern?_eq_lookup, hrow] at hone
  have hparts := List.length_eq_length_filter_add (l := store.patterns) (·.patternId == id)
  rw [hone] at hparts
  simp only [Option.toList_some, List.length_singleton] at hparts
  omega

lemma length_putRows (store : PatternStore) (p : Pattern) :
    (putRows store.patterns p).length =
      store.patterns.length + if (store.getPattern? p.id).isSome then 0 else 1 := by
  unfold putRows Table.put
  rw [keyed_patterns.any_eq, getPattern?_eq_lookup]
  show _ = _ + if (Table.lookup _ _ p.freshRow.patternId).isSome = true then 0 else 1
  split <;> simp

/-- A write changes the number of patterns as it reports, and is a turn for no pattern but that
which it reports. -/
lemma Written.counted {change : Option PatternChange} (h : Written version now store after change)
    (nodup : (store.patterns.map (·.patternId)).Nodup) :
    (after.patterns.length : Int) = store.patterns.length + PatternChange.net change.toList ∧
    ∀ id, Turns (store.getPattern? id).isSome (change.toList.filterMap (·.turn? id))
      (after.getPattern? id).isSome := by
  cases h with
  | kept => exact ⟨by simp [PatternChange.net], fun id => .nil _⟩
  | buried p numbers hread =>
    obtain ⟨row, hrow, -⟩ := readPattern?_eq_some.mp hread
    have hstored : (store.getPattern? p.id).isSome := by rw [hrow]; rfl
    constructor
    · have := length_filter_pattern nodup hstored
      simp [PatternChange.net, PatternChange.created?, PatternChange.removed?]
      omega
    · intro id
      rw [getPattern?_buried]
      by_cases hid : p.id = id
      · subst hid
        rw [hstored]
        simpa [PatternChange.turn?] using Turns.removed (.nil false)
      · rw [if_neg (Ne.symm hid)]
        simpa [PatternChange.turn?, hid] using Turns.nil _
  | put existing p numbers hread upserted =>
    have hlength := length_putRows store p
    have hrows := @getPattern?_putRows store p numbers
    cases existing with
    | some previous =>
      obtain ⟨row, hrow, -⟩ := readPattern?_eq_some.mp hread
      constructor
      · simp [hlength, hrow, putChange, PatternChange.net, PatternChange.created?,
          PatternChange.removed?]
      · intro id
        have hsame : (store.getPattern? id).isSome = (getPattern? { store with
            patterns := putRows store.patterns p, numbers } id).isSome := by
          rw [hrows]
          split
          · next hid => simp [hid, hrow]
          · rfl
        rw [← hsame]
        exact .nil _
    | none =>
      have hnone := readPattern?_eq_none.mp hread
      constructor
      · simp [hlength, hnone, putChange, PatternChange.net, PatternChange.created?,
          PatternChange.removed?]
      · intro id
        rw [hrows]
        by_cases hid : p.id = id
        · subst hid
          rw [hnone, if_pos rfl]
          simpa [putChange, PatternChange.turn?] using Turns.discovered (.nil true)
        · rw [if_neg (Ne.symm hid)]
          simpa [putChange, PatternChange.turn?, hid] using Turns.nil _

theorem Writes.counted {changes : List PatternChange} (h : Writes version now store after changes)
    (nodup : (store.patterns.map (·.patternId)).Nodup) :
    (after.patterns.length : Int) = store.patterns.length + PatternChange.net changes ∧
    ∀ id, Turns (store.getPattern? id).isSome (changes.filterMap (·.turn? id))
      (after.getPattern? id).isSome := by
  induction h with
  | nil => exact ⟨by simp [PatternChange.net], fun id => .nil _⟩
  | cons first _ ih =>
    obtain ⟨hlength, hturns⟩ := first.counted nodup
    obtain ⟨hrest, hlater⟩ := ih (first.nodup nodup)
    constructor
    · rw [PatternChange.net_append]
      omega
    · intro id
      rw [List.filterMap_append]
      exact (hturns id).append (hlater id)

/-- What is collected comes from the items, one after another. -/
lemma collecting_reports {α : Type}
    {write : PatternStore → α → Except StorageError (PatternStore × Option PatternChange)}
    {items : List α} {before all : List PatternChange}
    (h : items.foldlM (collecting write) (store, before) = .ok (after, all)) :
    ∃ reports, List.Forall₂ (fun item change => ∃ s t, write s item = .ok (t, change))
      items reports ∧ all = before ++ reports.flatMap (·.toList) := by
  induction items generalizing store before with
  | nil =>
    obtain ⟨rfl, rfl⟩ := Prod.mk.inj (pure_eq_ok.mp h)
    exact ⟨[], .nil, by simp⟩
  | cons item items ih =>
    simp only [List.foldlM_cons, collecting, bind_eq_ok, pure_eq_ok] at h
    obtain ⟨_, ⟨⟨mid, change⟩, hfirst, rfl⟩, hrest⟩ := h
    obtain ⟨reports, hreports, rfl⟩ := ih hrest
    exact ⟨change :: reports, .cons ⟨_, _, hfirst⟩ hreports, by simp⟩

lemma putPattern_reports {existing : Option Pattern} {p : Pattern} {change : PatternChange}
    (h : store.putPattern existing p = .ok (after, some change)) :
    change.id = p.id ∧ change.removed? = none := by
  unfold putPattern at h
  cases existing with
  | none =>
    simp only [bind_eq_ok, pure_eq_ok] at h
    obtain ⟨_, -, h⟩ := h
    obtain rfl := Option.some.inj (Prod.mk.inj h).2
    exact ⟨rfl, rfl⟩
  | some previous =>
    simp only at h
    split at h
    · cases h
    · simp only [bind_eq_ok, pure_eq_ok] at h
      obtain ⟨_, -, h⟩ := h
      obtain rfl := Option.some.inj (Prod.mk.inj h).2
      exact ⟨rfl, rfl⟩

lemma recomputePattern_reports {policy : LearningPolicy} {content : Option PatternContent}
    {gained : Bool} {id : String} {change : PatternChange}
    (h : store.recomputePattern policy version now content gained id = .ok (after, some change)) :
    change.id = id := by
  obtain ⟨existing, hread, hcases⟩ := recomputePattern_cases h
  split at hcases
  · rcases hcases with ⟨-, -, hnone⟩ | ⟨p, rfl, -, hchange⟩
    · cases hnone
    · obtain rfl := Option.some.inj hchange
      exact readPattern?_id hread
  · rcases hcases with ⟨-, -, -, hnone⟩ | ⟨p, candidate, hput⟩
    · cases hnone
    · exact (putPattern_reports hput).1.trans candidate.id

lemma importSeed_reports {policy : LearningPolicy} {seed : PatternSeed} {change : PatternChange}
    (h : store.importSeed policy version now seed = .ok (after, some change)) :
    change.removed? = none := by
  obtain ⟨existing, -, hcases⟩ := importSeed_cases h
  split at hcases
  · cases hcases.2
  · obtain ⟨p, -, hput⟩ := hcases
    exact (putPattern_reports hput).2

/-- Every pattern is computed once in a merge, so it has one turn at most. -/
lemma recompute_turns {policy : LearningPolicy} {gained : List (String × PatternContent)}
    {ids : List String} {changes : List PatternChange} (nodup : ids.Nodup)
    (h : ids.foldlM (collecting fun store id => store.recomputePattern policy version now
      (gained.lookup id) (gained.lookup id).isSome id) (store, []) = .ok (after, changes))
    (id : String) : (changes.filterMap (·.turn? id)).length ≤ 1 := by
  obtain ⟨reports, hreports, rfl⟩ := collecting_reports h
  apply PatternChange.length_turns_le_one
  refine nodup.sublist ?_
  rw [List.nil_append]
  clear h nodup
  induction hreports with
  | nil => simp
  | cons first _ ih =>
    obtain ⟨s, t, hfirst⟩ := first
    rename_i change _ _ _
    cases change with
    | none => simpa using ih.cons _
    | some change =>
      rw [List.flatMap_cons, List.map_append, Option.toList_some, List.map_singleton,
        recomputePattern_reports hfirst]
      exact ih.cons_cons _

/-- An import removes nothing, so a pattern has one turn at most. -/
lemma import_turns {policy : LearningPolicy} {seeds : List PatternSeed}
    {changes : List PatternChange}
    (h : seeds.foldlM (collecting fun store seed => store.importSeed policy version now seed)
      (store, []) = .ok (after, changes)) {id : String} {before stored : Bool}
    (turns : Turns before (changes.filterMap (·.turn? id)) stored) :
    (changes.filterMap (·.turn? id)).length ≤ 1 := by
  apply turns.length_le_one
  intro hremoved
  obtain ⟨change, hchange, hturn⟩ := List.mem_filterMap.mp hremoved
  obtain ⟨reports, hreports, rfl⟩ := collecting_reports h
  obtain ⟨report, hreport, hmem⟩ := List.mem_flatMap.mp hchange
  obtain ⟨seed, -, s, t, himport⟩ := exists_left hreports hreport
  obtain rfl := Option.mem_toList.mp hmem
  have hkept := importSeed_reports himport
  cases change with
  | created pattern => simp [PatternChange.turn?] at hturn
  | updated pattern => simp [PatternChange.turn?] at hturn
  | removed removedId => cases hkept

end PatternStore

/-! ## Deltas -/

namespace LearningDelta

/-- What a delta counts of concepts. -/
def concepts (delta : LearningDelta) : ConceptCounts :=
  ⟨delta.conceptsAdded, delta.conceptsModified, delta.conceptsRemoved⟩

/-- A delta that counts nothing. -/
structure Blank (delta : LearningDelta) : Prop where
  conceptsAdded : delta.conceptsAdded = 0
  conceptsModified : delta.conceptsModified = 0
  conceptsRemoved : delta.conceptsRemoved = 0
  patternsAdded : delta.patternsAdded = 0
  patternsModified : delta.patternsModified = 0
  patternsRemoved : delta.patternsRemoved = 0

/-- A delta before its commit, when the concepts are counted and the patterns are not. -/
structure Open (delta : LearningDelta) (counts : ConceptCounts) (filesTouched : Nat) : Prop where
  concepts : delta.concepts = counts
  files : delta.filesTouched = filesTouched
  resulting : delta.resultingVersion = delta.precedingVersion
  patternsAdded : delta.patternsAdded = 0
  patternsModified : delta.patternsModified = 0
  patternsRemoved : delta.patternsRemoved = 0

lemma Open.blank {delta : LearningDelta} {files : Nat} (opened : delta.Open .zero files) :
    delta.Blank where
  conceptsAdded := congrArg ConceptCounts.added opened.concepts
  conceptsModified := congrArg ConceptCounts.modified opened.concepts
  conceptsRemoved := congrArg ConceptCounts.removed opened.concepts
  patternsAdded := opened.patternsAdded
  patternsModified := opened.patternsModified
  patternsRemoved := opened.patternsRemoved

lemma blank_noop (origin : Origin) (version : Nat) (now : Int) (degraded : List String) :
    (noop origin version now degraded).Blank := ⟨rfl, rfl, rfl, rfl, rfl, rfl⟩

end LearningDelta

/-- A merge as the log has it: either it led nowhere, and counts and logs nothing, or its delta
is logged and counts the changes. -/
inductive Merged.Logged (store : PatternStore) (counts : ConceptCounts)
    (changes : List PatternChange) (merged : Merged) : Prop where
  | idle : merged.delta.isNoop = true → merged.delta.Blank → counts = .zero → changes = [] →
    merged.store.deltas = store.deltas → Merged.Logged store counts changes merged
  | logged : merged.delta.isNoop = false → merged.changes = changes →
    merged.delta.concepts = counts →
    merged.delta.patternsAdded = (changes.filterMap (·.created?)).length →
    merged.delta.patternsRemoved = (changes.filterMap (·.removed?)).length →
    merged.store.deltas = store.deltas ++ [merged.delta.toRow] →
    Merged.Logged store counts changes merged

lemma Merged.Logged.congr {store other : PatternStore} {counts : ConceptCounts}
    {changes : List PatternChange} {merged : Merged} (logged : Logged store counts changes merged)
    (h : store.deltas = other.deltas) : Logged other counts changes merged := by
  cases logged with
  | idle hnoop blank hcounts hnil hsame => exact .idle hnoop blank hcounts hnil (hsame.trans h)
  | logged hnoop hchanges hcounts hadded hremoved hrows =>
    exact .logged hnoop hchanges hcounts hadded hremoved (h ▸ hrows)

namespace PatternStore

variable {store : PatternStore} {merged : Merged}

lemma commit_logs {delta : LearningDelta} {counts : ConceptCounts} {files : Nat}
    {changes : List PatternChange} (opened : delta.Open counts files)
    (hidle : files = 0 → counts = .zero) (honest : store.faults.Honest)
    (h : store.commit delta changes = .ok merged) : merged.Logged store counts changes := by
  unfold commit at h
  simp only at h
  split at h
  · next hnoop =>
    obtain ⟨hfiles, hnil⟩ := hnoop
    have hzero : counts = .zero := hidle (opened.files.symm.trans hfiles)
    have blank := (hzero ▸ opened).blank
    obtain rfl := pure_eq_ok.mp h
    exact .idle (by simpa [LearningDelta.isNoop] using opened.resulting)
      ⟨blank.conceptsAdded, blank.conceptsModified, blank.conceptsRemoved, blank.patternsAdded,
        blank.patternsModified, blank.patternsRemoved⟩ hzero (by simpa using hnil) rfl
  · simp only [bind_eq_ok, pure_eq_ok] at h
    obtain ⟨s1, h1, s2, h2, s3, h3, rfl⟩ := h
    obtain ⟨-, rfl⟩ := advanceVersion_ok h1 honest
    obtain ⟨-, _, rfl⟩ := insertDelta_ok h2 honest
    obtain ⟨_, rfl⟩ := logChanges_ok h3 honest
    exact .logged (by simp [LearningDelta.isNoop]) rfl opened.concepts rfl rfl rfl

/-- The parts of a merge with what is said of them in its delta. -/
lemma merge_delta {policy : LearningPolicy} {origin : Origin} {mode : LearningMode}
    {preceding : Nat} {now : Int} {steps : List MergeStep}
    (h : store.merge policy origin mode preceding now steps = .ok merged)
    (honest : store.faults.Honest) :
    ∃ state final changes delta,
      MergeParts store policy mode preceding now steps merged state final changes ∧
      delta.Open state.counts state.filesTouched ∧ final.commit delta changes = .ok merged := by
  obtain ⟨state, final, changes, parts⟩ := merge_parts h honest
  simp only [merge, bind_eq_ok] at h
  obtain ⟨-, -, state', hsteps, ⟨final', changes'⟩, hrecompute, hcommit⟩ := h
  obtain rfl := Except.ok.inj (parts.steps.symm.trans hsteps)
  obtain ⟨rfl, rfl⟩ := Prod.mk.inj (Except.ok.inj (parts.recompute.symm.trans hrecompute))
  exact ⟨state, final, changes, _, parts, ⟨rfl, rfl, rfl, rfl, rfl, rfl⟩, hcommit⟩

lemma importSeeds_delta {policy : LearningPolicy} {preceding : Nat} {now : Int}
    {seeds : List PatternSeed} (h : store.importSeeds policy preceding now seeds = .ok merged)
    (honest : store.faults.Honest) :
    ∃ final changes delta, ImportParts store policy preceding now seeds merged final changes ∧
      delta.Open .zero 0 ∧ final.commit delta changes = .ok merged := by
  obtain ⟨final, changes, parts⟩ := importSeeds_parts h honest
  simp only [importSeeds, bind_eq_ok] at h
  obtain ⟨-, -, ⟨final', changes'⟩, himport, hcommit⟩ := h
  obtain ⟨rfl, rfl⟩ := Prod.mk.inj (Except.ok.inj (parts.imports.symm.trans himport))
  exact ⟨final, changes, _, parts, ⟨rfl, rfl, rfl, rfl, rfl, rfl⟩, hcommit⟩

end PatternStore

/-! ## Calls -/

/-- What a merge counts and writes: concepts in its steps, patterns in its changes, with one
turn at most for each. -/
structure Merged.Accounted (store : PatternStore) (merged : Merged) (counts : ConceptCounts)
    (changes : List PatternChange) : Prop where
  concepts : (merged.store.concepts.length : Int) = store.concepts.length + counts.net
  patterns : (merged.store.patterns.length : Int) =
    store.patterns.length + PatternChange.net changes
  turns : ∀ id, Turns (store.getPattern? id).isSome (changes.filterMap (·.turn? id))
    (merged.store.getPattern? id).isSome
  once : ∀ id, (changes.filterMap (·.turn? id)).length ≤ 1
  nodup : (merged.store.patterns.map (·.patternId)).Nodup

/-- A merge that writes patterns accounts for them, when each has one turn at most. -/
lemma PatternStore.Writes.accounted {store start final : PatternStore} {merged : Merged}
    {version : Nat} {now : Int} {counts : ConceptCounts} {changes : List PatternChange}
    (writes : Writes version now start final changes) (hstart : start.patterns = store.patterns)
    (hmerged : merged.store.patterns = final.patterns)
    (hconcepts : (merged.store.concepts.length : Int) = store.concepts.length + counts.net)
    (nodup : (store.patterns.map (·.patternId)).Nodup)
    (honce : ∀ id, Turns (start.getPattern? id).isSome (changes.filterMap (·.turn? id))
      (final.getPattern? id).isSome → (changes.filterMap (·.turn? id)).length ≤ 1) :
    merged.Accounted store counts changes := by
  have hbefore : ∀ id, store.getPattern? id = start.getPattern? id := by
    intro id
    rw [getPattern?, getPattern?, hstart]
  have hafter : ∀ id, merged.store.getPattern? id = final.getPattern? id := by
    intro id
    rw [getPattern?, getPattern?, hmerged]
  rw [← hstart] at nodup
  obtain ⟨hlength, hturns⟩ := writes.counted nodup
  exact {
    concepts := hconcepts
    patterns := by rw [hmerged, hlength, hstart]
    turns := by
      intro id
      rw [hbefore, hafter]
      exact hturns id
    once := fun id => honce id (hturns id)
    nodup := hmerged ▸ writes.nodup nodup }

lemma Learned.Idle.no_turn {store : PatternStore} {learned : Learned} (idle : Idle store learned)
    {event : Event} (h : event ∈ learned.events) (id : String) : event.turn? id = none := by
  obtain ⟨_, _, _, _, rfl⟩ := idle.events event h
  rfl

/-- A call that failed, or has found nothing to do. -/
def Learned.Fruitless (learned : Learned) : Prop :=
  match learned.result with
  | .ok delta => delta.isNoop = true
  | .error _ => True

/-- A call that leaves the log alone, counts nothing and announces neither a new pattern nor a
removed one. -/
structure Learned.Silent (before : PatternStore) (learned : Learned) : Prop where
  deltas : learned.store.deltas = before.deltas
  events : ∀ event ∈ learned.events, ∀ id, event.turn? id = none
  blank : ∀ delta, learned.result = .ok delta → delta.Blank

/-- A store whose log adds up to what it holds. -/
structure PatternStore.Balanced (store : PatternStore) : Prop where
  concepts : (store.deltas.map fun row => row.conceptsAdded - row.conceptsRemoved).sum =
    store.concepts.length
  patterns : (store.deltas.map fun row => row.patternsAdded - row.patternsRemoved).sum =
    store.patterns.length
  nodup : (store.patterns.map (·.patternId)).Nodup

lemma PatternStore.balanced_empty : PatternStore.empty.Balanced :=
  ⟨rfl, rfl, .nil⟩

namespace LearnerCall

variable {call : LearnerCall} {store : PatternStore}

/-- A call that comes to a merge accounts for what it writes, and logs it. -/
theorem merged?_accounted {merged : Merged} (nodup : (store.patterns.map (·.patternId)).Nodup)
    (h : call.merged? store = some merged) :
    ∃ counts changes, merged.Accounted store counts changes ∧
      merged.Logged store counts changes := by
  rcases merged?_cases h with
    ⟨sources, changes, origin, task, -, -, hmerge⟩ | ⟨seeds, -, himport⟩
  · obtain ⟨state, final, changes, delta, parts, opened, hcommit⟩ :=
      PatternStore.merge_delta hmerge call.honest
    have counted := MergeState.steps_counted call.honest parts.steps
    obtain ⟨_, _, _, _, hstate⟩ := parts.effect.frame
    obtain ⟨_, _, _, hfinal⟩ := parts.writes.frame
    have hconcepts : (merged.store.concepts.length : Int) =
        store.concepts.length + state.counts.net := by
      have := counted.concepts
      rw [parts.concepts]
      simp only [MergeState.start, ConceptCounts.net_zero, PatternStore.under] at this
      omega
    have logged := PatternStore.commit_logs opened (fun hfiles => counted.idle hfiles)
      (parts.writes.honest (parts.effect.honest call.honest)) hcommit
    exact ⟨state.counts, changes,
      parts.writes.accounted (by rw [hstate]; rfl) parts.patterns hconcepts nodup
        fun id _ => PatternStore.recompute_turns (nodup_sortedTexts _) parts.recompute id,
      logged.congr (by rw [hfinal, hstate]; rfl)⟩
  · obtain ⟨final, changes, delta, parts, opened, hcommit⟩ :=
      PatternStore.importSeeds_delta himport call.honest
    obtain ⟨_, _, _, hfinal⟩ := parts.writes.frame
    have hconcepts : (merged.store.concepts.length : Int) =
        store.concepts.length + ConceptCounts.zero.net := by
      rw [parts.concepts, ConceptCounts.net_zero, Int.add_zero]
      rfl
    have logged := PatternStore.commit_logs opened (fun _ => rfl)
      (parts.writes.honest call.honest) hcommit
    exact ⟨.zero, changes,
      parts.writes.accounted rfl parts.patterns hconcepts nodup
        fun id => PatternStore.import_turns parts.imports,
      logged.congr (by rw [hfinal]; rfl)⟩

/-- After a call the log adds up to what is stored, if it did before, and the announced turns
lead from the patterns before the call to those after it. -/
theorem perform_balanced (call : LearnerCall) (projectId : String) (balanced : store.Balanced) :
    (call.perform projectId store).store.Balanced ∧
    ∀ id, Turns (store.getPattern? id).isSome
      ((call.perform projectId store).events.filterMap (·.turn? id))
      ((call.perform projectId store).store.getPattern? id).isSome := by
  have hcases := call.perform_cases projectId store
  cases hmerged : call.merged? store with
  | none =>
    rw [hmerged] at hcases
    have hquiet : ∀ id, (call.perform projectId store).events.filterMap (·.turn? id) = [] :=
      fun id => List.filterMap_eq_nil_iff.mpr fun event hevent => hcases.no_turn hevent id
    rw [hcases.store]
    refine ⟨⟨balanced.concepts, balanced.patterns, balanced.nodup⟩, fun id => ?_⟩
    rw [hquiet]
    exact .nil _
  | some merged =>
    rw [hmerged] at hcases
    obtain ⟨counts, changes, accounted, logged⟩ := merged?_accounted balanced.nodup hmerged
    rw [hcases]
    cases logged with
    | idle hnoop _ hcounts hnil hsame =>
      subst hcounts hnil
      have hconcepts := accounted.concepts
      have hpatterns := accounted.patterns
      have hsilent : merged.events projectId = [] := by simp [Merged.events, hnoop]
      refine ⟨⟨?_, ?_, accounted.nodup⟩, fun id => ?_⟩
      · rw [hsame, balanced.concepts, hconcepts, ConceptCounts.net_zero, Int.add_zero]
      · rw [hsame, balanced.patterns, hpatterns]
        simp [PatternChange.net]
      · rw [hsilent]
        exact accounted.turns id
    | logged hnoop hchanges hcounts hadded hremoved hrows =>
      refine ⟨⟨?_, ?_, accounted.nodup⟩, fun id => ?_⟩
      · rw [hrows, List.map_append, List.sum_append, balanced.concepts, accounted.concepts,
          ← hcounts]
        simp [LearningDelta.toRow, ConceptCounts.net, LearningDelta.concepts]
      · rw [hrows, List.map_append, List.sum_append, balanced.patterns, accounted.patterns]
        simp [LearningDelta.toRow, PatternChange.net, hadded, hremoved]
      · have htold := Merged.turns_events projectId hnoop (hchanges ▸ accounted.once id)
        rw [hchanges] at htold
        exact htold ▸ accounted.turns id

/-- A call that failed or found nothing to do is silent. -/
theorem perform_silent (call : LearnerCall) (projectId : String)
    (nodup : (store.patterns.map (·.patternId)).Nodup)
    (h : (call.perform projectId store).Fruitless) :
    (call.perform projectId store).Silent store := by
  have hcases := call.perform_cases projectId store
  cases hmerged : call.merged? store with
  | none =>
    rw [hmerged] at hcases
    refine ⟨by rw [hcases.store]; rfl, fun event hevent => hcases.no_turn hevent, ?_⟩
    intro delta hdelta
    obtain ⟨origin, now, degraded, rfl⟩ := hcases.result delta hdelta
    exact LearningDelta.blank_noop ..
  | some merged =>
    rw [hmerged] at hcases
    obtain ⟨counts, changes, -, logged⟩ := merged?_accounted nodup hmerged
    rw [hcases] at h ⊢
    cases logged with
    | idle hnoop blank _ _ hsame =>
      refine ⟨hsame, by simp [Merged.events, hnoop], ?_⟩
      rintro delta ⟨⟩
      exact blank
    | logged hnoop => exact absurd h (by simp [Learned.Fruitless, hnoop])

end LearnerCall

/-! ## Runs -/

namespace LearnerRun

/-- All that listeners are told in a run. -/
def events (projectId : String) (store : PatternStore) (calls : List LearnerCall) : List Event :=
  (trace projectId store calls).flatMap fun (store, call) => (call.perform projectId store).events

theorem run_balanced (projectId : String) (calls : List LearnerCall) {store : PatternStore}
    (balanced : store.Balanced) :
    (run projectId store calls).Balanced ∧
    (∀ id, Turns (store.getPattern? id).isSome
      ((events projectId store calls).filterMap (·.turn? id))
      ((run projectId store calls).getPattern? id).isSome) ∧
    ∀ entry ∈ trace projectId store calls, (entry.1.patterns.map (·.patternId)).Nodup := by
  induction calls generalizing store with
  | nil => exact ⟨balanced, fun id => .nil _, by simp [trace]⟩
  | cons call calls ih =>
    obtain ⟨hafter, hturns⟩ := call.perform_balanced projectId balanced
    obtain ⟨hrun, hlater, hentries⟩ := ih hafter
    refine ⟨hrun, fun id => ?_, ?_⟩
    · rw [events, trace, List.flatMap_cons, List.filterMap_append]
      exact (hturns id).append (hlater id)
    · rw [trace, List.forall_mem_cons]
      exact ⟨balanced.nodup, hentries⟩

end LearnerRun

end HouseStyle
