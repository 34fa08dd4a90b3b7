import HouseStyle.Compliance.Check
import HouseStyle.Proofs.Learning.Progress

/-!
# Projects in use

A project learns, its files are checked, and exceptions are added. Whatever is asked of it, its
patterns stay readable, under different ids and in the slots of their contents, and the scopes of
its exceptions compile. So whether a path is excepted is a question about the exceptions alone.
-/

namespace HouseStyle

/-! ## Ids are not blank -/

namespace Text

lemma trim_ne_nil {s : List Char} {c : Char} (hc : c ∈ s) (h : isBlank c = false) :
    trim s ≠ [] := by
  have hstart : trimStart s ≠ [] := by
    intro hnil
    have := List.dropWhile_eq_nil_iff.mp hnil c hc
    simp [h] at this
  intro hnil
  have hall := List.dropWhile_eq_nil_iff.mp (List.reverse_eq_nil_iff.mp hnil)
  have hblank := hall ((trimStart s).head hstart) (List.mem_reverse.mpr (List.head_mem hstart))
  have hhead : isBlank ((trimStart s).head hstart) = false := List.head_dropWhile_not isBlank hstart
  exact absurd (hhead.symm.trans hblank) (by decide)

end Text

namespace Digest

lemma digitChar_mem_toDigits (n : Nat) : Nat.digitChar (n % 16) ∈ Nat.toDigits 16 n := by
  rw [Nat.toDigits_eq_if (by decide)]
  split
  · next h => simp [Nat.mod_eq_of_lt h]
  · simp

lemma isBlank_digitChar {n : Nat} (h : n < 16) : Text.isBlank (Nat.digitChar n) = false := by
  revert n
  decide

lemma trim_ofText (text : String) : Text.trim (ofText text).toList ≠ [] := by
  apply Text.trim_ne_nil (c := Nat.digitChar ((xxh3 text.toUTF8).toNat % 16))
  · simp only [ofText, hex64, String.toList_ofList]
    exact List.mem_append_right _ (digitChar_mem_toDigits _)
  · exact isBlank_digitChar (Nat.mod_lt _ (by decide))

end Digest

/-! ## What is asked of a project -/

/-- A text to check as the content of a file, with the configuration and the extractor that it is
checked with. -/
structure FileCheck where
  policy : SeverityPolicy
  extract : String → String → Except ExtractionError Extraction
  code : String
  path : String
  options : CheckOptions

/-- What the check sees in the file with a normalized path. -/
def FileCheck.observations (check : FileCheck) (path : String) : List Observation :=
  Observation.observe path check.code (extractOrNothing check.extract path check.code)

def FileCheck.perform (check : FileCheck) (now : Int) (store : PatternStore) : Checked :=
  checkCompliance check.policy check.extract now store check.code check.path check.options

/-- Something asked of a project, at some time and on a database that may refuse writes. The
project may also be closed and opened again. -/
inductive ProjectCall where
  | learn (call : LearnerCall)
  | except (patternId reason scope : String) (now : Int) (faults : Faults)
  | check (asked : FileCheck) (now : Int) (faults : Faults)
  | reopen

namespace PatternStore

/-- The store after an exception was added, or refused. -/
def excepting (store : PatternStore) (now : Int) (patternId reason scope : String) :
    PatternStore :=
  match store.addException now patternId reason scope with
  | .ok (after, _) => after
  | .error _ => store

end PatternStore

namespace ProjectCall

/-- The store that a call leaves. -/
def perform (projectId : String) (store : PatternStore) : ProjectCall → PatternStore
  | learn call => (call.perform projectId store).store
  | except patternId reason scope now faults =>
    (store.under faults).excepting now patternId reason scope
  | check asked now faults => (asked.perform now (store.under faults)).store
  | reopen => store.reopened

/-- Perform calls one after another. -/
def run (projectId : String) (store : PatternStore) (calls : List ProjectCall) : PatternStore :=
  calls.foldl (perform projectId) store

end ProjectCall

/-! ## The invariant -/

/-- A row that is read as a pattern of its own slot, with a confidence that is a number, under an
id that is not blank. -/
structure PatternRow.Sound (row : PatternRow) : Prop where
  reads : ∃ p, Pattern.ofRow row = .ok p ∧ row.slot = p.content.slot
  number : row.confidence.isNaN = false
  named : Text.trim row.patternId.toList ≠ []

/-- The patterns can be told apart and read, and the scopes of all exceptions compile. -/
structure PatternStore.Ruled (store : PatternStore) : Prop where
  nodup : (store.patterns.map (·.patternId)).Nodup
  rows : ∀ row ∈ store.patterns, row.Sound
  scopes : ∀ row ∈ store.exceptions, ∃ scope, Scope.compile row.scopeGlob = .ok scope

namespace PatternStore

variable {store after : PatternStore}

lemma ruled_empty : Ruled .empty := ⟨.nil, by simp [empty], by simp [empty]⟩

/-- Only these tables matter. -/
lemma Ruled.congr (ruled : store.Ruled) (hpatterns : after.patterns = store.patterns)
    (hexceptions : after.exceptions = store.exceptions) : after.Ruled where
  nodup := hpatterns ▸ ruled.nodup
  rows := hpatterns ▸ ruled.rows
  scopes := hexceptions ▸ ruled.scopes

lemma Ruled.under (ruled : store.Ruled) (faults : Faults) : (store.under faults).Ruled :=
  ruled.congr rfl rfl

/-- A pattern that is put is stored in a sound row. -/
lemma Upserted.sound_freshRow {version : Nat} {now : Int} {existing : Option Pattern}
    {p : Pattern} (upserted : Upserted version now existing p)
    (hread : store.readPattern? p.id = .ok existing)
    (sound : ∀ row ∈ store.patterns, row.Sound) : p.freshRow.Sound where
  reads := ⟨_, Pattern.ofRow_freshRow upserted.examples, rfl⟩
  number := by
    rw [Pattern.freshRow_confidence, Decimal.unsignedZero]
    split
    · decide
    · exact upserted.number
  named := by
    show Text.trim p.id.toList ≠ []
    rcases upserted.content with ⟨q, rfl, -⟩ | hid
    · obtain ⟨row, hrow, -⟩ := readPattern?_eq_some.mp hread
      obtain ⟨hmem, hid⟩ := Table.mem_of_lookup _ hrow
      exact hid ▸ (sound row hmem).named
    · rw [hid]
      exact Digest.trim_ofText _

/-- A row that is written over keeps its slot with its content. -/
lemma sound_mergePattern {old new : PatternRow} (sound : old.Sound) (fresh : new.Sound) :
    (mergePattern old new).Sound := by
  obtain ⟨p, hp, hslot⟩ := sound.reads
  obtain ⟨q, hq, -⟩ := fresh.reads
  exact ⟨⟨_, Pattern.ofRow_mergePattern hp hq, hslot⟩, fresh.number, sound.named⟩

lemma Written.sound {version : Nat} {now : Int} {change : Option PatternChange}
    (h : Written version now store after change) (sound : ∀ row ∈ store.patterns, row.Sound) :
    ∀ row ∈ after.patterns, row.Sound := by
  cases h with
  | kept => exact sound
  | buried => exact fun row hrow => sound row (List.mem_filter.mp hrow).1
  | put existing p numbers hread upserted =>
    have fresh := upserted.sound_freshRow hread sound
    intro row hrow
    rcases mem_putRows hrow with hold | rfl | ⟨old, hold, rfl⟩
    · exact sound row hold
    · exact fresh
    · exact sound_mergePattern (sound old hold) fresh

lemma Writes.sound {version : Nat} {now : Int} {changes : List PatternChange}
    (h : Writes version now store after changes) (sound : ∀ row ∈ store.patterns, row.Sound) :
    ∀ row ∈ after.patterns, row.Sound := by
  induction h with
  | nil => exact sound
  | cons first _ ih => exact ih (first.sound sound)

end PatternStore

/-- A merge leaves the exceptions alone. -/
lemma LearnerCall.merged?_exceptions {call : LearnerCall} {store : PatternStore} {merged : Merged}
    (h : call.merged? store = some merged) : merged.store.exceptions = store.exceptions := by
  have hcommit : ∀ {final : PatternStore} {delta : LearningDelta} {changes : List PatternChange},
      final.commit delta changes = .ok merged → final.faults.Honest →
      merged.store.exceptions = final.exceptions := by
    intro final delta changes hmerged honest
    obtain ⟨-, -, ⟨-, -, hstore, -⟩ | ⟨-, -, _, hstore⟩⟩ :=
      PatternStore.commit_ok hmerged honest <;> rw [hstore]
  rcases merged?_cases h with
    ⟨sources, changes, origin, task, -, -, hmerge⟩ | ⟨seeds, -, himport⟩
  · obtain ⟨state, final, changes, parts⟩ := PatternStore.merge_parts hmerge call.honest
    obtain ⟨delta, -, -, hmerged⟩ := parts.commit
    obtain ⟨_, _, _, _, hstate⟩ := parts.effect.frame
    obtain ⟨_, _, _, hfinal⟩ := parts.writes.frame
    rw [hcommit hmerged (parts.writes.honest (parts.effect.honest call.honest)), hfinal, hstate]
    rfl
  · obtain ⟨final, changes, parts⟩ := PatternStore.importSeeds_parts himport call.honest
    obtain ⟨delta, -, hmerged⟩ := parts.commit
    obtain ⟨_, _, _, hfinal⟩ := parts.writes.frame
    rw [hcommit hmerged (parts.writes.honest call.honest), hfinal]
    rfl

/-! ## Exceptions and checks -/

namespace PatternStore

variable {store after : PatternStore} {now : Int} {patternId reason scope : String}

/-- The row of the exception that is added next. -/
def nextException (store : PatternStore) (now : Int) (patternId reason scope : String) :
    ExceptionRow :=
  ⟨store.exceptions.length + 1, patternId, scope, reason, now⟩

/-- A blank name is refused. -/
lemma excepting_blank (blank : Text.trim patternId.toList = []) :
    store.excepting now patternId reason scope = store := by
  simp [excepting, addException, blank, throw, throwThe, MonadExceptOf.throw, bind, Except.bind]

/-- An exception with a name and a scope that compiles is added, when the database lets it. -/
lemma excepting_eq {compiled : Scope} (now : Int) (reason : String)
    (allowed : store.faults.allows .exceptions .insert = .ok true)
    (named : Text.trim patternId.toList ≠ []) (hscope : Scope.compile scope = .ok compiled) :
    ∃ numbers, store.excepting now patternId reason scope = { store with
      exceptions := store.exceptions ++ [store.nextException now patternId reason scope]
      numbers } := by
  refine ⟨store.numbers.add .exceptions 1, ?_⟩
  have hnamed : (Text.trim patternId.toList).isEmpty = false := by simpa using named
  simp [excepting, addException, insertException, Table.append, nextException, allowed, hnamed,
    hscope, bind, Except.bind, pure, Except.pure]

/-- Exceptions are only ever added behind the others, with scopes that compile. -/
lemma excepting_cases (store : PatternStore) (now : Int) (patternId reason scope : String) :
    ∃ exceptions numbers,
      store.excepting now patternId reason scope = { store with exceptions, numbers } ∧
      (exceptions = store.exceptions ∨ (∃ compiled, Scope.compile scope = .ok compiled) ∧
        exceptions = store.exceptions ++ [store.nextException now patternId reason scope]) := by
  by_cases named : Text.trim patternId.toList = []
  · exact ⟨_, _, excepting_blank named, .inl rfl⟩
  have hnamed : (Text.trim patternId.toList).isEmpty = false := by simpa using named
  cases hscope : Scope.compile scope with
  | error error =>
    refine ⟨store.exceptions, store.numbers, ?_, .inl rfl⟩
    simp [excepting, addException, hnamed, hscope, bind, Except.bind]
  | ok compiled =>
    cases allowed : store.faults.allows .exceptions .insert with
    | error error =>
      refine ⟨store.exceptions, store.numbers, ?_, .inl rfl⟩
      simp [excepting, addException, insertException, Table.append, allowed, hnamed, hscope, bind,
        Except.bind, throw, throwThe, MonadExceptOf.throw]
    | ok written =>
      cases written with
      | false =>
        refine ⟨store.exceptions, store.numbers.add .exceptions 0, ?_, .inl rfl⟩
        simp [excepting, addException, insertException, Table.append, allowed, hnamed, hscope,
          bind, Except.bind, pure, Except.pure]
      | true =>
        obtain ⟨numbers, hadded⟩ := excepting_eq now reason allowed named hscope
        exact ⟨_, numbers, hadded, .inr ⟨⟨compiled, rfl⟩, rfl⟩⟩

/-- An exception, added or refused, leaves the patterns and the exceptions before it alone. -/
lemma Ruled.excepting (ruled : store.Ruled) (now : Int) (patternId reason scope : String) :
    (store.excepting now patternId reason scope).Ruled ∧
      store.exceptions <+: (store.excepting now patternId reason scope).exceptions := by
  obtain ⟨exceptions, numbers, hstore, hexceptions⟩ :=
    store.excepting_cases now patternId reason scope
  rw [hstore]
  rcases hexceptions with rfl | ⟨hscope, rfl⟩
  · exact ⟨ruled.congr rfl rfl, List.prefix_rfl⟩
  · refine ⟨⟨ruled.nodup, ruled.rows, fun row hrow => ?_⟩, List.prefix_append _ _⟩
    rcases List.mem_append.mp hrow with hold | hnew
    · exact ruled.scopes row hold
    · rw [List.mem_singleton.mp hnew]
      exact hscope

end PatternStore

/-! ## Checks -/

/-- A check leaves all tables but the history alone. -/
lemma FileCheck.perform_frame (check : FileCheck) (now : Int) (store : PatternStore) :
    ∃ violations numbers, (check.perform now store).store = { store with violations, numbers } := by
  unfold perform checkCompliance
  split
  · exact ⟨_, _, rfl⟩
  · simp only
    split
    · exact ⟨_, _, rfl⟩
    · next after report h =>
      simp only [bind_eq_ok, pure_eq_ok, Prod.mk.injEq] at h
      obtain ⟨_, -, kept, hkept, rfl, -⟩ := h
      unfold PatternStore.recordHistory PatternStore.insertViolations at hkept
      split at hkept
      · simp only [bind_eq_ok, pure_eq_ok] at hkept
        obtain ⟨violations, -, rfl⟩ := hkept
        exact ⟨_, _, rfl⟩
      · obtain rfl := Except.ok.inj hkept
        exact ⟨_, _, rfl⟩

/-! ## Runs -/

namespace ProjectCall

variable {store : PatternStore}

/-- Every call keeps the rules, and all exceptions in their places. -/
theorem perform_ruled (projectId : String) (call : ProjectCall) (ruled : store.Ruled) :
    (call.perform projectId store).Ruled ∧
      store.exceptions <+: (call.perform projectId store).exceptions := by
  cases call with
  | learn call =>
    simp only [perform, call.perform_store]
    cases hmerged : call.merged? store with
    | none => exact ⟨ruled.congr rfl rfl, List.prefix_rfl⟩
    | some merged =>
      obtain ⟨start, final, changes, delta, written⟩ := LearnerCall.merged?_written hmerged
      have hexceptions := LearnerCall.merged?_exceptions hmerged
      obtain ⟨hpatterns, -⟩ :=
        PatternStore.commit_tables written.commit (written.writes.honest written.honest)
      refine ⟨⟨?_, ?_, ?_⟩, hexceptions ▸ List.prefix_rfl⟩
      · rw [hpatterns]
        exact written.writes.nodup (written.patterns ▸ ruled.nodup)
      · rw [hpatterns]
        exact written.writes.sound (written.patterns ▸ ruled.rows)
      · rw [hexceptions]
        exact ruled.scopes
  | except patternId reason scope now faults =>
    exact (ruled.under faults).excepting now patternId reason scope
  | check asked now faults =>
    obtain ⟨violations, numbers, hstore⟩ := asked.perform_frame now (store.under faults)
    simp only [perform, hstore]
    exact ⟨ruled.congr rfl rfl, List.prefix_rfl⟩
  | reopen => exact ⟨ruled.congr rfl rfl, List.prefix_rfl⟩

theorem run_ruled (projectId : String) (calls : List ProjectCall) (ruled : store.Ruled) :
    (run projectId store calls).Ruled ∧
      store.exceptions <+: (run projectId store calls).exceptions := by
  induction calls generalizing store with
  | nil => exact ⟨ruled, List.prefix_rfl⟩
  | cons call calls ih =>
    obtain ⟨hafter, hlonger⟩ := call.perform_ruled projectId ruled
    obtain ⟨hrun, hlater⟩ := ih hafter
    exact ⟨hrun, hlonger.trans hlater⟩

end ProjectCall

/-! ## What exceptions cover -/

/-- Whether the scope written in a text covers a path. -/
def Scope.Reaches (text path : String) : Prop :=
  ∃ scope, Scope.compile text = .ok scope ∧ scope.covers path = true

/-- Where all scopes compile, the search among them says whether one covers the path. -/
lemma coveredBy_ok (path : String) {texts : List String}
    (hscopes : ∀ text ∈ texts, ∃ scope, Scope.compile text = .ok scope) :
    ∃ covered, coveredBy path texts = .ok covered ∧
      (covered = true ↔ ∃ text ∈ texts, Scope.Reaches text path) := by
  induction texts with
  | nil => exact ⟨false, rfl, by simp⟩
  | cons text texts ih =>
    obtain ⟨scope, hscope⟩ := hscopes text (by simp)
    obtain ⟨later, hlater, hiff⟩ := ih fun text htext => hscopes text (by simp [htext])
    have hreaches : Scope.Reaches text path ↔ scope.covers path = true := by
      simp [Scope.Reaches, hscope]
    cases hcovers : scope.covers path with
    | true =>
      refine ⟨true, ?_, by simp [hreaches, hcovers]⟩
      simp [coveredBy, hscope, hcovers, bind, Except.bind, pure, Except.pure]
    | false =>
      refine ⟨later, ?_, by simp [hreaches, hcovers, hiff]⟩
      simp [coveredBy, hscope, hcovers, hlater, bind, Except.bind]

namespace PatternStore

variable {store : PatternStore} {patternId path : String}

/-- An exception of the pattern covers the path. -/
def Excepts (store : PatternStore) (patternId path : String) : Prop :=
  ∃ row ∈ store.exceptions, row.patternId = patternId ∧ Scope.Reaches row.scopeGlob path

lemma Excepts.mono {after : PatternStore} (h : store.Excepts patternId path)
    (hlonger : store.exceptions <+: after.exceptions) : after.Excepts patternId path := by
  obtain ⟨row, hrow, hreaches⟩ := h
  exact ⟨row, hlonger.subset hrow, hreaches⟩

lemma Ruled.covered (ruled : store.Ruled) (patternId path : String) :
    ∃ covered, coveredBy path (store.scopesOf patternId) = .ok covered ∧
      (covered = true ↔ store.Excepts patternId path) := by
  have hscopes : ∀ text ∈ store.scopesOf patternId, ∃ scope, Scope.compile text = .ok scope := by
    intro text htext
    obtain ⟨row, hrow, rfl⟩ := List.mem_map.mp htext
    exact ruled.scopes row (List.mem_filter.mp hrow).1
  obtain ⟨covered, hcovered, hiff⟩ := coveredBy_ok path hscopes
  refine ⟨covered, hcovered, ?_⟩
  simp [hiff, scopesOf, exceptionsForPattern, Excepts, and_assoc]

lemma Ruled.silences_iff (ruled : store.Ruled) :
    store.silences patternId path = true ↔ store.Excepts patternId path := by
  obtain ⟨covered, hcovered, hiff⟩ := ruled.covered patternId path
  rw [silences, hcovered]
  exact hiff

/-- What is asked of a path is what checks of it go by. -/
lemma Ruled.isExcepted_eq (ruled : store.Ruled) {asked : String}
    (h : checkablePath asked = .ok path) :
    store.isExcepted patternId asked = .ok (store.silences patternId path) := by
  obtain ⟨covered, hcovered, -⟩ := ruled.covered patternId path
  simp [isExcepted, silences, h, hcovered, bind, Except.bind]

lemma Ruled.isExcepted_iff (ruled : store.Ruled) {asked : String} :
    store.isExcepted patternId asked = .ok true ↔
      ∃ path, checkablePath asked = .ok path ∧ store.Excepts patternId path := by
  cases hpath : checkablePath asked with
  | error error => simp [isExcepted, hpath, bind, Except.bind]
  | ok path => simp [ruled.isExcepted_eq hpath, ruled.silences_iff]

end PatternStore

end HouseStyle
