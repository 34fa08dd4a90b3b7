import HouseStyle.Learning.Replay
import HouseStyle.Proofs.Learning.Calls
import HouseStyle.Proofs.Pattern.Payload
import Mathlib.Data.List.Forall2

/-!
# The log gives the patterns again

The patterns and the table of a replay go side by side, row by entry: every write of a merge
does to the rows what its logged operation does to the entries. The log holds the operations
of all merges in the order in which they were made, so replaying it ends in a table that goes
with the stored patterns.
-/

namespace HouseStyle

/-! ## Tables side by side -/

namespace Table

variable {ρ β : Type} {key : ρ → String} {sameKey : ρ → ρ → Bool} {merge : ρ → ρ → ρ}
  {R : String × β → ρ → Prop} {entries : List (String × β)} {rows : List ρ}

lemma any_sideBySide (keys : ∀ e r, R e r → e.1 = key r) (h : List.Forall₂ R entries rows)
    (k : String) : entries.any (·.1 == k) = rows.any (key · == k) := by
  induction h with
  | nil => rfl
  | cons first _ ih => rw [List.any_cons, List.any_cons, ih, keys _ _ first]

/-- Putting a value under a key in both goes side by side. -/
lemma sideBySide_put (keyed : Keyed key sameKey merge) (keys : ∀ e r, R e r → e.1 = key r)
    (h : List.Forall₂ R entries rows) (row : ρ) (value : β)
    (merged : ∀ old ∈ rows, key old = key row → R (key row, value) (merge old row))
    (fresh : (∀ old ∈ rows, key old ≠ key row) → R (key row, value) row) :
    List.Forall₂ R (putKeyed (key row) value entries) (put rows sameKey merge row) := by
  have hany : entries.any (·.1 == key row) = rows.any (sameKey row) := by
    rw [any_sideBySide keys h, funext (keyed.same row)]
    simp only [Bool.beq_comm]
  unfold putKeyed put
  rw [hany]
  split
  · next hany' =>
    clear hany hany' fresh
    induction h with
    | nil => exact .nil
    | @cons entry old entries rows first rest ih =>
      refine .cons ?_ (ih fun old hold => merged old (by simp [hold]))
      have hkey := keys _ _ first
      by_cases hsame : key old = key row
      · simpa [keyed.same, hkey, hsame] using merged old (by simp) hsame
      · have hsame' : key row ≠ key old := fun heq => hsame heq.symm
        simpa [keyed.same, hkey, hsame, hsame'] using first
  · next hnone =>
    have habsent : ∀ old ∈ rows, key old ≠ key row := by
      intro old hold heq
      apply hnone
      exact List.any_eq_true.mpr ⟨old, hold, by simp [keyed.same, heq]⟩
    exact List.rel_append h (.cons (fresh habsent) .nil)

/-- Erasing a key from both goes side by side. -/
lemma sideBySide_erase (keys : ∀ e r, R e r → e.1 = key r) (h : List.Forall₂ R entries rows)
    (k : String) :
    List.Forall₂ R (eraseKeyed k entries) (rows.filter fun row => !(key row == k)) := by
  refine List.rel_filter ?_ h
  intro entry row hentry
  simp [keys _ _ hentry]

/-- Sorting both by the keys goes side by side. -/
lemma sideBySide_sort (keys : ∀ e r, R e r → e.1 = key r) (h : List.Forall₂ R entries rows) :
    List.Forall₂ R (entries.mergeSort fun a b => a.1 ≤ b.1)
      (rows.mergeSort fun a b => key a ≤ key b) := by
  obtain ⟨hlength, hzip⟩ := List.forall₂_iff_zip.mp h
  obtain ⟨pairs, hsorted⟩ : ∃ pairs, pairs = (entries.zip rows).mergeSort
    (fun a b => a.1.1 ≤ b.1.1) := ⟨_, rfl⟩
  have hpairs : ∀ pair ∈ pairs, R pair.1 pair.2 := by
    intro pair hpair
    rw [hsorted, List.mem_mergeSort] at hpair
    exact hzip hpair
  have hleft : pairs.map Prod.fst = entries.mergeSort fun a b => a.1 ≤ b.1 := by
    rw [hsorted, List.map_mergeSort (s := fun a b : String × β => decide (a.1 ≤ b.1)),
      List.map_fst_zip (Nat.le_of_eq hlength)]
    exact fun _ _ _ _ => rfl
  have hright : pairs.map Prod.snd = rows.mergeSort fun a b => key a ≤ key b := by
    rw [hsorted, List.map_mergeSort (s := fun a b : ρ => decide (key a ≤ key b)),
      List.map_snd_zip (Nat.le_of_eq hlength.symm)]
    intro a ha b hb
    rw [keys _ _ (hzip ha), keys _ _ (hzip hb)]
  rw [← hleft, ← hright, List.forall₂_map_left_iff, List.forall₂_map_right_iff,
    List.forall₂_same]
  exact hpairs

end Table

namespace Pattern

/-- What is assumed of a pattern that is written: its counts are signed words, and the text
of its confidence is read as the number that is stored of it. -/
structure Plain (p : Pattern) : Prop where
  frequency : p.frequency < Word.half
  baseline : p.baseline < Word.half
  confidence : ∃ read, ConfidenceReads p.confidence read ∧
    sameConfidence read (Decimal.unsignedZero p.confidence) = true

lemma plain_iff (p : Pattern) :
    p.Plain ↔ p.frequency < Word.half ∧ p.baseline < Word.half ∧
      ((Json.parse? (Json.ofReal p.confidence).render).bind Json.asReal?).any
        (sameConfidence · (Decimal.unsignedZero p.confidence)) = true := by
  rw [Option.any_eq_true]
  exact ⟨fun h => ⟨h.frequency, h.baseline, h.confidence⟩, fun h => ⟨h.1, h.2.1, h.2.2⟩⟩

instance (p : Pattern) : Decidable p.Plain := decidable_of_iff _ (plain_iff p).symm

/-- What is read of the payload of a plain pattern is what is read of its row. -/
lemma same_restored {p : Pattern} (plain : p.Plain) (hcategory : p.category = p.content.category)
    (hversion : p.version < Word.half) {confidence : Float}
    (h : sameConfidence confidence (Decimal.unsignedZero p.confidence) = true) :
    ({ p with confidence } : Pattern).same p.restored = true := by
  simp only [same, sameDerived, restored, readWord_storedWord plain.frequency,
    readWord_storedWord plain.baseline, readWord_storedWord hversion, hcategory, h, beq_self_eq_true,
    Bool.and_self]

/-- A restored pattern has the content and the age of the one that was stored. -/
lemma restored_keeps (p : Pattern) :
    { p.restored with
      id := p.id, category := p.content.category, content := p.content,
      createdAt := p.createdAt } = p.restored := by
  have general : ∀ (r : Pattern) (id : String) (category : Category) (content : PatternContent)
      (createdAt : Int), r.id = id → r.category = category → r.content = content →
      r.createdAt = createdAt → { r with id, category, content, createdAt } = r := by
    rintro r _ _ _ _ rfl rfl rfl rfl
    rfl
  apply general <;> simp only [restored]

end Pattern

namespace PatternChange

/-- The pattern that a change writes. -/
def put? : PatternChange → Option Pattern
  | created pattern | updated pattern => some pattern
  | removed _ => none

end PatternChange

namespace PatternStore

variable {store after : PatternStore} {known : PatternContent → Prop} {table : ReplayTable}

/-- An entry of a replay goes with a row: it is what is read of the row. -/
structure Mirrors (known : PatternContent → Prop) (entry : String × Pattern)
    (row : PatternRow) : Prop where
  key : entry.1 = row.patternId
  read : ∃ q, Pattern.ofRow row = .ok q ∧ entry.2.same q = true ∧ q.content.id = q.id ∧
    known q.content
  createdAt : Word.isSigned row.createdAt = true
  lastSeen : Word.isSigned row.lastSeen = true

/-- Contents are told apart by their ids. -/
def Distinct (known : PatternContent → Prop) : Prop :=
  ∀ c d, known c → known d → c.id = d.id → c = d

lemma exists_mirrored {rows : List PatternRow} (h : List.Forall₂ (Mirrors known) table rows)
    {row : PatternRow} (hrow : row ∈ rows) : ∃ entry, Mirrors known entry row := by
  induction h with
  | nil => simp at hrow
  | cons first _ ih =>
    rcases List.mem_cons.mp hrow with rfl | hrow
    · exact ⟨_, first⟩
    · exact ih hrow

/-- What is known of a stored pattern of a mirrored table. -/
lemma mirrored_existing (h : List.Forall₂ (Mirrors known) table store.patterns) {id : String}
    {q : Pattern} (hread : store.readPattern? id = .ok (some q)) :
    q.id = id ∧ q.content.id = id ∧ known q.content ∧ Word.isSigned q.createdAt = true ∧
      Word.isSigned q.lastSeen = true := by
  obtain ⟨row, hrow, hq⟩ := readPattern?_eq_some.mp hread
  obtain ⟨hmem, hid⟩ := Table.mem_of_lookup _ hrow
  obtain ⟨entry, mirrors⟩ := exists_mirrored h hmem
  obtain ⟨q', hq', -, hcontent, hknown⟩ := mirrors.read
  obtain rfl : q = q' := by simpa [hq] using hq'
  have hread := (Pattern.ofRow_eq_ok_iff.mp hq).2.2.2
  have hqid : q.id = id := (congrArg Pattern.id hread).trans hid
  have hcreated : q.createdAt = row.createdAt := congrArg Pattern.createdAt hread
  have hseen : q.lastSeen = row.lastSeen := congrArg Pattern.lastSeen hread
  refine ⟨hqid, by rw [hcontent, hqid], hknown, ?_, ?_⟩
  · rw [hcreated]
    exact mirrors.createdAt
  · rw [hseen]
    exact mirrors.lastSeen

variable {version : Nat} {now : Int} {existing : Option Pattern} {p : Pattern}

/-- What is put is writable, and its id is its content's. -/
lemma Upserted.writable (upserted : Upserted version now existing p) (plain : p.Plain)
    (hversion : version < Word.half) (hnow : Word.isSigned now = true)
    (h : List.Forall₂ (Mirrors known) table store.patterns)
    (hread : store.readPattern? p.id = .ok existing) :
    p.Writable ∧ p.content.id = p.id := by
  have hbound : Word.half < Word.bound := by decide
  have hexisting : ∀ q, existing = some q → _ := fun q hq => mirrored_existing h (hq ▸ hread)
  constructor
  · exact {
      frequency := upserted.frequency
      baseline := Nat.lt_trans plain.baseline hbound
      version := by
        rw [upserted.version]
        exact Nat.lt_trans hversion hbound
      createdAt := by
        rw [upserted.createdAt]
        cases hq : existing with
        | none => exact hnow
        | some q => exact (hexisting q hq).2.2.2.1
      lastSeen := by
        rcases upserted.lastSeen with hseen | ⟨q, hq, hseen⟩
        · rw [hseen]
          exact hnow
        · rw [hseen]
          exact (hexisting q hq).2.2.2.2
      examples := upserted.examples }
  · rcases upserted.content with ⟨q, hq, hcontent⟩ | hid
    · rw [hcontent]
      exact (hexisting q hq).2.1
    · exact hid.symm

/-- A put and the replay of its operation go side by side. -/
lemma mirrors_put (distinct : Distinct known) (hversion : version < Word.half)
    (hnow : Word.isSigned now = true) (nodup : (store.patterns.map (·.patternId)).Nodup)
    (h : List.Forall₂ (Mirrors known) table store.patterns)
    (hread : store.readPattern? p.id = .ok existing) (upserted : Upserted version now existing p)
    (plain : p.Plain) (hknown : known p.content) :
    ∃ pattern, (Json.parse? p.toJson.render).bind Pattern.ofJson? = some pattern ∧
      List.Forall₂ (Mirrors known) (putKeyed p.id pattern table) (putRows store.patterns p) := by
  obtain ⟨writable, hid⟩ := upserted.writable plain hversion hnow h hread
  obtain ⟨confidence, hreads, hsame⟩ := plain.confidence
  refine ⟨_, Pattern.ofJson?_payload writable hreads, ?_⟩
  have hsame := Pattern.same_restored plain upserted.category (upserted.version ▸ hversion) hsame
  have hfresh := Pattern.ofRow_freshRow writable.examples
  have hrestored : p.restored.content.id = p.restored.id ∧ known p.restored.content := by
    simp only [Pattern.restored]
    exact ⟨hid, hknown⟩
  apply Table.sideBySide_put keyed_patterns (fun e r mirrors => mirrors.key) h p.freshRow
  · intro old hold hkey
    have hid' : old.patternId = p.id := hkey
    have hlookup : store.getPattern? p.id = some old := by
      rw [← hid']
      exact Table.lookup_of_mem _ nodup hold
    obtain ⟨entry, mirrors⟩ := exists_mirrored h hold
    obtain ⟨q, hq, -, -, -⟩ := mirrors.read
    have hsome : store.readPattern? p.id = .ok (some q) :=
      readPattern?_eq_some.mpr ⟨old, hlookup, hq⟩
    obtain rfl : some q = existing := by simpa [hsome] using hread
    obtain ⟨hqid, hqcontent, hqknown, -⟩ := mirrored_existing h hsome
    have hcontent : q.content = p.content :=
      distinct _ _ hqknown hknown (hqcontent.trans hid.symm)
    have hcreated : p.createdAt = q.createdAt := upserted.createdAt
    have hmerged : Pattern.ofRow (mergePattern old p.freshRow) = .ok p.restored := by
      rw [Pattern.ofRow_mergePattern hq hfresh, hqid, hcontent, ← hcreated, p.restored_keeps]
    exact {
      key := by rw [mergePattern_patternId, hid']; rfl
      read := ⟨p.restored, hmerged, hsame, hrestored⟩
      createdAt := by rw [mergePattern_createdAt]; exact mirrors.createdAt
      lastSeen := by rw [mergePattern_lastSeen]; exact writable.lastSeen }
  · intro _
    exact {
      key := rfl
      read := ⟨p.restored, hfresh, hsame, hrestored⟩
      createdAt := writable.createdAt
      lastSeen := writable.lastSeen }

/-- What is assumed of the patterns that changes put. -/
def Putting (known : PatternContent → Prop) (changes : List PatternChange) : Prop :=
  ∀ change ∈ changes, ∀ p, change.put? = some p → p.Plain ∧ known p.content

lemma put?_putChange (existing : Option Pattern) (p : Pattern) :
    (putChange existing p).put? = some p := by
  cases existing <;> rfl

lemma toRow_putChange (existing : Option Pattern) (p : Pattern) (version seq : Nat) :
    (putChange existing p).toRow version seq =
      ⟨storedWord version, seq, upsertName, p.id, some p.toJson.render⟩ := by
  cases existing <;> rfl

/-- One write and the replay of what it logs go side by side. -/
lemma Written.replayed {change : Option PatternChange} (distinct : Distinct known)
    (hversion : version < Word.half) (hnow : Word.isSigned now = true)
    (written : Written version now store after change) (putting : Putting known change.toList)
    (nodup : (store.patterns.map (·.patternId)).Nodup)
    (h : List.Forall₂ (Mirrors known) table store.patterns) (seq : Nat) :
    ∃ table', (loggedRows version seq change.toList).foldlM ReplayTable.apply table = .ok table' ∧
      List.Forall₂ (Mirrors known) table' after.patterns := by
  cases written with
  | kept => exact ⟨table, rfl, h⟩
  | buried p numbers hread =>
    refine ⟨eraseKeyed p.id table, ?_, Table.sideBySide_erase (fun _ _ m => m.key) h p.id⟩
    simp [loggedRows, PatternChange.toRow, ReplayTable.apply, upsertName, removeName, pure,
      Except.pure, bind, Except.bind]
  | put existing p numbers hread upserted =>
    obtain ⟨plain, hknown⟩ := putting _ (by simp) p (put?_putChange existing p)
    obtain ⟨pattern, hpayload, hmirrors⟩ :=
      mirrors_put distinct hversion hnow nodup h hread upserted plain hknown
    refine ⟨putKeyed p.id pattern table, ?_, hmirrors⟩
    simp [loggedRows, toRow_putChange, ReplayTable.apply, hpayload, pure, Except.pure, bind,
      Except.bind]

lemma loggedRows_append (version seq : Nat) (changes more : List PatternChange) :
    loggedRows version seq (changes ++ more) =
      loggedRows version seq changes ++ loggedRows version (seq + changes.length) more := by
  induction changes generalizing seq with
  | nil => simp [loggedRows]
  | cons change changes ih => simp [loggedRows, ih, Nat.add_assoc, Nat.add_comm 1]

/-- The writes of a merge and the replay of what they log go side by side. -/
theorem Writes.replayed {changes : List PatternChange} (distinct : Distinct known)
    (hversion : version < Word.half) (hnow : Word.isSigned now = true)
    (writes : Writes version now store after changes) (putting : Putting known changes)
    (nodup : (store.patterns.map (·.patternId)).Nodup)
    (h : List.Forall₂ (Mirrors known) table store.patterns) (seq : Nat) :
    ∃ table', (loggedRows version seq changes).foldlM ReplayTable.apply table = .ok table' ∧
      List.Forall₂ (Mirrors known) table' after.patterns := by
  induction writes generalizing table seq with
  | nil => exact ⟨table, rfl, h⟩
  | @cons store mid after change changes first _ ih =>
    obtain ⟨table₁, hfirst, h₁⟩ := first.replayed distinct hversion hnow
      (fun c hc => putting c (List.mem_append_left _ hc)) nodup h seq
    obtain ⟨table₂, hrest, h₂⟩ := ih (fun c hc => putting c (List.mem_append_right _ hc))
      (first.nodup nodup) h₁ (seq + change.toList.length)
    refine ⟨table₂, ?_, h₂⟩
    rw [loggedRows_append, List.foldlM_append, hfirst]
    exact hrest

/-! ## The log in order -/

/-- The order of the log. -/
def operationBefore (a b : OperationRow) : Bool :=
  a.resultingVersion < b.resultingVersion ||
    (a.resultingVersion == b.resultingVersion && a.seq ≤ b.seq)

lemma pairwise_loggedRows (version seq : Nat) (changes : List PatternChange) :
    (loggedRows version seq changes).Pairwise fun a b => operationBefore a b = true := by
  induction changes generalizing seq with
  | nil => exact .nil
  | cons change changes ih =>
    refine .cons ?_ (ih (seq + 1))
    intro row hrow
    obtain ⟨hversion, hseq⟩ := mem_loggedRows hrow
    obtain ⟨hown, hownSeq⟩ := toRow_seq change version seq
    simp [operationBefore, hversion, hown, hownSeq]
    omega

/-- The log of a store leads to its patterns. -/
structure Logged (known : PatternContent → Prop) (store : PatternStore) : Prop where
  nodup : (store.patterns.map (·.patternId)).Nodup
  counted : 0 ≤ store.version
  past : ∀ row ∈ store.operations, row.resultingVersion ≤ store.version
  ordered : store.operations.Pairwise fun a b => operationBefore a b = true
  replayed : ∃ table, store.operations.foldlM ReplayTable.apply [] = .ok table ∧
    List.Forall₂ (Mirrors known) table store.patterns

lemma logged_empty (known : PatternContent → Prop) : Logged known .empty where
  nodup := List.nodup_nil
  counted := Int.le_refl 0
  past := by simp [empty]
  ordered := .nil
  replayed := ⟨[], rfl, .nil⟩

/-- Only these tables matter. -/
lemma Logged.congr (logged : Logged known store) (hversion : after.version = store.version)
    (hpatterns : after.patterns = store.patterns)
    (hoperations : after.operations = store.operations) : Logged known after where
  nodup := by rw [hpatterns]; exact logged.nodup
  counted := by rw [hversion]; exact logged.counted
  past := by rw [hversion, hoperations]; exact logged.past
  ordered := by rw [hoperations]; exact logged.ordered
  replayed := by rw [hpatterns, hoperations]; exact logged.replayed

/-- A log that is prolonged at the next version stays in order, and leads to the new patterns if
its new part leads there from the old ones. -/
lemma Logged.append (logged : Logged known store) {next : Nat} {changes : List PatternChange}
    (hstored : storedWord next = store.version + 1) (hversion : after.version = storedWord next)
    (hoperations : after.operations = store.operations ++ loggedRows next 0 changes)
    (nodup : (after.patterns.map (·.patternId)).Nodup)
    (replayed : ∃ table, (store.operations ++ loggedRows next 0 changes).foldlM
        ReplayTable.apply [] = .ok table ∧ List.Forall₂ (Mirrors known) table after.patterns) :
    Logged known after where
  nodup := nodup
  counted := by
    have := logged.counted
    omega
  past := by
    intro operation hoperation
    rw [hoperations] at hoperation
    rcases List.mem_append.mp hoperation with hold | hnew
    · have := logged.past operation hold
      omega
    · rw [hversion]
      exact Int.le_of_eq (mem_loggedRows hnew).1
  ordered := by
    rw [hoperations, List.pairwise_append]
    refine ⟨logged.ordered, pairwise_loggedRows _ _ _, ?_⟩
    intro old hold new hnew
    have hpast := logged.past old hold
    have hlater := (mem_loggedRows hnew).1
    simp only [operationBefore, Bool.or_eq_true, decide_eq_true_eq]
    left
    omega
  replayed := by
    rw [hoperations]
    exact replayed

/-- A commit of writes keeps the log leading to the patterns, and moves the version on by at
most one. -/
theorem commit_logged {final : PatternStore} {changes : List PatternChange}
    {delta : LearningDelta} {merged : Merged} (distinct : Distinct known)
    (hnow : Word.isSigned now = true) (logged : Logged known store)
    (room : store.version + 1 < Word.half)
    (hpreceding : delta.precedingVersion = readWord store.version)
    (writes : Writes (delta.precedingVersion + 1) now store final changes)
    (putting : Putting known changes) (honest : store.faults.Honest)
    (h : final.commit delta changes = .ok merged) :
    Logged known merged.store ∧ merged.store.version ≤ store.version + 1 := by
  have counted := logged.counted
  have hword : (delta.precedingVersion : Int) = store.version := by
    rw [hpreceding, natCast_readWord counted]
  have hnext : delta.precedingVersion + 1 < Word.half := by omega
  have hstored : storedWord (delta.precedingVersion + 1) = store.version + 1 := by
    rw [hpreceding, storedWord_readWord_succ counted room]
  have hnodup := writes.nodup logged.nodup
  obtain ⟨table, hreplay, hmirrors⟩ := logged.replayed
  obtain ⟨table', happly, hmirrors'⟩ :=
    writes.replayed distinct hnext hnow putting logged.nodup hmirrors 0
  obtain ⟨_, _, _, hfinal⟩ := writes.frame
  have hversion : final.version = store.version := by rw [hfinal]
  have hoperations : final.operations = store.operations := by rw [hfinal]
  obtain ⟨-, -, ⟨-, rfl, hmerged, -⟩ | ⟨-, -, numbers, hmerged⟩⟩ :=
    commit_ok h (writes.honest honest)
  · obtain rfl : table = table' := by simpa [loggedRows, pure, Except.pure] using happly
    rw [hmerged, hversion]
    refine ⟨?_, by omega⟩
    exact {
      nodup := hnodup
      counted := by rw [hversion]; exact counted
      past := by rw [hversion, hoperations]; exact logged.past
      ordered := by rw [hoperations]; exact logged.ordered
      replayed := ⟨table, by rw [hoperations]; exact hreplay, hmirrors'⟩ }
  · have hmergedVersion : merged.store.version = storedWord (delta.precedingVersion + 1) := by
      rw [hmerged]
    have hmergedOperations : merged.store.operations =
        store.operations ++ loggedRows (delta.precedingVersion + 1) 0 changes := by
      rw [hmerged, ← hoperations]
    have hmergedPatterns : merged.store.patterns = final.patterns := by rw [hmerged]
    rw [← hmergedPatterns] at hnodup hmirrors'
    refine ⟨logged.append hstored hmergedVersion hmergedOperations hnodup ⟨table', ?_, hmirrors'⟩,
      by omega⟩
    rw [List.foldlM_append, hreplay]
    exact happly

/-! ## What a replay gives -/

lemma samePatterns_mirrored {rows : List PatternRow}
    (h : List.Forall₂ (Mirrors known) table rows) :
    ∃ stored, rows.mapM Pattern.ofRow = .ok stored ∧
      samePatterns (table.map (·.2)) stored = true := by
  induction h with
  | nil => exact ⟨[], rfl, rfl⟩
  | cons first _ ih =>
    obtain ⟨q, hq, hsame, -⟩ := first.read
    obtain ⟨stored, hstored, hrest⟩ := ih
    refine ⟨q :: stored, ?_, ?_⟩
    · simp [hq, hstored, bind, Except.bind, pure, Except.pure]
    · simp [samePatterns, hsame, hrest]

lemma Logged.listOperations (logged : Logged known store) :
    store.listOperations = store.operations :=
  List.mergeSort_of_pairwise logged.ordered

/-- A log that leads to the patterns passes its verification. -/
theorem Logged.verified (logged : Logged known store) : store.verifyReplay = .ok true := by
  obtain ⟨table, hreplay, hmirrors⟩ := logged.replayed
  obtain ⟨stored, hstored, hsame⟩ :=
    samePatterns_mirrored (Table.sideBySide_sort (fun _ _ m => m.key) hmirrors)
  have hreplayed : store.replay = .ok table.patterns := by
    unfold replay
    rw [logged.listOperations, hreplay]
    rfl
  have hloaded : store.loadPatterns = .ok stored := hstored
  unfold verifyReplay
  rw [hreplayed, hloaded]
  exact congrArg Except.ok hsame

end PatternStore

/-! ## Runs -/

/-- The patterns that a call writes. -/
def LearnerCall.written (call : LearnerCall) (store : PatternStore) : List Pattern :=
  match call.merged? store with
  | some merged => merged.changes.filterMap (·.put?)
  | none => []

namespace LearnerRun

open PatternStore

/-- The patterns that the calls of a run write. -/
def written (projectId : String) (store : PatternStore) (calls : List LearnerCall) :
    List Pattern :=
  (trace projectId store calls).flatMap fun step => step.2.written step.1

lemma written_concat (projectId : String) (store : PatternStore) (calls : List LearnerCall)
    (call : LearnerCall) : written projectId store (calls ++ [call]) =
      written projectId store calls ++ call.written (run projectId store calls) := by
  simp [written, trace_append, trace]

/-- One call keeps the log leading to the patterns. -/
theorem perform_logged {known : PatternContent → Prop} {store : PatternStore}
    {call : LearnerCall} (projectId : String) (distinct : Distinct known)
    (logged : Logged known store) (room : store.version + 1 < Word.half)
    (putting : ∀ p ∈ call.written store, p.Plain ∧ known p.content) :
    Logged known (call.perform projectId store).store ∧
      (call.perform projectId store).store.version ≤ store.version + 1 := by
  have moved : Logged known (store.under call.faults) := logged.congr rfl rfl rfl
  rw [call.perform_store]
  cases hmerged : call.merged? store with
  | none => exact ⟨moved, by show store.version ≤ _; omega⟩
  | some merged =>
    have hput : Putting known merged.changes := by
      intro change hchange p hp
      apply putting p
      rw [LearnerCall.written, hmerged]
      exact List.mem_filterMap.mpr ⟨change, hchange, hp⟩
    obtain ⟨start, final, changes, delta, written⟩ := LearnerCall.merged?_written hmerged
    rw [(commit_ok written.commit (written.writes.honest written.honest)).1] at hput
    have hpreceding := written.preceding
    rw [← written.version] at room hpreceding ⊢
    exact commit_logged distinct call.signed
      (logged.congr written.version written.patterns written.operations) room hpreceding
      written.writes hput written.honest written.commit

theorem run_logged {known : PatternContent → Prop} {store : PatternStore} {projectId : String}
    {calls : List LearnerCall} (distinct : Distinct known) (logged : Logged known store)
    (room : store.version + calls.length < Word.half)
    (putting : ∀ p ∈ written projectId store calls, p.Plain ∧ known p.content) :
    Logged known (run projectId store calls) := by
  induction calls generalizing store with
  | nil => exact logged
  | cons call calls ih =>
    rw [List.length_cons] at room
    simp only [written, trace, List.flatMap_cons, List.mem_append] at putting
    obtain ⟨first, hversion⟩ := perform_logged projectId distinct logged (by omega)
      fun p hp => putting p (.inl hp)
    exact ih first (by omega) fun p hp => putting p (.inr hp)

/-- After any run from an empty store, replaying the log gives exactly the stored patterns,
provided that the patterns written on the way are plain and told apart by their ids. A run
has fewer calls than there are signed words. -/
theorem run_verified (projectId : String) (calls : List LearnerCall)
    (few : calls.length < Word.half)
    (distinct : ∀ p ∈ written projectId .empty calls, ∀ q ∈ written projectId .empty calls,
      p.content.id = q.content.id → p.content = q.content)
    (plain : ∀ p ∈ written projectId .empty calls, p.Plain) :
    (run projectId .empty calls).verifyReplay = .ok true := by
  have hdistinct : Distinct (· ∈ (written projectId .empty calls).map (·.content)) := by
    intro c d hc hd heq
    obtain ⟨p, hp, rfl⟩ := List.mem_map.mp hc
    obtain ⟨q, hq, rfl⟩ := List.mem_map.mp hd
    exact distinct p hp q hq heq
  have hroom : PatternStore.empty.version + (calls.length : Int) < Word.half := by
    simp only [empty]
    omega
  exact (run_logged hdistinct (logged_empty _) hroom fun p hp =>
    ⟨plain p hp, List.mem_map_of_mem hp⟩).verified

/-! A run that brings one pattern in twice in one call, and again in another. -/

def sampleImports : List LearnerCall :=
  [sampleCall (.importSeeds [⟨.quotes .single, 2, 0.75, ["lang:python"]⟩,
      ⟨.quotes .single, 3, 0.5, ["src"]⟩]),
    sampleCall (.importSeeds [⟨.quotes .single, 1, 0.5, []⟩])]

lemma sampleImports_written : (written "sample" .empty sampleImports).length = 3 ∧
    ∀ p ∈ written "sample" .empty sampleImports, p.content = .quotes .single ∧ p.Plain := by
  decide +kernel

theorem sampleImports_verified : (run "sample" .empty sampleImports).verifyReplay = .ok true :=
  have written := sampleImports_written.2
  run_verified "sample" sampleImports (by decide)
    (fun p hp q hq _ => (written p hp).1.trans (written q hq).1.symm) fun p hp => (written p hp).2

end LearnerRun

end HouseStyle
