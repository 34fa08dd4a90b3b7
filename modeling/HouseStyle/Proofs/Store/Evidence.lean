import HouseStyle.Learning.Merge
import Mathlib.Data.List.Nodup
import Mathlib.Data.List.Perm.Basic
import Mathlib.Data.String.Basic

/-!
# Evidence is a bag

What a pattern takes from its evidence, the number of places, the first of them and the
files, does not depend on the order in which the evidence was stored.
-/

namespace HouseStyle

lemma nodup_eraseDups {α : Type} [BEq α] [LawfulBEq α] (xs : List α) : xs.eraseDups.Nodup := by
  induction h : xs.length using Nat.strong_induction_on generalizing xs with
  | _ n ih =>
    cases xs with
    | nil => exact List.nodup_nil
    | cons x xs =>
      rw [List.eraseDups_cons, List.nodup_cons]
      have hshorter : (xs.filter fun y => !y == x).length < n := by
        have := List.length_filter_le (fun y => !y == x) xs
        rw [List.length_cons] at h
        omega
      refine ⟨?_, ih _ hshorter _ rfl⟩
      rw [List.mem_eraseDups, List.mem_filter]
      simp

/-- Lists with the same rows under every key, in whatever order, have the same rows. -/
lemma perm_of_filter_perm {ρ : Type} (key : ρ → String) {xs ys : List ρ}
    (h : ∀ k, (xs.filter (key · == k)).Perm (ys.filter (key · == k))) : xs.Perm ys := by
  classical
  rw [List.perm_iff_count]
  intro row
  have hrow : (key row == key row) = true := by simp
  rw [← List.count_filter (p := fun r => key r == key row) hrow, (h (key row)).count_eq,
    List.count_filter (p := fun r => key r == key row) hrow]

/-- Lists with the same rows under every key have the same rows. -/
lemma perm_of_filter_key {ρ : Type} (key : ρ → String) {xs ys : List ρ}
    (h : ∀ k, xs.filter (key · == k) = ys.filter (key · == k)) : xs.Perm ys :=
  perm_of_filter_perm key fun k => .of_eq (h k)

namespace PatternStore

/-- The order of evidence in words. -/
lemma evidenceBefore_iff (a b : EvidenceRow) :
    evidenceBefore a b = true ↔ a.filePath < b.filePath ∨ a.filePath = b.filePath ∧
      (a.line < b.line ∨ a.line = b.line ∧ a.snippet ≤ b.snippet) := by
  simp [evidenceBefore]

lemma evidenceBefore_trans (a b c : EvidenceRow) (hab : evidenceBefore a b = true)
    (hbc : evidenceBefore b c = true) : evidenceBefore a c = true := by
  rw [evidenceBefore_iff] at hab hbc ⊢
  rcases hab with hab | ⟨hab, hab'⟩
  · rcases hbc with hbc | ⟨hbc, -⟩
    · exact .inl (lt_trans hab hbc)
    · exact .inl (hbc ▸ hab)
  · rcases hbc with hbc | ⟨hbc, hbc'⟩
    · exact .inl (hab ▸ hbc)
    · refine .inr ⟨hab.trans hbc, ?_⟩
      rcases hab' with hab' | ⟨hab', habs⟩
      · rcases hbc' with hbc' | ⟨hbc', -⟩
        · exact .inl (lt_trans hab' hbc')
        · exact .inl (hbc' ▸ hab')
      · rcases hbc' with hbc' | ⟨hbc', hbcs⟩
        · exact .inl (hab' ▸ hbc')
        · exact .inr ⟨hab'.trans hbc', le_trans habs hbcs⟩

lemma evidenceBefore_total (a b : EvidenceRow) :
    (evidenceBefore a b || evidenceBefore b a) = true := by
  rw [Bool.or_eq_true, evidenceBefore_iff, evidenceBefore_iff]
  rcases lt_trichotomy a.filePath b.filePath with h | h | h
  · exact .inl (.inl h)
  · rcases lt_trichotomy a.line b.line with hl | hl | hl
    · exact .inl (.inr ⟨h, .inl hl⟩)
    · rcases le_total a.snippet b.snippet with hs | hs
      · exact .inl (.inr ⟨h, .inr ⟨hl, hs⟩⟩)
      · exact .inr (.inr ⟨h.symm, .inr ⟨hl.symm, hs⟩⟩)
    · exact .inr (.inr ⟨h.symm, .inl hl⟩)
  · exact .inr (.inl h)

/-- Rows of one pattern that come before each other are the same. -/
lemma evidenceBefore_antisymm {a b : EvidenceRow} (hid : a.patternId = b.patternId)
    (hab : evidenceBefore a b = true) (hba : evidenceBefore b a = true) : a = b := by
  rw [evidenceBefore_iff] at hab hba
  have hpath : a.filePath = b.filePath := by
    rcases hab with hab | ⟨hab, -⟩
    · rcases hba with hba | ⟨hba, -⟩
      · exact absurd hab (lt_asymm hba)
      · exact hba.symm
    · exact hab
  have hrest := (hab.resolve_left (by simp [hpath])).2
  have hrest' := (hba.resolve_left (by simp [hpath])).2
  have hline : a.line = b.line := by
    rcases hrest with h | ⟨h, -⟩
    · rcases hrest' with h' | ⟨h', -⟩ <;> omega
    · exact h
  have hsnippet : a.snippet = b.snippet :=
    le_antisymm (hrest.resolve_left (by omega)).2 (hrest'.resolve_left (by omega)).2
  cases a
  cases b
  simp_all

variable {store after : PatternStore} {id : String}

lemma evidenceForPattern_perm (h : store.evidence.Perm after.evidence) (id : String) :
    (store.evidenceForPattern id).Perm (after.evidenceForPattern id) :=
  h.filter _

lemma countForPattern_perm (h : store.evidence.Perm after.evidence) (id : String) :
    store.countForPattern id = after.countForPattern id :=
  h.countP_eq _

lemma readExamples_perm (h : store.evidence.Perm after.evidence) (id : String) (limit : Nat) :
    store.readExamples id limit = after.readExamples id limit := by
  have sorted : ∀ rows : List EvidenceRow,
      (rows.mergeSort evidenceBefore).Pairwise fun a b => evidenceBefore a b = true :=
    List.pairwise_mergeSort evidenceBefore_trans evidenceBefore_total
  have hid : ∀ (s : PatternStore),
      ∀ row ∈ (s.evidenceForPattern id).mergeSort evidenceBefore, row.patternId = id := by
    intro s row hrow
    simpa using (List.mem_filter.mp (List.mem_mergeSort.mp hrow)).2
  have hperm := ((List.mergeSort_perm (store.evidenceForPattern id) evidenceBefore).trans
    (evidenceForPattern_perm h id)).trans
    (List.mergeSort_perm (after.evidenceForPattern id) evidenceBefore).symm
  have hsorted : (store.evidenceForPattern id).mergeSort evidenceBefore =
      (after.evidenceForPattern id).mergeSort evidenceBefore :=
    hperm.eq_of_pairwise
      (fun a b ha hb => evidenceBefore_antisymm ((hid store a ha).trans (hid after b hb).symm))
      (sorted _) (sorted _)
  simp only [readExamples, examplesFor, hsorted]

/-- Texts that are all different are sorted alike whatever their order. -/
lemma mergeSort_texts {xs ys : List String} (h : xs.Perm ys) :
    (xs.mergeSort fun a b => a ≤ b) = ys.mergeSort fun a b => a ≤ b := by
  have sorted : ∀ texts : List String, (texts.mergeSort fun a b => a ≤ b).Pairwise (· ≤ ·) := by
    intro texts
    have htrans : ∀ a b c : String, decide (a ≤ b) → decide (b ≤ c) → decide (a ≤ c) := by
      simp only [decide_eq_true_eq]
      exact fun a b c => le_trans
    have htotal : ∀ a b : String, decide (a ≤ b) || decide (b ≤ a) := by
      simpa using fun a b : String => le_total a b
    exact (List.pairwise_mergeSort htrans htotal texts).imp of_decide_eq_true
  have hperm := ((List.mergeSort_perm xs fun a b => a ≤ b).trans h).trans
    (List.mergeSort_perm ys fun a b => a ≤ b).symm
  exact hperm.eq_of_pairwise (fun a b _ _ => le_antisymm) (sorted xs) (sorted ys)

lemma filesForPattern_perm (h : store.evidence.Perm after.evidence)
    (hlanguage : ∀ path, (store.getFile? path).bind (·.language) =
      (after.getFile? path).bind (·.language)) (id : String) :
    store.filesForPattern id = after.filesForPattern id := by
  have hpaths : ((store.evidenceForPattern id).map (·.filePath)).eraseDups.Perm
      ((after.evidenceForPattern id).map (·.filePath)).eraseDups := by
    rw [List.perm_ext_iff_of_nodup (nodup_eraseDups _) (nodup_eraseDups _)]
    intro path
    rw [List.mem_eraseDups, List.mem_eraseDups]
    exact ((evidenceForPattern_perm h id).map _).mem_iff
  unfold filesForPattern
  simp only [mergeSort_texts hpaths, hlanguage]

end PatternStore

end HouseStyle
