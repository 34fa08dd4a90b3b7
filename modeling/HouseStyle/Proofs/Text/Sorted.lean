import HouseStyle.Text.Sorted
import Mathlib.Data.List.Nodup
import Mathlib.Data.String.Basic

/-!
# Sorted texts are a set

Sorting keeps the texts that there are and nothing else of the list, so two lists with the
same texts give the same sorted list.
-/

namespace HouseStyle

lemma mem_insertText {x y : String} {ys : List String} :
    y ∈ insertText x ys ↔ y = x ∨ y ∈ ys := by
  induction ys with
  | nil => simp [insertText]
  | cons z zs ih =>
    unfold insertText
    split
    · simp
    · split
      · next h => subst h; simp
      · simp [ih, or_left_comm]

lemma mem_foldl_insertText {y : String} (xs sorted : List String) :
    y ∈ xs.foldl (fun sorted x => insertText x sorted) sorted ↔ y ∈ xs ∨ y ∈ sorted := by
  induction xs generalizing sorted with
  | nil => simp
  | cons x xs ih => rw [List.foldl_cons, ih, mem_insertText]; simp [or_left_comm, or_assoc]

lemma mem_sortedTexts {y : String} {xs : List String} : y ∈ sortedTexts xs ↔ y ∈ xs := by
  simp [sortedTexts, mem_foldl_insertText]

lemma pairwise_insertText (x : String) {ys : List String} (h : ys.Pairwise (· < ·)) :
    (insertText x ys).Pairwise (· < ·) := by
  induction ys with
  | nil => simp [insertText]
  | cons y ys ih =>
    obtain ⟨hfirst, hrest⟩ := List.pairwise_cons.mp h
    unfold insertText
    split
    · next hlt =>
      refine List.pairwise_cons.mpr ⟨?_, h⟩
      intro z hz
      rcases List.mem_cons.mp hz with rfl | hz
      · exact hlt
      · exact lt_trans hlt (hfirst z hz)
    · split
      · exact h
      · next hlt hne =>
        refine List.pairwise_cons.mpr ⟨?_, ih hrest⟩
        intro z hz
        rcases mem_insertText.mp hz with rfl | hz
        · exact lt_of_le_of_ne (not_lt.mp hlt) (Ne.symm hne)
        · exact hfirst z hz

lemma pairwise_sortedTexts (xs : List String) : (sortedTexts xs).Pairwise (· < ·) := by
  have h : ∀ sorted : List String, sorted.Pairwise (· < ·) →
      (xs.foldl (fun sorted x => insertText x sorted) sorted).Pairwise (· < ·) := by
    induction xs with
    | nil => exact fun _ h => h
    | cons x xs ih => exact fun _ h => ih _ (pairwise_insertText x h)
  exact h [] List.Pairwise.nil

lemma nodup_sortedTexts (xs : List String) : (sortedTexts xs).Nodup :=
  (pairwise_sortedTexts xs).imp fun h => ne_of_lt h

/-- There is one list in strict order with given texts. -/
lemma eq_sortedTexts {xs ys : List String} (sorted : ys.Pairwise (· < ·))
    (h : ∀ x, x ∈ ys ↔ x ∈ xs) : ys = sortedTexts xs := by
  have hperm : ys.Perm (sortedTexts xs) := by
    rw [List.perm_ext_iff_of_nodup (sorted.imp fun h => ne_of_lt h) (nodup_sortedTexts xs)]
    intro x
    rw [mem_sortedTexts, h]
  exact hperm.eq_of_pairwise (fun a b _ _ hab hba => absurd hab (not_lt.mpr hba.le))
    sorted (pairwise_sortedTexts xs)

/-- The sorted list depends only on which texts there are. -/
theorem sortedTexts_congr {xs ys : List String} (h : ∀ x, x ∈ xs ↔ x ∈ ys) :
    sortedTexts xs = sortedTexts ys :=
  eq_sortedTexts (pairwise_sortedTexts xs) fun x => mem_sortedTexts.trans (h x)

/-- Of the sorted texts of two lists, those of the first are its own sorted texts. -/
lemma filter_sortedTexts_append (xs ys : List String) :
    (sortedTexts (xs ++ ys)).filter (· ∈ xs) = sortedTexts xs := by
  apply eq_sortedTexts
  · exact (pairwise_sortedTexts _).filter _
  · intro x
    simp only [List.mem_filter, mem_sortedTexts, List.mem_append, decide_eq_true_eq]
    exact ⟨fun h => h.2, fun h => ⟨.inl h, h⟩⟩

end HouseStyle
