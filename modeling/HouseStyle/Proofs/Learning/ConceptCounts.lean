import HouseStyle.Proofs.Learning.Accounts

/-!
# What a comparison of concepts tells

Concepts are compared as bags of marks. For every key the locations are sorted, so that the order of
the lists is lost, and the locations of all keys together hold each mark as often as the list does.
Therefore nothing is counted exactly when the bags are equal, and what is counted as added and as
removed makes up for the difference in size.
-/

namespace HouseStyle

variable {old new : List ConceptMark}

/-! ## Adding up counts -/

namespace ConceptCounts

lemma eq_zero_iff {counts : ConceptCounts} :
    counts = zero ↔ counts.added = 0 ∧ counts.modified = 0 ∧ counts.removed = 0 := by
  cases counts
  simp only [zero, mk.injEq]

lemma add_eq_zero {a b : ConceptCounts} : a.add b = zero ↔ a = zero ∧ b = zero := by
  cases a
  cases b
  simp only [add, zero, mk.injEq]
  omega

lemma add_right_comm (a b c : ConceptCounts) : (a.add b).add c = (a.add c).add b := by
  simp only [add, mk.injEq]
  omega

variable {κ : Type} {f : κ → ConceptCounts}

lemma foldl_eq_zero {keys : List κ} {counts : ConceptCounts} :
    keys.foldl (fun counts key => counts.add (f key)) counts = zero ↔
      counts = zero ∧ ∀ key ∈ keys, f key = zero := by
  induction keys generalizing counts with
  | nil => simp
  | cons key keys ih => simp [ih, add_eq_zero, and_assoc]

lemma foldl_perm {keys others : List κ} (perm : keys.Perm others) (counts : ConceptCounts) :
    keys.foldl (fun counts key => counts.add (f key)) counts =
      others.foldl (fun counts key => counts.add (f key)) counts :=
  perm.foldl_eq' (fun _ _ _ _ counts => add_right_comm counts _ _) counts

end ConceptCounts

/-! ## Locations -/

lemma locationBefore_iff {a b : Int × Int} :
    locationBefore a b = true ↔ a.1 < b.1 ∨ a.1 = b.1 ∧ a.2 ≤ b.2 := by
  simp [locationBefore]

lemma locationBefore_trans (a b c : Int × Int) (hab : locationBefore a b = true)
    (hbc : locationBefore b c = true) : locationBefore a c = true := by
  rw [locationBefore_iff] at hab hbc ⊢
  omega

lemma locationBefore_total (a b : Int × Int) :
    (locationBefore a b || locationBefore b a) = true := by
  rw [Bool.or_eq_true, locationBefore_iff, locationBefore_iff]
  omega

lemma locationBefore_antisymm {a b : Int × Int} (hab : locationBefore a b = true)
    (hba : locationBefore b a = true) : a = b := by
  rw [locationBefore_iff] at hab hba
  ext <;> omega

/-- The locations of a key are sorted, whatever the order of the marks. -/
lemma locationsOf_perm (perm : old.Perm new) (key : String × String) :
    locationsOf key old = locationsOf key new := by
  have sorted : ∀ marks, (locationsOf key marks).Pairwise fun a b => locationBefore a b = true :=
    fun marks => List.pairwise_mergeSort locationBefore_trans locationBefore_total _
  have hperm : (locationsOf key old).Perm (locationsOf key new) :=
    (List.mergeSort_perm _ _).trans
      (((perm.filter _).map _).trans (List.mergeSort_perm _ _).symm)
  exact hperm.eq_of_pairwise (fun a b _ _ => locationBefore_antisymm) (sorted old) (sorted new)

/-- A mark is among the locations of its key as often as among the marks. -/
lemma count_locationsOf (mark : ConceptMark) (marks : List ConceptMark) :
    (locationsOf mark.key marks).count mark.location = marks.count mark := by
  rw [locationsOf, (List.mergeSort_perm _ _).count_eq]
  induction marks with
  | nil => rfl
  | cons other marks ih =>
    by_cases hkey : other.key = mark.key
    · have hmark : other.location = mark.location ↔ other = mark := by
        cases other
        cases mark
        simp only [ConceptMark.key, ConceptMark.location, Prod.mk.injEq] at hkey ⊢
        simp [hkey]
      simp [List.count_cons, ih, hkey, hmark]
    · have hmark : other ≠ mark := fun h => hkey (congrArg ConceptMark.key h)
      simp [ih, hkey, hmark]

/-- Locations that are as many differ nowhere exactly when they are the same. -/
lemma countP_zip_eq_zero {xs ys : List (Int × Int)} (length : xs.length = ys.length) :
    (xs.zip ys).countP (fun (a, b) => a != b) = 0 ↔ xs = ys := by
  induction xs generalizing ys with
  | nil => simp [List.length_eq_zero_iff.mp length.symm]
  | cons x xs ih =>
    cases ys with
    | nil => simp at length
    | cons y ys =>
      have hrest := ih (Nat.succ.inj length)
      by_cases hxy : x = y
      · simp [hxy, hrest]
      · simp [hxy]

lemma diffLocations_eq_zero {xs ys : List (Int × Int)} :
    diffLocations xs ys = .zero ↔ xs = ys := by
  simp only [diffLocations, ConceptCounts.zero, ConceptCounts.mk.injEq]
  constructor
  · rintro ⟨hadded, hmodified, hremoved⟩
    exact (countP_zip_eq_zero (by omega)).mp hmodified
  · rintro rfl
    exact ⟨Nat.sub_self _, (countP_zip_eq_zero rfl).mpr rfl, Nat.sub_self _⟩

lemma diffLocations_le (xs ys : List (Int × Int)) :
    (diffLocations xs ys).modified + (diffLocations xs ys).removed ≤ xs.length ∧
      (diffLocations xs ys).added + (diffLocations xs ys).modified ≤ ys.length := by
  have hadded : (diffLocations xs ys).added = ys.length - xs.length := rfl
  have hmodified : (diffLocations xs ys).modified ≤ min xs.length ys.length :=
    List.countP_le_length.trans List.length_zip.le
  have hremoved : (diffLocations xs ys).removed = xs.length - ys.length := rfl
  omega

/-! ## Marks -/

/-- Marks make no difference exactly when they are the same bag. -/
theorem diffConcepts_eq_zero : diffConcepts old new = .zero ↔ old.Perm new := by
  simp only [diffConcepts, ConceptCounts.foldl_eq_zero, diffLocations_eq_zero, true_and]
  constructor
  · intro h
    rw [List.perm_iff_count]
    intro mark
    by_cases hmark : mark ∈ new ++ old
    · have hkey : mark.key ∈ ((new ++ old).map (·.key)).eraseDups :=
        List.mem_eraseDups.mpr (List.mem_map_of_mem hmark)
      rw [← count_locationsOf, ← count_locationsOf, h mark.key hkey]
    · simp only [List.mem_append, not_or] at hmark
      rw [List.count_eq_zero_of_not_mem hmark.1, List.count_eq_zero_of_not_mem hmark.2]
  · exact fun perm key _ => locationsOf_perm perm key

/-- Neither order goes into the counts. -/
theorem diffConcepts_perm {old' new' : List ConceptMark} (hold : old'.Perm old)
    (hnew : new'.Perm new) : diffConcepts old' new' = diffConcepts old new := by
  have hkeys : ((new' ++ old').map (·.key)).eraseDups.Perm
      ((new ++ old).map (·.key)).eraseDups := by
    rw [List.perm_ext_iff_of_nodup (nodup_eraseDups _) (nodup_eraseDups _)]
    intro key
    rw [List.mem_eraseDups, List.mem_eraseDups, ((hnew.append hold).map _).mem_iff]
  simp only [diffConcepts, locationsOf_perm hold, locationsOf_perm hnew]
  exact ConceptCounts.foldl_perm hkeys .zero

/-- The fold over different keys counts no more marks than have one of them. -/
lemma foldl_diff_le {keys : List (String × String)} (nodup : keys.Nodup)
    (old new : List ConceptMark) (counts : ConceptCounts) :
    let after := keys.foldl (fun counts key =>
      counts.add (diffLocations (locationsOf key old) (locationsOf key new))) counts
    after.modified + after.removed ≤ counts.modified + counts.removed +
        old.countP (fun mark => decide (mark.key ∈ keys)) ∧
      after.added + after.modified ≤ counts.added + counts.modified +
        new.countP (fun mark => decide (mark.key ∈ keys)) := by
  induction keys generalizing counts with
  | nil => simp
  | cons key keys ih =>
    obtain ⟨hnew, hrest⟩ := List.nodup_cons.mp nodup
    have hkey := diffLocations_le (locationsOf key old) (locationsOf key new)
    have := ih hrest (counts.add (diffLocations (locationsOf key old) (locationsOf key new)))
    simp only [length_locationsOf] at hkey
    simp only [List.foldl_cons, countP_key hnew]
    simp only [ConceptCounts.add] at this ⊢
    omega

/-- No mark is counted twice. -/
theorem diffConcepts_le (old new : List ConceptMark) :
    (diffConcepts old new).modified + (diffConcepts old new).removed ≤ old.length ∧
      (diffConcepts old new).added + (diffConcepts old new).modified ≤ new.length := by
  have hfold := foldl_diff_le (nodup_eraseDups ((new ++ old).map (·.key))) old new .zero
  exact ⟨hfold.1.trans ((Nat.zero_add _).le.trans List.countP_le_length),
    hfold.2.trans ((Nat.zero_add _).le.trans List.countP_le_length)⟩

/-! ## Stored and extracted concepts -/

/-- What is counted when the stored concepts of a file give way to those found in it. -/
def conceptDiff (old : List ConceptRow) (new : List Concept) : ConceptCounts :=
  diffConcepts (old.map .ofRow) (new.map .ofConcept)

/-- What the counts of a comparison tell. -/
structure Compared (old : List ConceptRow) (new : List Concept) : Prop where
  conserved : (conceptDiff old new).added + old.length = (conceptDiff old new).removed + new.length
  /-- A concept is added, modified, removed or left alone, and so never counted twice. -/
  accounted : (conceptDiff old new).modified + (conceptDiff old new).removed ≤ old.length ∧
    (conceptDiff old new).added + (conceptDiff old new).modified ≤ new.length
  unchanged : ((conceptDiff old new).added = 0 ∧ (conceptDiff old new).modified = 0 ∧
      (conceptDiff old new).removed = 0) ↔
    (old.map ConceptMark.ofRow).Perm (new.map ConceptMark.ofConcept)
  unordered : ∀ old' new', old'.Perm old → new'.Perm new →
    conceptDiff old' new' = conceptDiff old new

/-- One concept stays, one moves, one goes and one comes. -/
example : conceptDiff
    [⟨"a.ts", "gone", "variable", 0.7, 9, 9⟩, ⟨"a.ts", "userId", "variable", 0.7, 1, 1⟩,
      ⟨"a.ts", "load", "function", 0.7, 3, 3⟩]
    [⟨"load", .function, 0.7, 5, 5⟩, ⟨"userId", .variable, 0.7, 1, 1⟩,
      ⟨"fresh", .classType, 0.7, 7, 7⟩] = ⟨1, 1, 1⟩ := by
  decide +kernel

end HouseStyle
