import HouseStyle.Proofs.Store.Writes
import Mathlib.Data.List.Nodup

/-!
# Looking rows up by their keys

A table whose keys are all different is a finite map from keys to rows. An upsert changes
this map at one key, a deletion empties it there, and both leave the keys different.
-/

namespace HouseStyle

/-! ## Lists side by side -/

section SideBySide

variable {α β : Type} {related : α → β → Prop} {xs : List α} {ys : List β}

lemma exists_right (h : List.Forall₂ related xs ys) {x : α} (hx : x ∈ xs) :
    ∃ y ∈ ys, related x y := by
  induction h with
  | nil => cases hx
  | cons first _ ih =>
    rcases List.mem_cons.mp hx with rfl | hx
    · exact ⟨_, by simp, first⟩
    · obtain ⟨y, hy, hrelated⟩ := ih hx
      exact ⟨y, by simp [hy], hrelated⟩

lemma exists_left (h : List.Forall₂ related xs ys) {y : β} (hy : y ∈ ys) :
    ∃ x ∈ xs, related x y :=
  exists_right h.flip hy

lemma map_eq_map (h : List.Forall₂ related xs ys) {γ : Type} {f : α → γ} {g : β → γ}
    (hfg : ∀ x y, related x y → f x = g y) : xs.map f = ys.map g := by
  induction h with
  | nil => rfl
  | cons first _ ih => rw [List.map_cons, List.map_cons, hfg _ _ first, ih]

/-- A list is read when all that is in it is read. -/
lemma mapM_eq_ok {ε : Type} {f : α → Except ε β} :
    xs.mapM f = .ok ys ↔ List.Forall₂ (fun x y => f x = .ok y) xs ys := by
  constructor
  · intro h
    induction xs generalizing ys with
    | nil =>
      obtain rfl : [] = ys := pure_eq_ok.mp h
      exact .nil
    | cons x xs ih =>
      rw [List.mapM_cons] at h
      obtain ⟨y, hy, h⟩ := bind_eq_ok.mp h
      obtain ⟨rest, hrest, h⟩ := bind_eq_ok.mp h
      obtain rfl := pure_eq_ok.mp h
      exact .cons hy (ih hrest)
  · intro h
    induction h with
    | nil => rfl
    | cons first _ ih =>
      rw [List.mapM_cons, first, ih]
      rfl

/-- What is read of a list has whatever each reading has. -/
lemma exists_mapM {ε : Type} {f : α → Except ε β} (h : ∀ x ∈ xs, ∃ y, f x = .ok y ∧ related x y) :
    ∃ ys, xs.mapM f = .ok ys ∧ List.Forall₂ related xs ys := by
  induction xs with
  | nil => exact ⟨[], rfl, .nil⟩
  | cons x xs ih =>
    obtain ⟨y, hy, hrelated⟩ := h x (by simp)
    obtain ⟨ys, hys, hrest⟩ := ih fun later hlater => h later (by simp [hlater])
    exact ⟨y :: ys, mapM_eq_ok.mpr (.cons hy (mapM_eq_ok.mp hys)), .cons hrelated hrest⟩

end SideBySide

namespace Table

/-- Keys stay different when a row with a new one is added. -/
lemma nodup_concat {ρ κ : Type} {key : ρ → κ} {rows : List ρ} {row : ρ}
    (nodup : (rows.map key).Nodup) (hnew : ∀ old ∈ rows, key old ≠ key row) :
    ((rows ++ [row]).map key).Nodup := by
  rw [List.map_append, List.map_singleton, List.nodup_append]
  refine ⟨nodup, List.nodup_singleton _, ?_⟩
  intro k hk k' hk'
  obtain ⟨old, hold, rfl⟩ := List.mem_map.mp hk
  obtain rfl := List.mem_singleton.mp hk'
  exact hnew old hold

variable {ρ : Type} (key : ρ → String) {sameKey : ρ → ρ → Bool} {merge : ρ → ρ → ρ}

def lookup (rows : List ρ) (k : String) : Option ρ := rows.find? (key · == k)

lemma lookup_eq_none {rows : List ρ} {k : String} :
    lookup key rows k = none ↔ ∀ row ∈ rows, key row ≠ k := by
  simp [lookup, List.find?_eq_none]

lemma mem_of_lookup {rows : List ρ} {k : String} {row : ρ} (h : lookup key rows k = some row) :
    row ∈ rows ∧ key row = k :=
  ⟨List.mem_of_find?_eq_some h, by simpa using List.find?_some h⟩

lemma lookup_of_mem {rows : List ρ} (nodup : (rows.map key).Nodup) {row : ρ} (h : row ∈ rows) :
    lookup key rows (key row) = some row := by
  induction rows with
  | nil => simp at h
  | cons first rows ih =>
    rw [List.map_cons, List.nodup_cons] at nodup
    rcases List.mem_cons.mp h with rfl | hmem
    · simp [lookup]
    · have hne : key first ≠ key row := by
        intro heq
        exact nodup.1 (heq ▸ List.mem_map_of_mem hmem)
      rw [lookup, List.find?_cons_of_neg (by simpa using hne)]
      exact ih nodup.2 hmem

/-- The rows under a key are the one that is found there. -/
lemma filter_key {rows : List ρ} (nodup : (rows.map key).Nodup) (k : String) :
    rows.filter (key · == k) = (lookup key rows k).toList := by
  unfold lookup
  induction rows with
  | nil => rfl
  | cons row rows ih =>
    rw [List.map_cons, List.nodup_cons] at nodup
    by_cases hrow : key row = k
    · have hrest : rows.filter (key · == k) = [] := by
        rw [List.filter_eq_nil_iff]
        intro later hlater heq
        apply nodup.1
        rw [hrow, ← beq_iff_eq.mp heq]
        exact List.mem_map_of_mem hlater
      simp [hrow, hrest]
    · simpa [hrow] using ih nodup.2

lemma lookup_filter_ne (rows : List ρ) (k k' : String) :
    lookup key (rows.filter fun row => !(key row == k)) k' =
      if k' = k then none else lookup key rows k' := by
  unfold lookup
  rw [List.find?_filter]
  split
  · next h => subst h; simp [List.find?_eq_none]
  · next h =>
    congr 1
    funext row
    by_cases hrow : key row = k'
    · subst hrow; simp [h]
    · simp [hrow]

/-- A change of the rows under one key, which stay under it. -/
lemma map_key_changed {change : ρ → ρ} {k : String}
    (hkey : ∀ row, key row = k → key (change row) = k) (rows : List ρ) :
    (rows.map fun row => if key row == k then change row else row).map key = rows.map key := by
  rw [List.map_map]
  apply List.map_congr_left
  intro row _
  by_cases hrow : key row = k
  · simp [hrow, hkey row hrow]
  · simp [hrow]

lemma lookup_changed {change : ρ → ρ} {k : String}
    (hkey : ∀ row, key row = k → key (change row) = k) (rows : List ρ) (k' : String) :
    lookup key (rows.map fun row => if key row == k then change row else row) k' =
      (lookup key rows k').map fun row => if k' = k then change row else row := by
  have hkeep : ∀ row, key (if key row == k then change row else row) = key row := by
    intro row
    by_cases hrow : key row = k
    · simp [hrow, hkey row hrow]
    · simp [hrow]
  simp only [lookup, List.find?_map, Function.comp_def, hkeep]
  cases hfound : rows.find? (key · == k') with
  | none => rfl
  | some row =>
    have hrow : key row = k' := (mem_of_lookup key hfound).2
    simp [hrow]

lemma nodup_filter (rows : List ρ) (fits : ρ → Bool) (nodup : (rows.map key).Nodup) :
    ((rows.filter fits).map key).Nodup :=
  nodup.sublist (List.filter_sublist.map key)

/-- A row after an upsert is an old one or the new one, or it was written over an old one. -/
lemma mem_put {rows : List ρ} {row found : ρ} (h : found ∈ put rows sameKey merge row) :
    found ∈ rows ∨ found = row ∨ ∃ old ∈ rows, found = merge old row := by
  unfold put at h
  split at h
  · obtain ⟨old, hold, rfl⟩ := List.mem_map.mp h
    split
    · exact .inr (.inr ⟨old, hold, rfl⟩)
    · exact .inl hold
  · rcases List.mem_append.mp h with hold | hnew
    · exact .inl hold
    · exact .inr (.inl (List.mem_singleton.mp hnew))

/-- An upsert seen through a filter that does not part rows of one key. -/
lemma filter_put {fits : ρ → Bool} {row : ρ}
    (rows : List ρ) (hsame : ∀ old, sameKey row old = true → fits old = fits row) :
    (put rows sameKey (fun _ new => new) row).filter fits =
      if fits row = true then put (rows.filter fits) sameKey (fun _ new => new) row
      else rows.filter fits := by
  have hmap : ∀ old, fits (if sameKey row old = true then row else old) = fits old := by
    intro old
    split
    · next h => exact (hsame old h).symm
    · rfl
  have hfilter : (rows.map fun old => if sameKey row old = true then row else old).filter fits =
      (rows.filter fits).map fun old => if sameKey row old = true then row else old := by
    rw [List.filter_map]
    congr 2
    funext old
    exact hmap old
  unfold put
  by_cases hrow : fits row = true
  · have hany : (rows.filter fits).any (sameKey row) = rows.any (sameKey row) := by
      rw [List.any_filter]
      congr 1
      funext old
      cases hkey : sameKey row old with
      | false => simp
      | true => simp [hsame old hkey, hrow]
    rw [if_pos hrow, hany]
    split
    · exact hfilter
    · rw [List.filter_append, List.filter_singleton, hrow, cond_true]
  · rw [if_neg hrow]
    split
    · rw [hfilter]
      have hid : ∀ old ∈ rows.filter fits,
          (if sameKey row old = true then row else old) = old := by
        intro old hold
        split
        · next h => exact absurd ((hsame old h).symm.trans (List.mem_filter.mp hold).2) hrow
        · rfl
      rw [List.map_congr_left hid, List.map_id']
    · rw [List.filter_append, List.filter_singleton, Bool.eq_false_iff.mpr hrow, cond_false,
        List.append_nil]

/-- An upsert by a key that merging keeps. -/
structure Keyed (sameKey : ρ → ρ → Bool) (merge : ρ → ρ → ρ) : Prop where
  same : ∀ a b, sameKey a b = (key a == key b)
  merged : ∀ old row, key old = key row → key (merge old row) = key old

variable {key}

lemma Keyed.any_eq (keyed : Keyed key sameKey merge) (rows : List ρ) (row : ρ) :
    rows.any (sameKey row) = (lookup key rows (key row)).isSome := by
  rw [Bool.eq_iff_iff, lookup, List.find?_isSome, List.any_eq_true]
  simp only [keyed.same, beq_iff_eq]
  exact ⟨fun ⟨r, hr, h⟩ => ⟨r, hr, h.symm⟩, fun ⟨r, hr, h⟩ => ⟨r, hr, h.symm⟩⟩

lemma Keyed.map_key (keyed : Keyed key sameKey merge) (rows : List ρ) (row : ρ) :
    (rows.map fun old => if sameKey row old then merge old row else old).map key =
      rows.map key := by
  rw [List.map_map]
  apply List.map_congr_left
  intro old _
  by_cases h : sameKey row old = true
  · have hkey : key row = key old := by simpa [keyed.same] using h
    simp [h, keyed.merged old row hkey.symm]
  · simp [h]

lemma Keyed.lookup_map (keyed : Keyed key sameKey merge) (rows : List ρ) (row : ρ) (k : String) :
    lookup key (rows.map fun old => if sameKey row old then merge old row else old) k =
      (lookup key rows k).map fun old => if key row = k then merge old row else old := by
  induction rows with
  | nil => rfl
  | cons first rows ih =>
    unfold lookup at ih ⊢
    rw [List.map_cons, List.find?_cons, List.find?_cons, ih]
    by_cases hsame : key row = key first
    · have hmerged := keyed.merged first row hsame.symm
      by_cases hk : key first = k
      · simp [keyed.same, hsame, hmerged, hk]
      · simp [keyed.same, hsame, hmerged, beq_eq_false_iff_ne.mpr hk]
    · by_cases hk : key first = k
      · have hne : key row ≠ k := hk ▸ hsame
        simp [keyed.same, hk, hne]
      · simp [keyed.same, hsame, beq_eq_false_iff_ne.mpr hk]

/-- After an upsert the key of the new row has the merged row, or the new one when there
was none, and every other key has what it had. -/
theorem Keyed.lookup_put (keyed : Keyed key sameKey merge) (rows : List ρ) (row : ρ)
    (k : String) :
    lookup key (put rows sameKey merge row) k =
      if k = key row then some (((lookup key rows k).map (merge · row)).getD row)
      else lookup key rows k := by
  unfold put
  rw [keyed.any_eq]
  cases hfound : lookup key rows (key row) with
  | some old =>
    rw [if_pos (by simp), keyed.lookup_map]
    by_cases hk : k = key row
    · subst hk; simp [hfound]
    · have hk' : key row ≠ k := fun h => hk h.symm
      simp [hk, hk']
  | none =>
    rw [if_neg (by simp)]
    unfold lookup at hfound ⊢
    rw [List.find?_append]
    by_cases hk : k = key row
    · subst hk; simp [hfound]
    · have hk' : key row ≠ k := fun h => hk h.symm
      simp [hk, hk']

lemma Keyed.nodup_put (keyed : Keyed key sameKey merge) {rows : List ρ} (row : ρ)
    (nodup : (rows.map key).Nodup) : ((put rows sameKey merge row).map key).Nodup := by
  unfold put
  rw [keyed.any_eq]
  split
  · rwa [keyed.map_key]
  · next hnone =>
    exact nodup_concat nodup ((lookup_eq_none key).mp (by simpa using hnone))

end Table

/-! ## Patterns and files -/

namespace PatternStore

lemma mergePattern_patternId (old new : PatternRow) :
    (mergePattern old new).patternId = old.patternId := rfl

lemma mergePattern_content (old new : PatternRow) :
    (mergePattern old new).content = old.content := rfl

lemma mergePattern_createdAt (old new : PatternRow) :
    (mergePattern old new).createdAt = old.createdAt := rfl

lemma mergePattern_lastSeen (old new : PatternRow) :
    (mergePattern old new).lastSeen = new.lastSeen := rfl

lemma mergePattern_version (old new : PatternRow) :
    (mergePattern old new).version = new.version := rfl

lemma mergePattern_confidence (old new : PatternRow) :
    (mergePattern old new).confidence = new.confidence := rfl

lemma keyed_patterns : Table.Keyed PatternRow.patternId samePatternId mergePattern :=
  ⟨fun _ _ => rfl, fun _ _ _ => rfl⟩

lemma keyed_files : Table.Keyed TrackedFile.filePath sameFilePath (fun _ new => new) :=
  ⟨fun _ _ => rfl, fun _ _ h => h.symm⟩

lemma getPattern?_eq_lookup (store : PatternStore) (id : String) :
    store.getPattern? id = Table.lookup PatternRow.patternId store.patterns id := rfl

lemma getFile?_eq_lookup (store : PatternStore) (path : String) :
    store.getFile? path = Table.lookup TrackedFile.filePath store.files path := rfl

end PatternStore

end HouseStyle
