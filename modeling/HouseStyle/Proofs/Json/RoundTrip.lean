import HouseStyle.Json.Decode
import HouseStyle.Proofs.Json.Text
import Mathlib.Tactic.Common

/-!
# Reading back what was written: values

`ReadsAs depth v w` says that the reader, with `depth` levels left, takes the text of `v`
for `w`, whatever delimiter follows it. There is one lemma for each kind of value, so that
the stored form of a record is read back by going along its constructors. A decimal reads
as whatever its own text reads as.
-/

namespace HouseStyle.Json

/-- The text of `v` is read as `w`. Blanks may be left over behind it. -/
def ReadsAs (depth : Nat) (v w : Json) : Prop :=
  ∀ fuel rest, Delimited rest → 2 * v.write.length < fuel →
    ∃ left, readValue fuel depth (v.write ++ rest) = some (w, left) ∧ skipSpace left = rest

/-- A text that reads as its value in any surroundings. -/
lemma readsAs_of_forall {depth : Nat} {v w : Json}
    (h : ∀ fuel rest, Delimited rest →
      readValue (fuel + 1) depth (v.write ++ rest) = some (w, rest)) : ReadsAs depth v w := by
  intro fuel rest hr hfuel
  obtain ⟨fuel, rfl⟩ : ∃ n, fuel = n + 1 := ⟨fuel - 1, by omega⟩
  exact ⟨rest, h fuel rest hr, skipSpace_of_delimited hr⟩

/-! ## Leaves -/

lemma readsAs_null (depth : Nat) : ReadsAs depth null null := by
  apply readsAs_of_forall
  intro fuel rest hr
  simp [write, readValue, skipSpace, isSpace, expect]

lemma readsAs_bool (depth : Nat) (b : Bool) : ReadsAs depth (bool b) (bool b) := by
  apply readsAs_of_forall
  intro fuel rest hr
  cases b <;> simp [write, readValue, skipSpace, isSpace, expect]

lemma readValue_quoted (fuel depth : Nat) (s rest : List Char) :
    readValue (fuel + 1) depth (quote s ++ rest) = some (text (String.ofList s), rest) := by
  simp [quote, readValue, skipSpace, isSpace, readText_escaped]

lemma readsAs_text (depth : Nat) (s : String) : ReadsAs depth (text s) (text s) := by
  apply readsAs_of_forall
  intro fuel rest hr
  simp [write, readValue_quoted]

/-- A character that opens a number, and none of the other values. -/
def OpensNumber (c : Char) : Prop :=
  isSpace c = false ∧ c ∉ ['n', 't', 'f', '"', '[', '{']

lemma readValue_number {c : Char} (hc : OpensNumber c) (fuel depth : Nat) (s : List Char) :
    readValue (fuel + 1) depth (c :: s) = readNumber (c :: s) := by
  obtain ⟨hspace, hopen⟩ := hc
  simp only [List.mem_cons, List.not_mem_nil, or_false, not_or] at hopen
  rw [readValue, skipSpace_cons hspace]
  simp [hopen]

lemma opensNumber_digit {c : Char} (h : Text.isAsciiDigit c = true) : OpensNumber c := by
  constructor
  · by_contra hspace
    simp only [isSpace, Bool.not_eq_false, Bool.or_eq_true, beq_iff_eq] at hspace
    rcases hspace with ((rfl | rfl) | rfl) | rfl <;> revert h <;> decide
  · simp only [List.mem_cons, List.not_mem_nil, or_false]
    rintro (rfl | rfl | rfl | rfl | rfl | rfl) <;> revert h <;> decide

lemma write_int_opens (n : Int) : ∃ c s, write (int n) = c :: s ∧ OpensNumber c := by
  have hminus : OpensNumber '-' := by constructor <;> decide
  rw [write_int]
  split
  · exact ⟨'-', _, rfl, hminus⟩
  · cases hd : Nat.toDigits 10 n.toNat with
    | nil => exact absurd hd Nat.toDigits_ne_nil
    | cons c s =>
      have hmem : c ∈ Nat.toDigits 10 n.toNat := by simp [hd]
      exact ⟨c, s, rfl, opensNumber_digit (isAsciiDigit_of_mem_toDigits hmem)⟩

lemma readsAs_int (depth : Nat) {n : Int} (hn : IsWhole n) : ReadsAs depth (int n) (int n) := by
  apply readsAs_of_forall
  intro fuel rest hr
  obtain ⟨c, s, hwrite, hc⟩ := write_int_opens n
  have hread := readNumber_int n hn hr
  rw [hwrite, List.cons_append] at hread ⊢
  rw [readValue_number hc, hread]

lemma readsAs_ofNat (depth : Nat) {n : Nat} (hn : n < Word.bound) :
    ReadsAs depth (ofNat n) (ofNat n) :=
  readsAs_int depth ⟨by omega, by omega⟩

/-! ## Decimals -/

lemma skipSpace_append {s : List Char} (hs : skipSpace s ≠ []) (rest : List Char) :
    skipSpace (s ++ rest) = skipSpace s ++ rest := by
  unfold skipSpace at hs ⊢
  rw [List.dropWhile_append, if_neg (by simpa using hs)]

lemma skipSpace_append_blank {s : List Char} (hs : skipSpace s = []) (rest : List Char) :
    skipSpace (s ++ rest) = skipSpace rest := by
  unfold skipSpace at hs ⊢
  rw [List.dropWhile_append, if_pos (by simpa using hs)]

/-- Whatever is read as a number in one place is read so in front of any delimiter. -/
lemma readValue_real_local {fuel depth : Nat} {s left : List Char} {w : Json} {x : Float}
    (h : readValue fuel depth s = some (w, left)) (hw : w.asReal? = some x)
    {rest : List Char} (hr : Delimited rest) (fuel' depth' : Nat) :
    readValue (fuel' + 1) depth' (s ++ rest) = some (w, left ++ rest) := by
  cases fuel with
  | zero => simp [readValue] at h
  | succ fuel =>
  rw [readValue] at h
  -- no other kind of value is a number
  split at h
  · obtain ⟨-, rfl, -⟩ := by simpa [expect] using h
    simp [asReal?] at hw
  · obtain ⟨-, rfl, -⟩ := by simpa [expect] using h
    simp [asReal?] at hw
  · obtain ⟨-, rfl, -⟩ := by simpa [expect] using h
    simp [asReal?] at hw
  · obtain ⟨read, -, -, rfl, -⟩ := by simpa using h
    cases read <;> simp [asReal?] at hw
  · split at h
    · obtain ⟨rfl, -⟩ := by simpa using h
      unfold nested at hw
      split at hw <;> simp [asReal?] at hw
    · obtain ⟨items, -, -, rfl, -⟩ := by simpa using h
      unfold nested at hw
      split at hw <;> simp [asReal?] at hw
  · split at h
    · obtain ⟨rfl, -⟩ := by simpa using h
      unfold nested at hw
      split at hw <;> simp [asReal?] at hw
    · obtain ⟨fields, -, -, rfl, -⟩ := by simpa using h
      cases fields with
      | none => simp [asReal?] at hw
      | some fields =>
        simp only [Option.map_some, Option.getD_some, nested] at hw
        split at hw <;> simp [asReal?] at hw
  · next hn ht hf hq hl ho =>
    have hne : skipSpace s ≠ [] := by
      intro hnil
      rw [hnil] at h
      simp [readNumber, readWhole, Decimal.takeDigits] at h
    have hread := readNumber_local h hr
    rw [readValue, skipSpace_append hne]
    cases hs : skipSpace s with
    | nil => exact absurd hs hne
    | cons c tail =>
      rw [hs] at hread hn ht hf hq hl ho
      have hcn : c ≠ 'n' := by rintro rfl; exact hn tail rfl
      have hct : c ≠ 't' := by rintro rfl; exact ht tail rfl
      have hcf : c ≠ 'f' := by rintro rfl; exact hf tail rfl
      have hcq : c ≠ '"' := by rintro rfl; exact hq tail rfl
      have hcl : c ≠ '[' := by rintro rfl; exact hl tail rfl
      have hco : c ≠ '{' := by rintro rfl; exact ho tail rfl
      rw [List.cons_append] at hread ⊢
      simpa [hcn, hct, hcf, hcq, hcl, hco] using hread

/-- What a decimal's own text is read as, it is read as everywhere. -/
lemma readsAs_of_parse? {v w : Json} {x : Float} (h : parse? v.render = some w)
    (hw : w.asReal? = some x) (depth : Nat) : ReadsAs depth v w := by
  intro fuel rest hr hfuel
  obtain ⟨fuel, rfl⟩ : ∃ n, fuel = n + 1 := ⟨fuel - 1, by omega⟩
  simp only [parse?, render, String.toList_ofList] at h
  split at h
  · next value left hread =>
    obtain ⟨hblank, rfl⟩ := by simpa using h
    refine ⟨left ++ rest, readValue_real_local hread hw hr fuel depth, ?_⟩
    rw [skipSpace_append_blank hblank, skipSpace_of_delimited hr]
  · simp at h

/-! ## Lists and objects -/

lemma readsAs_items {depth : Nat} {item : Json} {items : List Json} {wanted : List Json}
    (h : List.Forall₂ (ReadsAs depth) (item :: items) wanted) (fuel : Nat) (rest : List Char)
    (hfuel : 2 * (writeItems (item :: items)).length + 1 < fuel) :
    readItems fuel depth (writeItems (item :: items) ++ ']' :: rest) = some (wanted, rest) := by
  induction items generalizing item wanted fuel with
  | nil =>
    obtain ⟨fuel, rfl⟩ : ∃ n, fuel = n + 1 := ⟨fuel - 1, by omega⟩
    cases h with | @cons _ w _ ws hw hws =>
    cases hws
    rw [writeItems] at hfuel ⊢
    obtain ⟨left, hread, hleft⟩ :=
      hw fuel (']' :: rest) (delimited_cons (by simp) rest) (by omega)
    simp [readItems, hread, hleft]
  | cons next items ih =>
    obtain ⟨fuel, rfl⟩ : ∃ n, fuel = n + 1 := ⟨fuel - 1, by omega⟩
    cases h with | @cons _ w _ ws hw hws =>
    rw [writeItems.eq_3 _ _ (by simp)] at hfuel ⊢
    simp only [List.length_append, List.length_cons] at hfuel
    obtain ⟨left, hread, hleft⟩ :=
      hw fuel (',' :: (writeItems (next :: items) ++ ']' :: rest))
        (delimited_cons (by simp) _) (by omega)
    rw [List.append_assoc, List.cons_append, readItems, hread]
    simp [hleft, ih hws fuel (by omega)]

/-- The text of a value begins with something other than a blank or a closing bracket. -/
def Opens (v : Json) : Prop := ∃ c s, v.write = c :: s ∧ isSpace c = false ∧ c ≠ ']'

lemma opens_text (s : String) : Opens (text s) := ⟨'"', _, rfl, by decide, by decide⟩

lemma opens_object (fields : List (String × Json)) : Opens (object fields) :=
  ⟨'{', _, rfl, by decide, by decide⟩

lemma writeItems_opens {item : Json} (h : Opens item) (items : List Json) :
    ∃ c s, writeItems (item :: items) = c :: s ∧ isSpace c = false ∧ c ≠ ']' := by
  obtain ⟨c, s, hwrite, hspace, hclose⟩ := h
  cases items with
  | nil => exact ⟨c, s, by rw [writeItems, hwrite], hspace, hclose⟩
  | cons next items =>
    refine ⟨c, s ++ ',' :: writeItems (next :: items), ?_, hspace, hclose⟩
    rw [writeItems.eq_3 _ _ (by simp), hwrite, List.cons_append]

/-- A list reads as the list of what its items read as, one level further down. -/
lemma readsAs_list {depth : Nat} (hdepth : 1 ≤ depth) {items wanted : List Json}
    (hopen : ∀ item ∈ items, Opens item) (h : List.Forall₂ (ReadsAs depth) items wanted) :
    ReadsAs (depth + 1) (list items) (list wanted) := by
  intro fuel rest hr hfuel
  obtain ⟨fuel, rfl⟩ : ∃ n, fuel = n + 1 := ⟨fuel - 1, by omega⟩
  have hnested : ∀ v, nested (depth + 1) v = v := by
    intro v
    rw [nested, if_neg (by omega)]
  refine ⟨rest, ?_, skipSpace_of_delimited hr⟩
  cases items with
  | nil =>
    cases h
    simp [write, writeItems, readValue, skipSpace, isSpace, hnested]
  | cons item items =>
    obtain ⟨c, s, hwrite, hspace, hclose⟩ :=
      writeItems_opens (hopen item (by simp)) items
    simp only [write, List.length_cons, List.length_append, List.length_nil] at hfuel
    have hread := readsAs_items h fuel rest (by omega)
    simp only [write, List.cons_append, List.append_assoc, List.nil_append]
    rw [readValue, skipSpace_cons (by decide)]
    rw [hwrite] at hread ⊢
    simp only [List.cons_append, skipSpace_cons hspace] at hread ⊢
    simp [hclose, hread, hnested]

/-- Two fields agree when their keys are the same and the one value reads as the other. -/
def FieldReadsAs (depth : Nat) (field wanted : String × Json) : Prop :=
  wanted.1 = field.1 ∧ ReadsAs depth field.2 wanted.2

lemma quote_append (s rest : List Char) :
    quote s ++ rest = '"' :: (s.flatMap escape ++ '"' :: rest) := by simp [quote]

lemma readsAs_fields {depth : Nat} {field : String × Json} {fields wanted : List (String × Json)}
    (h : List.Forall₂ (FieldReadsAs depth) (field :: fields) wanted) (fuel : Nat)
    (rest : List Char) (hfuel : 2 * (writeFields (field :: fields)).length + 1 < fuel) :
    readFields fuel depth (writeFields (field :: fields) ++ '}' :: rest) =
      some (some wanted, rest) := by
  induction fields generalizing field wanted fuel with
  | nil =>
    obtain ⟨fuel, rfl⟩ : ∃ n, fuel = n + 1 := ⟨fuel - 1, by omega⟩
    cases h with | @cons _ w _ ws hw hws =>
    cases hws
    obtain ⟨key, value⟩ := field
    obtain ⟨_, w⟩ := w
    obtain ⟨rfl, hw⟩ := hw
    change ReadsAs depth value w at hw
    rw [writeFields] at hfuel ⊢
    simp only [List.length_append, List.length_cons] at hfuel
    obtain ⟨left, hread, hleft⟩ :=
      hw fuel ('}' :: rest) (delimited_cons (by simp) rest) (by omega)
    rw [List.append_assoc, quote_append, readFields, skipSpace_cons (by decide)]
    simp only [readText_escaped, List.cons_append, skipSpace_cons (c := ':') (by decide)]
    simp [hread, hleft]
  | cons next fields ih =>
    obtain ⟨fuel, rfl⟩ : ∃ n, fuel = n + 1 := ⟨fuel - 1, by omega⟩
    cases h with | @cons _ w _ ws hw hws =>
    obtain ⟨key, value⟩ := field
    obtain ⟨_, w⟩ := w
    obtain ⟨rfl, hw⟩ := hw
    change ReadsAs depth value w at hw
    rw [writeFields.eq_3 _ _ _ (by simp)] at hfuel ⊢
    simp only [List.length_append, List.length_cons] at hfuel
    obtain ⟨left, hread, hleft⟩ :=
      hw fuel (',' :: (writeFields (next :: fields) ++ '}' :: rest))
        (delimited_cons (by simp) _) (by omega)
    simp only [List.append_assoc, List.cons_append]
    rw [quote_append, readFields, skipSpace_cons (by decide)]
    simp only [readText_escaped, skipSpace_cons (c := ':') (by decide)]
    simp [hread, hleft, ih hws fuel (by omega)]

/-- An object reads as the object of what its fields read as, one level further down. -/
lemma readsAs_object {depth : Nat} (hdepth : 1 ≤ depth) {fields wanted : List (String × Json)}
    (h : List.Forall₂ (FieldReadsAs depth) fields wanted) :
    ReadsAs (depth + 1) (object fields) (object wanted) := by
  intro fuel rest hr hfuel
  obtain ⟨fuel, rfl⟩ : ∃ n, fuel = n + 1 := ⟨fuel - 1, by omega⟩
  have hnested : ∀ v, nested (depth + 1) v = v := by
    intro v
    rw [nested, if_neg (by omega)]
  refine ⟨rest, ?_, skipSpace_of_delimited hr⟩
  cases fields with
  | nil =>
    cases h
    simp [write, writeFields, readValue, skipSpace, isSpace, hnested]
  | cons field fields =>
    simp only [write, List.length_cons, List.length_append, List.length_nil] at hfuel
    have hread := readsAs_fields h fuel rest (by omega)
    obtain ⟨s, hwrite⟩ : ∃ s, writeFields (field :: fields) = '"' :: s := by
      cases fields <;> exact ⟨_, rfl⟩
    simp only [write, List.cons_append, List.append_assoc, List.nil_append]
    rw [readValue, skipSpace_cons (by decide)]
    rw [hwrite] at hread ⊢
    simp only [List.cons_append, skipSpace_cons (c := '"') (by decide)] at hread ⊢
    simp [hread, hnested]

lemma readsAs_ofTexts (depth : Nat) (hdepth : 1 ≤ depth) (texts : List String) :
    ReadsAs (depth + 1) (ofTexts texts) (ofTexts texts) := by
  apply readsAs_list hdepth
  · simp [opens_text]
  · induction texts with
    | nil => exact .nil
    | cons s texts ih => exact .cons (readsAs_text depth s) ih

/-- The whole text of a value is read as what it reads as in its surroundings. -/
theorem parse?_render {v w : Json} (h : ReadsAs maxDepth v w) : parse? v.render = some w := by
  obtain ⟨left, hread, hleft⟩ :=
    h (2 * v.write.length + 2) [] delimited_nil (by omega)
  rw [List.append_nil] at hread
  simp [parse?, render, hread, hleft]

end HouseStyle.Json
