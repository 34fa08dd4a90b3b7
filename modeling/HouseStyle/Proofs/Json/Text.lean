import HouseStyle.Json.Reader
import Mathlib.Tactic.Common

/-!
# Reading back what was written: texts and numbers

The reader is followed over the leaves of a value. What comes after a leaf is the end of
the text or one of the three characters that may follow a value, and the reader stops
there.
-/

namespace HouseStyle.Json

open HouseStyle.Text

/-- What may follow a written value: nothing, or a comma or closing bracket. -/
def Delimited (rest : List Char) : Prop :=
  ∀ c ∈ rest.head?, c = ',' ∨ c = ']' ∨ c = '}'

lemma delimited_nil : Delimited [] := by simp [Delimited]

lemma delimited_cons {c : Char} (h : c = ',' ∨ c = ']' ∨ c = '}') (rest : List Char) :
    Delimited (c :: rest) := by
  intro d hd
  obtain rfl : c = d := by simpa using hd
  exact h

lemma skipSpace_cons {c : Char} (h : isSpace c = false) (rest : List Char) :
    skipSpace (c :: rest) = c :: rest := by simp [skipSpace, h]

lemma skipSpace_of_delimited {rest : List Char} (h : Delimited rest) :
    skipSpace rest = rest := by
  cases rest with
  | nil => rfl
  | cons c rest =>
    apply skipSpace_cons
    rcases h c (by simp) with rfl | rfl | rfl <;> decide

/-! ## Texts -/

lemma hexUnit?_control : ∀ n < 32,
    hexUnit? '0' '0' (hexDigit (n / 16)) (hexDigit (n % 16)) = some n := by decide

lemma isHighHalf_control {n : Nat} (h : n < 32) : isHighHalf n = false := by
  simp [isHighHalf]; omega

lemma isLowHalf_control {n : Nat} (h : n < 32) : isLowHalf n = false := by
  simp [isLowHalf]; omega

/-- An escape of one letter is read as the character it stands for. -/
lemma readText_letter {letter c : Char} (h : unescape? letter = some c) (read : List Char)
    (rest : List Char) :
    readText (some read) none ('\\' :: letter :: rest) = readText (some (c :: read)) none rest := by
  have hu : letter ≠ 'u' := by rintro rfl; simp [unescape?] at h
  rw [readText.eq_4 _ _ _ _ (by rintro _ _ _ _ _ rfl; exact absurd rfl hu)]
  simp [h]

/-- The three ways in which a character is written in a text. -/
lemma escape_cases (c : Char) :
    (∃ letter, escape c = ['\\', letter] ∧ unescape? letter = some c) ∨
    (escape c = ['\\', 'u', '0', '0', hexDigit (c.toNat / 16), hexDigit (c.toNat % 16)] ∧
      c.toNat < 32) ∨
    (escape c = [c] ∧ c ≠ '"' ∧ c ≠ '\\' ∧ ¬ c.toNat < 32) := by
  unfold escape
  split
  · next h => subst h; exact .inl ⟨_, rfl, rfl⟩
  split
  · next h => subst h; exact .inl ⟨_, rfl, rfl⟩
  split
  · next h => subst h; exact .inl ⟨_, rfl, rfl⟩
  split
  · next h => subst h; exact .inl ⟨_, rfl, rfl⟩
  split
  · next h => subst h; exact .inl ⟨_, rfl, rfl⟩
  split
  · next h => subst h; exact .inl ⟨_, rfl, rfl⟩
  split
  · next h => subst h; exact .inl ⟨_, rfl, rfl⟩
  split
  · next h => exact .inr (.inl ⟨rfl, h⟩)
  · next hquote hbackslash _ _ _ _ _ h => exact .inr (.inr ⟨rfl, hquote, hbackslash, h⟩)

/-- The reader takes back one escaped character. -/
lemma readText_escape (c : Char) (read rest : List Char) :
    readText (some read) none (escape c ++ rest) = readText (some (c :: read)) none rest := by
  rcases escape_cases c with ⟨letter, hescape, known⟩ | ⟨hescape, hlow⟩ |
    ⟨hescape, hquote, hbackslash, hlow⟩
  · rw [hescape]
    exact readText_letter known read rest
  · rw [hescape]
    simp [readText, hexUnit?_control _ hlow, isHighHalf_control hlow, isLowHalf_control hlow,
      Char.ofNat_toNat]
  · rw [hescape, List.singleton_append, readText.eq_5 _ _ _ _ (by simpa using hquote)]
    · simp [hlow, hbackslash]
    all_goals simp [hbackslash]

lemma readText_escaped (s read rest : List Char) :
    readText (some read) none (s.flatMap escape ++ '"' :: rest) =
      some (some (read.reverse ++ s), rest) := by
  induction s generalizing read with
  | nil => simp [readText]
  | cons c s ih =>
    rw [List.flatMap_cons, List.append_assoc, readText_escape, ih]
    simp

/-! ## Whole numbers -/

lemma isAsciiDigit_of_isDigit {c : Char} (h : c.isDigit = true) : isAsciiDigit c = true := by
  simp only [Char.isDigit, Bool.and_eq_true, decide_eq_true_eq, ge_iff_le,
    UInt32.le_iff_toNat_le] at h
  simpa [isAsciiDigit] using h

lemma isAsciiDigit_of_mem_toDigits {n : Nat} {c : Char} (h : c ∈ Nat.toDigits 10 n) :
    isAsciiDigit c = true :=
  isAsciiDigit_of_isDigit (Nat.isDigit_of_mem_toDigits (by decide) (by decide) h)

lemma isAsciiDigit_of_delimited {rest : List Char} (h : Delimited rest) :
    ∀ c ∈ rest.head?, isAsciiDigit c = false := by
  intro c hc
  rcases h c hc with rfl | rfl | rfl <;> decide

lemma takeDigits_append (digits : List Char) {rest : List Char}
    (hd : ∀ c ∈ digits, isAsciiDigit c = true)
    (hr : ∀ c ∈ rest.head?, isAsciiDigit c = false) :
    Decimal.takeDigits (digits ++ rest) = (digits, rest) := by
  have htake : rest.takeWhile isAsciiDigit = [] ∧ rest.dropWhile isAsciiDigit = rest := by
    cases rest with
    | nil => simp
    | cons c rest => simp [hr c (by simp)]
  simp only [Decimal.takeDigits]
  rw [List.takeWhile_append_of_pos hd, List.dropWhile_append_of_pos hd, htake.1, htake.2]
  simp

/-- Only the digits of 0 begin with a zero. -/
lemma toDigits_head_zero (n : Nat) (h : (Nat.toDigits 10 n).head? = some '0') : n = 0 := by
  induction n using Nat.strongRecOn with
  | ind n ih =>
    rw [Nat.toDigits_eq_if (by decide)] at h
    split at h
    · next hn =>
      have hall : ∀ m < 10, Nat.digitChar m = '0' → m = 0 := by decide
      exact hall n hn (by simpa using h)
    · next hn =>
      rw [List.head?_append, Option.or_of_isSome (by simp [Nat.toDigits_ne_nil])] at h
      have := ih (n / 10) (by omega) h
      omega

lemma natOfDigits_toDigits (n : Nat) : Decimal.natOfDigits (Nat.toDigits 10 n) = n := by
  have h := Nat.ofDigitChars_ten_toDigits (n := n)
  rwa [Nat.ofDigitChars_eq_foldl] at h

lemma readWhole_toDigits (n : Nat) {rest : List Char} (hr : Delimited rest) :
    readWhole (Nat.toDigits 10 n ++ rest) = some (Nat.toDigits 10 n, rest) := by
  unfold readWhole
  rw [takeDigits_append _ (fun c => isAsciiDigit_of_mem_toDigits) (isAsciiDigit_of_delimited hr)]
  split
  · next h => exact absurd (Prod.mk.inj h).1 Nat.toDigits_ne_nil
  · next h =>
    have hdigits := (Prod.mk.inj h).1
    have hn := toDigits_head_zero n (by rw [hdigits]; rfl)
    subst hn
    simp at hdigits
  · next h => rw [(Prod.mk.inj h).1, (Prod.mk.inj h).2]

lemma readFraction_of_delimited {rest : List Char} (hr : Delimited rest) :
    readFraction rest = some (none, rest) := by
  unfold readFraction
  split
  · next tail => rcases hr '.' (by simp) with h | h | h <;> simp at h
  · rfl

lemma readPower_of_delimited {rest : List Char} (hr : Delimited rest) :
    readPower rest = some (none, rest) := by
  unfold readPower
  split
  · rfl
  · next mark tail =>
    have hmark : ¬ (mark = 'e' ∨ mark = 'E') := by
      rcases hr mark (by simp) with rfl | rfl | rfl <;> decide
    rw [if_neg hmark]

/-- A number without its sign, and what follows it. -/
def readUnsigned (negative : Bool) (s : List Char) : Option (Json × List Char) := do
  let (whole, s) ← readWhole s
  let (fraction, s) ← readFraction s
  let (power, s) ← readPower s
  match fraction, power with
  | none, none =>
    match wholeNumber negative whole with
    | real x => some (if x.isFinite then real x else beyond, s)
    | value => some (value, s)
  | _, _ =>
    let places := fraction.getD []
    let x := Decimal.ofDigits (whole ++ places) (power.getD 0 - places.length)
    some (if x.isFinite then real (Decimal.negateIf negative x) else beyond, s)

lemma readNumber_minus (s : List Char) : readNumber ('-' :: s) = readUnsigned true s := rfl

lemma readNumber_plain {s : List Char} (h : ∀ rest, s ≠ '-' :: rest) :
    readNumber s = readUnsigned false s := by
  unfold readNumber
  split
  next negative tail heq =>
  have hplain : (negative, tail) = (false, s) := by
    rw [← heq]
    split
    · next rest => exact absurd rfl (h rest)
    · rfl
  obtain ⟨rfl, rfl⟩ := Prod.mk.inj hplain
  rfl

lemma readNumber_toDigits (n : Nat) (hn : n < Word.bound) {rest : List Char}
    (hr : Delimited rest) :
    readNumber (Nat.toDigits 10 n ++ rest) = some (int n, rest) := by
  have hsign : ∀ tail, Nat.toDigits 10 n ++ rest ≠ '-' :: tail := by
    intro tail h
    cases hd : Nat.toDigits 10 n with
    | nil => exact Nat.toDigits_ne_nil hd
    | cons c digits =>
      rw [hd, List.cons_append, List.cons.injEq] at h
      have hdigit : isAsciiDigit c = true := isAsciiDigit_of_mem_toDigits (n := n) (by simp [hd])
      rw [h.1] at hdigit
      exact absurd hdigit (by decide)
  rw [readNumber_plain hsign]
  simp [readUnsigned, readWhole_toDigits n hr, readFraction_of_delimited hr,
    readPower_of_delimited hr, wholeNumber, natOfDigits_toDigits, hn]

lemma readNumber_negative (n : Nat) (hpos : n ≠ 0) (hn : n ≤ Word.half) {rest : List Char}
    (hr : Delimited rest) :
    readNumber ('-' :: (Nat.toDigits 10 n ++ rest)) = some (int (-n), rest) := by
  simp [readNumber, readWhole_toDigits n hr, readFraction_of_delimited hr,
    readPower_of_delimited hr, wholeNumber, natOfDigits_toDigits, hpos, Nat.not_lt.mpr hn]

/-- A whole number that the reader keeps whole. -/
def IsWhole (n : Int) : Prop := -(Word.half : Int) ≤ n ∧ n < Word.bound

lemma write_int (n : Int) :
    write (int n) = if n < 0 then '-' :: Nat.toDigits 10 n.natAbs else Nat.toDigits 10 n.toNat := by
  rw [write, Int.toString_eq_repr]
  cases n with
  | ofNat n => simp [Int.repr, Nat.toList_repr]
  | negSucc n => simp [Int.repr, Nat.toList_repr, Int.negSucc_lt_zero, Int.natAbs_negSucc]

lemma readNumber_int (n : Int) (hn : IsWhole n) {rest : List Char} (hr : Delimited rest) :
    readNumber (write (int n) ++ rest) = some (int n, rest) := by
  obtain ⟨hlow, hhigh⟩ := hn
  rw [write_int]
  split
  · next h =>
    rw [List.cons_append, readNumber_negative _ (by omega) (by omega) hr]
    simp only [Option.some.injEq, Prod.mk.injEq, int.injEq, and_true]
    omega
  · next h =>
    rw [readNumber_toDigits _ (by omega) hr]
    simp only [Option.some.injEq, Prod.mk.injEq, int.injEq, and_true]
    omega

/-! ## Decimals

How a decimal is rounded does not matter here. If its text alone is read as some number,
it is read as the same number in front of a delimiter. -/

lemma takeDigits_local {s digits left : List Char}
    (h : Decimal.takeDigits s = (digits, left)) {rest : List Char} (hr : Delimited rest) :
    Decimal.takeDigits (s ++ rest) = (digits, left ++ rest) := by
  induction s generalizing digits with
  | nil =>
    obtain ⟨rfl, rfl⟩ := by simpa [Decimal.takeDigits] using h
    simpa using takeDigits_append [] (by simp) (isAsciiDigit_of_delimited hr)
  | cons c s ih =>
    by_cases hc : isAsciiDigit c = true
    · simp only [Decimal.takeDigits, List.takeWhile_cons, hc, if_true, List.dropWhile_cons,
        Prod.mk.injEq] at h
      obtain ⟨rfl, hleft⟩ := h
      have hs : Decimal.takeDigits s = (s.takeWhile isAsciiDigit, left) := by
        simp [Decimal.takeDigits, hleft]
      have htail := ih hs
      simp only [Decimal.takeDigits, Prod.mk.injEq] at htail
      simp [Decimal.takeDigits, hc, htail.1, htail.2]
    · simp only [Decimal.takeDigits, List.takeWhile_cons, hc, List.dropWhile_cons,
        Prod.mk.injEq] at h
      obtain ⟨rfl, rfl⟩ := h
      simp [Decimal.takeDigits, hc]

lemma readWhole_local {s digits left : List Char} (h : readWhole s = some (digits, left))
    {rest : List Char} (hr : Delimited rest) :
    readWhole (s ++ rest) = some (digits, left ++ rest) := by
  unfold readWhole at h ⊢
  rcases hs : Decimal.takeDigits s with ⟨ds, tail⟩
  rw [hs] at h
  rw [takeDigits_local hs hr]
  match ds, h with
  | [], h => simp at h
  | [d], h =>
    obtain ⟨rfl, rfl⟩ := by simpa using h
    simp
  | d :: e :: ds, h =>
    by_cases hd : d = '0'
    · subst hd; simp at h
    · obtain ⟨rfl, rfl⟩ := by simpa [hd] using h
      simp [hd]

lemma readFraction_local {s left : List Char} {fraction : Option (List Char)}
    (h : readFraction s = some (fraction, left)) {rest : List Char} (hr : Delimited rest) :
    readFraction (s ++ rest) = some (fraction, left ++ rest) := by
  unfold readFraction at h
  split at h
  · next tail =>
    rcases hs : Decimal.takeDigits tail with ⟨ds, tl⟩
    rw [hs] at h
    simp only [List.cons_append, readFraction, takeDigits_local hs hr]
    cases ds with
    | nil => simp at h
    | cons d ds =>
      obtain ⟨rfl, rfl⟩ := by simpa using h
      rfl
  · next hpoint =>
    obtain ⟨rfl, rfl⟩ := by simpa using h
    cases s with
    | nil => simpa using readFraction_of_delimited hr
    | cons c s =>
      have hc : c ≠ '.' := by rintro rfl; exact hpoint s rfl
      simp [readFraction, hc]

lemma takeSign_local {s : List Char} (hs : s ≠ []) (rest : List Char) :
    Decimal.takeSign (s ++ rest) =
      ((Decimal.takeSign s).1, (Decimal.takeSign s).2 ++ rest) := by
  cases s with
  | nil => exact absurd rfl hs
  | cons c s =>
    by_cases hminus : c = '-'
    · subst hminus; rfl
    · by_cases hplus : c = '+'
      · subst hplus; rfl
      · simp [Decimal.takeSign, hminus, hplus]

lemma readPower_local {s left : List Char} {power : Option Int}
    (h : readPower s = some (power, left)) {rest : List Char} (hr : Delimited rest) :
    readPower (s ++ rest) = some (power, left ++ rest) := by
  cases s with
  | nil =>
    obtain ⟨rfl, rfl⟩ := by simpa [readPower] using h
    simpa using readPower_of_delimited hr
  | cons mark tail =>
    simp only [readPower, List.cons_append] at h ⊢
    by_cases hmark : mark = 'e' ∨ mark = 'E'
    · rw [if_pos hmark] at h ⊢
      have htail : tail ≠ [] := by
        rintro rfl
        simp [Decimal.takeSign, Decimal.takeDigits] at h
      rw [takeSign_local htail]
      rcases hs : Decimal.takeDigits (Decimal.takeSign tail).2 with ⟨ds, tl⟩
      simp only [hs, takeDigits_local hs hr] at h ⊢
      cases ds with
      | nil => simp at h
      | cons d ds =>
        obtain ⟨rfl, rfl⟩ := by simpa using h
        rfl
    · rw [if_neg hmark] at h ⊢
      obtain ⟨rfl, rfl⟩ := by simpa using h
      rfl

lemma readUnsigned_local {negative : Bool} {s left : List Char} {value : Json}
    (h : readUnsigned negative s = some (value, left)) {rest : List Char} (hr : Delimited rest) :
    readUnsigned negative (s ++ rest) = some (value, left ++ rest) := by
  simp only [readUnsigned, Option.bind_eq_bind, Option.bind_eq_some_iff, Prod.exists] at h
  obtain ⟨whole, s1, hwhole, fraction, s2, hfraction, power, s3, hpower, hvalue⟩ := h
  simp only [readUnsigned, readWhole_local hwhole hr, readFraction_local hfraction hr,
    readPower_local hpower hr, Option.bind_eq_bind, Option.bind_some]
  split at hvalue
  · split at hvalue
    all_goals
      obtain ⟨rfl, rfl⟩ := by simpa using hvalue
      rfl
  · obtain ⟨rfl, rfl⟩ := by simpa using hvalue
    rfl

lemma readNumber_local {s left : List Char} {value : Json}
    (h : readNumber s = some (value, left)) {rest : List Char} (hr : Delimited rest) :
    readNumber (s ++ rest) = some (value, left ++ rest) := by
  by_cases hminus : ∃ tail, s = '-' :: tail
  · obtain ⟨tail, rfl⟩ := hminus
    rw [readNumber_minus] at h
    rw [List.cons_append, readNumber_minus, readUnsigned_local h hr]
  · have hs : ∀ tail, s ≠ '-' :: tail := fun tail he => hminus ⟨tail, he⟩
    rw [readNumber_plain hs] at h
    rw [readNumber_plain, readUnsigned_local h hr]
    intro tail he
    cases s with
    | nil => simp [readUnsigned, readWhole, Decimal.takeDigits] at h
    | cons c s => exact hs s (by simpa using (List.cons.inj he).1)

end HouseStyle.Json
