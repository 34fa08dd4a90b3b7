import HouseStyle.Json.Lenient
import HouseStyle.Proofs.Json.RoundTrip
import Mathlib.Data.List.TakeWhile

/-!
# The lenient reader takes what was written

Lists of texts are written strictly and searched by the lenient reader. It reads every text as
pieces that stand for the same characters, so it finds a text exactly when it is in the list.
-/

namespace HouseStyle.LenientJson

open HouseStyle.Json (escape hexDigit)

variable {c : Char} {s rest : List Char} {fuel depth : Nat} {texts : List String}

/-! ## Texts -/

/-- The pieces that an escaped character can be read as. -/
inductive Spells : TextPiece → Char → Prop where
  | plain (c : Char) : Spells (.plain c) c
  | letter {l c : Char} (known : Json.unescape? l = some c) : Spells (.escaped l) c
  | control {a b c : Char} (unit : Json.hexUnit? '0' '0' a b = some c.toNat)
      (low : c.toNat < 32) : Spells (.unit '0' '0' a b) c

lemma isHexDigit_control : ∀ n < 32,
    (isHexDigit (hexDigit (n / 16)) && isHexDigit (hexDigit (n % 16))) = true := by decide

lemma readEscape_letter {l : Char} (known : Json.unescape? l = some c) (rest : List Char) :
    readEscape (l :: rest) = some (.escaped l, rest) := by
  unfold Json.unescape? at known
  split at known
  case h_9 => cases known
  all_goals rfl

lemma readEscape_control (low : c.toNat < 32) (rest : List Char) :
    readEscape ('u' :: '0' :: '0' :: hexDigit (c.toNat / 16) :: hexDigit (c.toNat % 16) :: rest) =
      some (.unit '0' '0' (hexDigit (c.toNat / 16)) (hexDigit (c.toNat % 16)), rest) := by
  rw [readEscape, Bool.and_assoc, isHexDigit_control _ low]
  rfl

/-- The reader takes one escaped character as one piece. -/
lemma readPieces_escape (c : Char) (fuel : Nat) (rest : List Char) :
    ∃ piece, Spells piece c ∧ readPieces '"' (fuel + 1) (escape c ++ rest) =
      (readPieces '"' fuel rest).map fun (pieces, rest) => (piece :: pieces, rest) := by
  rcases Json.escape_cases c with ⟨l, hescape, known⟩ | ⟨hescape, low⟩ |
    ⟨hescape, hquote, hbackslash, -⟩
  · refine ⟨.escaped l, .letter known, ?_⟩
    rw [hescape, List.cons_append, List.singleton_append, readPieces, if_neg (by decide),
      if_pos rfl, readEscape_letter known]
  · refine ⟨.unit '0' '0' _ _, .control (Json.hexUnit?_control _ low) low, ?_⟩
    rw [hescape]
    simp only [List.cons_append, List.nil_append]
    rw [readPieces, if_neg (by decide), if_pos rfl, readEscape_control low]
  · refine ⟨.plain c, .plain c, ?_⟩
    rw [hescape, List.singleton_append, readPieces, if_neg hquote, if_neg hbackslash]

lemma readPieces_quoted (h : s.length < fuel) :
    ∃ pieces, List.Forall₂ Spells pieces s ∧
      readPieces '"' fuel (s.flatMap escape ++ '"' :: rest) = some (pieces, rest) := by
  induction s generalizing fuel with
  | nil =>
    obtain ⟨fuel, rfl⟩ : ∃ n, fuel = n + 1 := ⟨fuel - 1, by omega⟩
    exact ⟨[], .nil, by simp [readPieces]⟩
  | cons c s ih =>
    obtain ⟨fuel, rfl⟩ : ∃ n, fuel = n + 1 := ⟨fuel - 1, by omega⟩
    rw [List.length_cons] at h
    obtain ⟨pieces, hpieces, hread⟩ := @ih fuel (by omega)
    obtain ⟨piece, hpiece, hfirst⟩ := readPieces_escape c fuel (s.flatMap escape ++ '"' :: rest)
    refine ⟨piece :: pieces, .cons hpiece hpieces, ?_⟩
    rw [List.flatMap_cons, List.append_assoc, hfirst, hread]
    rfl

/-- A unit that is a control character is no half of a pair, whatever comes behind it. -/
lemma characters?_control {a b : Char} (unit : Json.hexUnit? '0' '0' a b = some c.toNat)
    (low : c.toNat < 32) (pieces : List TextPiece) :
    characters? (.unit '0' '0' a b :: pieces) = (characters? pieces).map (c :: ·) := by
  have hhigh := Json.isHighHalf_control low
  have hlow := Json.isLowHalf_control low
  cases pieces with
  | nil => simp [characters?, unit, hhigh, hlow, Char.ofNat_toNat]
  | cons next pieces =>
    cases next with
    | unit e f g h =>
      cases hnext : Json.hexUnit? e f g h with
      | none =>
        have hunread : characters? (.unit e f g h :: pieces) = none := by
          cases pieces with
          | nil => simp [characters?, hnext]
          | cons later pieces => cases later <;> simp [characters?, hnext]
        simp [characters?, unit, hnext, hunread]
      | some low' => simp [characters?, unit, hhigh, hlow, hnext, Char.ofNat_toNat]
    | _ => simp [characters?, unit, hhigh, hlow, Char.ofNat_toNat]

/-- Pieces stand for the characters that they were read from. -/
lemma characters?_of_spells {pieces : List TextPiece} (h : List.Forall₂ Spells pieces s) :
    characters? pieces = some s := by
  induction h with
  | nil => rfl
  | cons hpiece _ ih =>
    cases hpiece with
    | plain => simp [characters?, ih]
    | letter known => simp [characters?, ih, known]
    | control unit low => rw [characters?_control unit low, ih, Option.map_some]

/-! ## Lists -/

/-- An item that stands for a text. -/
def IsText (item : LenientJson) (t : String) : Prop :=
  ∃ pieces, item = .text pieces ∧ List.Forall₂ Spells pieces t.toList

lemma IsText.reading {item : LenientJson} {t : String} (h : item.IsText t) :
    item.reading = .text t.toList := by
  obtain ⟨pieces, rfl, hpieces⟩ := h
  simp [LenientJson.reading, characters?_of_spells hpieces]

/-- No mark of a list or a text is a blank or begins a comment. -/
lemma skipBlanks_mark (h : c = '"' ∨ c = '[' ∨ c = ']' ∨ c = ',') (rest : List Char) :
    skipBlanks (c :: rest) = c :: rest := by
  rcases h with rfl | rfl | rfl | rfl <;> rfl

lemma length_le_escaped (s : List Char) : s.length ≤ (s.flatMap escape).length := by
  induction s with
  | nil => exact Nat.le_refl _
  | cons c s ih =>
    have hsome : 1 ≤ (escape c).length := by
      rcases Json.escape_cases c with ⟨l, hescape, -⟩ | ⟨hescape, -⟩ | ⟨hescape, -⟩ <;>
        simp [hescape]
    rw [List.flatMap_cons, List.length_append, List.length_cons]
    omega

/-- A quoted text is read as a value, whatever follows it. -/
lemma readValue_quoted (t : String) (hfuel : 0 < fuel) :
    ∃ item : LenientJson, item.IsText t ∧
      readValue fuel depth (Json.quote t.toList ++ rest) = some (item, rest) := by
  obtain ⟨fuel, rfl⟩ : ∃ n, fuel = n + 1 := ⟨fuel - 1, by omega⟩
  have hlength : t.toList.length < (t.toList.flatMap escape ++ '"' :: rest).length := by
    have hescaped := length_le_escaped t.toList
    rw [List.length_append, List.length_cons]
    omega
  obtain ⟨pieces, hpieces, hread⟩ := @readPieces_quoted t.toList rest _ hlength
  refine ⟨.text pieces, ⟨pieces, rfl, hpieces⟩, ?_⟩
  rw [Json.quote_append, readValue, skipBlanks_mark (by decide)]
  simp only [hread, Option.map_some]

/-- The last of some texts. -/
lemma readItems_last (t : String) (hfuel : 0 < fuel) :
    ∃ item : LenientJson, item.IsText t ∧
      readItems (fuel + 1) depth (Json.quote t.toList ++ ']' :: rest) = some ([item], rest) := by
  obtain ⟨item, hitem, hread⟩ := @readValue_quoted (']' :: rest) fuel depth t hfuel
  refine ⟨item, hitem, ?_⟩
  rw [Json.quote_append] at hread ⊢
  rw [readItems, skipBlanks_mark (by decide)]
  simp [hread, skipBlanks_mark]

/-- A text with others behind it. -/
lemma readItems_next (t : String) {s left : List Char} {items : List LenientJson}
    (hothers : readItems fuel depth s = some (items, left)) (hfuel : 0 < fuel) :
    ∃ item : LenientJson, item.IsText t ∧
      readItems (fuel + 1) depth (Json.quote t.toList ++ ',' :: s) =
        some (item :: items, left) := by
  obtain ⟨item, hitem, hread⟩ := @readValue_quoted (',' :: s) fuel depth t hfuel
  refine ⟨item, hitem, ?_⟩
  rw [Json.quote_append] at hread ⊢
  rw [readItems, skipBlanks_mark (by decide)]
  simp [hread, skipBlanks_mark, hothers]

lemma readItems_texts (hfuel : texts.length < fuel) :
    ∃ items, List.Forall₂ IsText items texts ∧
      readItems fuel depth (Json.writeItems (texts.map .text) ++ ']' :: rest) =
        some (items, rest) := by
  induction texts generalizing fuel with
  | nil =>
    obtain ⟨fuel, rfl⟩ : ∃ n, fuel = n + 1 := ⟨fuel - 1, by omega⟩
    exact ⟨[], .nil, rfl⟩
  | cons t texts ih =>
    obtain ⟨fuel, rfl⟩ : ∃ n, fuel = n + 1 := ⟨fuel - 1, by omega⟩
    rw [List.length_cons] at hfuel
    cases texts with
    | nil =>
      obtain ⟨item, hitem, hread⟩ := @readItems_last rest fuel depth t (by omega)
      exact ⟨[item], .cons hitem .nil, hread⟩
    | cons next texts =>
      obtain ⟨items, hitems, hothers⟩ := @ih fuel (by omega)
      obtain ⟨item, hitem, hread⟩ := readItems_next t hothers (by omega)
      refine ⟨item :: items, .cons hitem hitems, ?_⟩
      have hwrite : Json.writeItems ((t :: next :: texts).map .text) ++ ']' :: rest =
          Json.quote t.toList ++
            ',' :: (Json.writeItems ((next :: texts).map .text) ++ ']' :: rest) := by
        change (Json.quote t.toList ++ ',' :: Json.writeItems ((next :: texts).map .text)) ++ _ = _
        rw [List.append_assoc, List.cons_append]
      rw [hwrite, hread]

/-! ## Stored lists -/

lemma digits_ne_nul : ∀ n < 32,
    hexDigit (n / 16) ≠ '\x00' ∧ hexDigit (n % 16) ≠ '\x00' := by decide

/-- NUL is escaped like the other control characters. -/
lemma nul_not_mem_escape (c : Char) : '\x00' ∉ escape c := by
  rcases Json.escape_cases c with ⟨l, hescape, known⟩ | ⟨hescape, low⟩ | ⟨hescape, -, -, high⟩
  · rw [hescape]
    rintro (_ | ⟨_, _ | ⟨_, h⟩⟩)
    · cases known
    · cases h
  · have hdigits := digits_ne_nul _ low
    rw [hescape]
    simp [Ne.symm hdigits.1, Ne.symm hdigits.2]
  · rw [hescape, List.mem_singleton]
    rintro rfl
    exact high (by decide)

lemma nul_not_mem_writeItems (texts : List String) :
    '\x00' ∉ Json.writeItems (texts.map .text) := by
  induction texts with
  | nil => exact List.not_mem_nil
  | cons t texts ih =>
    have hquote : '\x00' ∉ Json.quote t.toList := by
      simp [Json.quote, nul_not_mem_escape]
    cases texts with
    | nil => exact hquote
    | cons next texts =>
      change '\x00' ∉ Json.quote t.toList ++ ',' :: Json.writeItems ((next :: texts).map .text)
      rw [List.mem_append, List.mem_cons]
      rintro (h | h | h)
      · exact hquote h
      · exact absurd h (by decide)
      · exact ih h

lemma length_le_writeItems (texts : List String) :
    texts.length ≤ (Json.writeItems (texts.map .text)).length + 1 := by
  induction texts with
  | nil => exact Nat.zero_le _
  | cons t texts ih =>
    cases texts with
    | nil => simp
    | cons next texts =>
      change _ ≤ (Json.quote t.toList ++
        ',' :: Json.writeItems ((next :: texts).map .text)).length + 1
      simp only [List.length_append, List.length_cons] at ih ⊢
      omega

/-- What a list of texts was written as is read as a list of these texts. -/
theorem parse?_ofTexts (texts : List String) :
    ∃ items, List.Forall₂ IsText items texts ∧
      parse? (Json.ofTexts texts).render = some (.list items) := by
  have hlength := length_le_writeItems texts
  obtain ⟨items, hitems, hread⟩ := @readItems_texts []
    (2 * (Json.writeItems (texts.map .text)).length + 5) 999 texts (by omega)
  refine ⟨items, hitems, ?_⟩
  have hsource : (Json.ofTexts texts).render.toList =
      '[' :: (Json.writeItems (texts.map .text) ++ [']']) := by
    rw [Json.render, String.toList_ofList]
    rfl
  have hwhole : ('[' :: (Json.writeItems (texts.map .text) ++ [']'])).takeWhile (· != '\x00') =
      '[' :: (Json.writeItems (texts.map .text) ++ [']']) := by
    rw [List.takeWhile_eq_self_iff]
    intro c hc
    rw [List.mem_cons, List.mem_append, List.mem_singleton] at hc
    rcases hc with rfl | hc | rfl
    · decide
    · exact bne_iff_ne.mpr (ne_of_mem_of_not_mem hc (nul_not_mem_writeItems texts))
    · decide
  have hfuel : 2 * ('[' :: (Json.writeItems (texts.map .text) ++ [']'])).length + 2 =
      2 * (Json.writeItems (texts.map .text)).length + 5 + 1 := by
    simp only [List.length_cons, List.length_append, List.length_nil]
    omega
  rw [parse?, hsource, hwhole, hfuel, readValue, skipBlanks_mark (by decide)]
  simp only [nestingLimit, hread, Option.map_some]
  rfl

/-- A text is found exactly when it is in the list. -/
theorem contains?_texts {items : List LenientJson} (h : List.Forall₂ IsText items texts)
    (t : String) : contains? t.toList items = some (texts.contains t) := by
  induction h with
  | nil => rfl
  | @cons item first items texts hitem _ ih =>
    rw [contains?, hitem.reading]
    by_cases heq : first = t
    · subst heq
      simp
    · have hchars : first.toList ≠ t.toList := fun h => heq (String.toList_inj.mp h)
      simp [hchars, ih, Ne.symm heq]

end HouseStyle.LenientJson
