import HouseStyle.Naming.Convert
import Mathlib.Data.List.TakeWhile
import Mathlib.Tactic.Common

/-!
# Words and their separators

Splitting a name keeps all its letters and digits, in lower case and in order. Words that are
joined by a separator are split again into the same words, so snake case and kebab case lose
nothing of a name but its capitals and its former separators.
-/

namespace HouseStyle

namespace Text

/-! ## ASCII characters -/

def IsAscii (c : Char) : Prop := c.toNat < 128

instance : DecidablePred IsAscii := fun c => inferInstanceAs (Decidable (c.toNat < 128))

/-- What holds of the characters of the first 128 code points holds of every ASCII character. -/
lemma IsAscii.forall {P : Char → Prop} (h : ∀ n < 128, P (Char.ofNat n)) {c : Char}
    (hc : IsAscii c) : P c := by
  have hown := h c.toNat hc
  rwa [Char.ofNat_toNat] at hown

/-- The characters of a given text are looked at one by one. -/
lemma isAscii_of_all {s : List Char} (h : (s.all fun c => decide (IsAscii c)) = true) :
    ∀ c ∈ s, IsAscii c :=
  fun c hc => of_decide_eq_true (List.all_eq_true.mp h c hc)

lemma IsAscii.lowerOf {c : Char} (hc : IsAscii c) : lowerOf c = [c.toLower] := if_pos hc

lemma IsAscii.upperOf {c : Char} (hc : IsAscii c) : upperOf c = [c.toUpper] := if_pos hc

end Text

namespace Naming

open HouseStyle.Text

variable {s current : List Char} {previous : Char}

/-- A character as it stands in a word. -/
@[mk_iff]
structure InWord (c : Char) : Prop where
  ascii : IsAscii c
  small : isUpper c = false
  joint : isSeparator c = false

instance : DecidablePred InWord := fun c => decidable_of_iff' _ (inWord_iff c)

lemma inWord_toLower {c : Char} (hc : IsAscii c) (joint : isSeparator c = false) :
    InWord c.toLower :=
  hc.forall (P := fun c => isSeparator c = false → InWord c.toLower) (by decide) joint

lemma InWord.toLower_eq {c : Char} (hc : InWord c) : c.toLower = c :=
  hc.ascii.forall (P := fun c => InWord c → c.toLower = c) (by decide) hc

/-- A word: not empty, and nothing in it that would be split or written differently. -/
def IsWord (w : List Char) : Prop := w ≠ [] ∧ ∀ c ∈ w, InWord c

/-! ## Splitting -/

/-- Without a word begun, the character before does not matter. -/
lemma wordsFrom_nil (previous previous' : Char) (s : List Char) :
    wordsFrom [] previous s = wordsFrom [] previous' s := by
  cases s with
  | nil => rfl
  | cons c s => simp [wordsFrom]

lemma wordsFrom_separator {c : Char} (hc : isSeparator c = true) :
    wordsFrom current previous (c :: s) = closeWord current (words s) := by
  rw [wordsFrom, if_pos hc, words, wordsFrom_nil c '_']

lemma words_separator {c : Char} (hc : isSeparator c = true) (s : List Char) :
    words (c :: s) = words s := wordsFrom_separator hc

/-- Separators in front are in no word. -/
lemma words_append {front : List Char} (h : ∀ c ∈ front, isSeparator c = true) (s : List Char) :
    words (front ++ s) = words s := by
  induction front with
  | nil => rfl
  | cons c front ih =>
    rw [List.cons_append, words_separator (h c (by simp)),
      ih fun d hd => h d (List.mem_cons_of_mem c hd)]

lemma flatten_closeWord (current : List Char) (ws : List (List Char)) :
    (closeWord current ws).flatten = current ++ ws.flatten := by
  cases current <;> rfl

/-- Nothing but separators is lost. -/
lemma flatten_wordsFrom (ascii : ∀ c ∈ s, IsAscii c) :
    (wordsFrom current previous s).flatten =
      current ++ (s.filter (!isSeparator ·)).map Char.toLower := by
  induction s generalizing current previous with
  | nil => rw [wordsFrom, flatten_closeWord]; rfl
  | cons c s ih =>
    have hc := (ascii c (by simp)).lowerOf
    have ih := fun {current previous} =>
      @ih current previous fun d hd => ascii d (List.mem_cons_of_mem c hd)
    by_cases hsep : isSeparator c = true
    · rw [wordsFrom, if_pos hsep, flatten_closeWord, ih, List.filter_cons_of_neg (by simp [hsep])]
      rfl
    · rw [wordsFrom, if_neg hsep, List.filter_cons_of_pos (by simpa using hsep), List.map_cons]
      split
      · rw [List.flatten_cons, ih, hc]
        rfl
      · rw [ih, hc, List.append_assoc]
        rfl

lemma isWord_closeWord {ws : List (List Char)} (hcurrent : ∀ c ∈ current, InWord c)
    (hws : ∀ w ∈ ws, IsWord w) : ∀ w ∈ closeWord current ws, IsWord w := by
  cases current with
  | nil => exact hws
  | cons c current => exact List.forall_mem_cons.mpr ⟨⟨by simp, hcurrent⟩, hws⟩

lemma isWord_wordsFrom (ascii : ∀ c ∈ s, IsAscii c) (hcurrent : ∀ c ∈ current, InWord c) :
    ∀ w ∈ wordsFrom current previous s, IsWord w := by
  induction s generalizing current previous with
  | nil => exact isWord_closeWord hcurrent (by simp)
  | cons c s ih =>
    have hc := ascii c (by simp)
    have ih := fun {current previous} =>
      @ih current previous fun d hd => ascii d (List.mem_cons_of_mem c hd)
    by_cases hsep : isSeparator c = true
    · rw [wordsFrom, if_pos hsep]
      exact isWord_closeWord hcurrent (ih (by simp))
    · have hlower := inWord_toLower hc (Bool.eq_false_iff.mpr hsep)
      rw [wordsFrom, if_neg hsep, hc.lowerOf]
      split
      · next hump =>
        have hsome : current ≠ [] := by
          rintro rfl
          simp at hump
        exact List.forall_mem_cons.mpr ⟨⟨hsome, hcurrent⟩, ih (by simpa using hlower)⟩
      · exact ih (List.forall_mem_append.mpr ⟨hcurrent, by simpa using hlower⟩)

theorem isWord_words (ascii : ∀ c ∈ s, IsAscii c) : ∀ w ∈ words s, IsWord w :=
  isWord_wordsFrom ascii (by simp)

theorem flatten_words (ascii : ∀ c ∈ s, IsAscii c) :
    (words s).flatten = (s.filter (!isSeparator ·)).map Char.toLower :=
  flatten_wordsFrom ascii

/-! ## Joining -/

/-- Characters of a word go on with the word that is being read. -/
lemma wordsFrom_append {w : List Char} (hw : ∀ c ∈ w, InWord c) (s : List Char) :
    ∃ last, wordsFrom current previous (w ++ s) = wordsFrom (current ++ w) last s := by
  induction w generalizing current previous with
  | nil => exact ⟨previous, by simp⟩
  | cons c w ih =>
    obtain ⟨hc, hw⟩ := List.forall_mem_cons.mp hw
    obtain ⟨last, hlast⟩ := @ih (current ++ [c]) c hw
    refine ⟨last, ?_⟩
    rw [List.cons_append, wordsFrom, hc.joint, hc.small, hc.ascii.lowerOf, hc.toLower_eq]
    simpa using hlast

/-- Words with a separator between them are split at it again. -/
theorem words_joinWith {separator : Char} (hsep : isSeparator separator = true)
    {ws : List (List Char)} (hws : ∀ w ∈ ws, IsWord w) :
    words (joinWith [separator] ws) = ws := by
  induction ws with
  | nil => rfl
  | cons w ws ih =>
    obtain ⟨⟨hne, hw⟩, hws⟩ := List.forall_mem_cons.mp hws
    have hclose : ∀ rest, closeWord w rest = w :: rest := by
      intro rest
      rw [closeWord, if_neg (by simpa using hne)]
    cases ws with
    | nil =>
      obtain ⟨last, hlast⟩ := @wordsFrom_append [] '_' w hw []
      rw [List.append_nil] at hlast
      rw [joinWith, words, hlast]
      exact hclose []
    | cons second others =>
      obtain ⟨last, hlast⟩ :=
        @wordsFrom_append [] '_' w hw (separator :: joinWith [separator] (second :: others))
      have hsplit : words (joinWith [separator] (w :: second :: others)) =
          closeWord w (words (joinWith [separator] (second :: others))) := by
        change words (w ++ [separator] ++ joinWith [separator] (second :: others)) = _
        rw [List.append_assoc]
        exact hlast.trans (wordsFrom_separator hsep)
      rw [hsplit, ih hws, hclose]

/-! ## Converting -/

/-- The underscores in front of a name. -/
def opening (s : List Char) : List Char := s.takeWhile (· = '_')

lemma opening_eq {c : Char} (hc : c ∈ opening s) : c = '_' := by
  simpa using List.mem_takeWhile_imp hc

lemma words_opening (s body : List Char) : words (opening s ++ body) = words body :=
  words_append (fun c hc => by rw [opening_eq hc]; rfl) body

lemma words_dropWhile (s : List Char) : words (s.dropWhile (· = '_')) = words s := by
  conv_rhs => rw [← List.takeWhile_append_dropWhile (p := (· = '_')) (l := s)]
  exact (words_opening s _).symm

lemma convertChars_of_words {w : List Char} {ws : List (List Char)} (h : words s = w :: ws)
    (style : CaseStyle) : convertChars s style = opening s ++ joinWords style (w :: ws) := by
  rw [convertChars, words_dropWhile, h]
  rfl

lemma convertChars_of_no_words (h : words s = []) (style : CaseStyle) :
    convertChars s style = s := by
  rw [convertChars, words_dropWhile, h]

/-- The styles that write words as they are, and the separator they put between them. -/
def separator? : CaseStyle → Option Char
  | .snake => some '_'
  | .kebab => some '-'
  | _ => none

lemma joinWords_of_separator {style : CaseStyle} {separator : Char}
    (h : separator? style = some separator) (ws : List (List Char)) :
    joinWords style ws = joinWith [separator] ws := by
  cases style with
  | snake => cases h; rfl
  | kebab => cases h; rfl
  | _ => cases h

lemma isSeparator_of_separator? {style : CaseStyle} {separator : Char}
    (h : separator? style = some separator) : isSeparator separator = true := by
  cases style with
  | snake => cases h; rfl
  | kebab => cases h; rfl
  | _ => cases h

/-- A name written with separators has the words it had. -/
theorem words_convertChars (ascii : ∀ c ∈ s, IsAscii c) {style : CaseStyle} {separator : Char}
    (h : separator? style = some separator) : words (convertChars s style) = words s := by
  cases hws : words s with
  | nil => rw [convertChars_of_no_words hws, hws]
  | cons w ws =>
    rw [convertChars_of_words hws, words_opening, joinWords_of_separator h,
      words_joinWith (isSeparator_of_separator? h) (hws ▸ isWord_words ascii)]

/-- Joined words begin as the first of them does. -/
lemma joinWith_cons (separator : List Char) (c : Char) (w : List Char) (ws : List (List Char)) :
    ∃ rest, joinWith separator ((c :: w) :: ws) = c :: rest := by
  cases ws <;> exact ⟨_, rfl⟩

lemma opening_append {front : List Char} (hfront : ∀ c ∈ front, c = '_') {c : Char} (hc : c ≠ '_')
    (s : List Char) : opening (front ++ c :: s) = front := by
  rw [opening, List.takeWhile_append_of_pos (by simpa using hfront),
    List.takeWhile_cons_of_neg (by simpa using hc), List.append_nil]

/-- A name written with separators in between is converted as it was before. -/
theorem convertChars_convertChars (ascii : ∀ c ∈ s, IsAscii c) {style : CaseStyle}
    {separator : Char} (h : separator? style = some separator) (target : CaseStyle) :
    convertChars (convertChars s style) target = convertChars s target := by
  cases hws : words s with
  | nil => rw [convertChars_of_no_words hws]
  | cons w ws =>
    have hword := isWord_words ascii w (by rw [hws]; simp)
    obtain ⟨c, w, rfl⟩ := List.exists_cons_of_ne_nil hword.1
    have hc : c ≠ '_' := by
      rintro rfl
      exact absurd (hword.2 '_' (by simp)).joint (by decide)
    obtain ⟨rest, hrest⟩ := joinWith_cons [separator] c w ws
    have hopening : opening (convertChars s style) = opening s := by
      rw [convertChars_of_words hws, joinWords_of_separator h, hrest]
      exact opening_append (fun _ => opening_eq) hc rest
    rw [convertChars_of_words ((words_convertChars ascii h).trans hws), hopening,
      convertChars_of_words hws]

/-! ## Names -/

/-- The words of an ASCII name hold all of it but the separators, in lower case. Written in snake
case or kebab case it keeps its words, so every other style can be had from there as well. -/
theorem splitWords_lossless {n : String} (ascii : ∀ c ∈ n.toList, IsAscii c) :
    (∀ w ∈ splitWords n, w ≠ "" ∧
      ∀ c ∈ w.toList, isUpper c = false ∧ c ≠ '_' ∧ c ≠ '-' ∧ c ≠ '$') ∧
    String.join (splitWords n) =
      String.ofList ((n.toList.filter fun c => !(c == '_' || c == '-' || c == '$')).map
        Char.toLower) ∧
    ∀ style, style = .snake ∨ style = .kebab →
      splitWords (convert n style) = splitWords n ∧
        ∀ target, convert (convert n style) target = convert n target := by
  refine ⟨?_, ?_, ?_⟩
  · intro w hw
    obtain ⟨w, hmem, rfl⟩ := List.mem_map.mp hw
    obtain ⟨hne, hin⟩ := isWord_words ascii w hmem
    refine ⟨by simpa using hne, fun c hc => ?_⟩
    obtain ⟨-, small, joint⟩ := hin c (by simpa using hc)
    simpa [isSeparator, and_assoc, small] using joint
  · have hjoin : ∀ ws : List (List Char),
        String.join (ws.map String.ofList) = String.ofList ws.flatten := by
      intro ws
      apply String.toList_inj.mp
      simp [String.toList_join, List.flatMap_map, List.flatMap_id']
    rw [splitWords, hjoin, flatten_words ascii]
    rfl
  · intro style hstyle
    obtain ⟨separator, h⟩ : ∃ separator, separator? style = some separator := by
      rcases hstyle with rfl | rfl <;> exact ⟨_, rfl⟩
    refine ⟨?_, fun target => ?_⟩
    · rw [splitWords, convert, String.toList_ofList, words_convertChars ascii h, splitWords]
    · rw [convert, convert, String.toList_ofList, convertChars_convertChars ascii h, convert]

/-- Digits go with the word before them, and an acronym ends before its last capital. -/
theorem sampleName_lossless :
    (∀ c ∈ "__HTTPServer2-x".toList, IsAscii c) ∧
      splitWords "__HTTPServer2-x" = ["http", "server2", "x"] ∧
      splitWords (convert "__HTTPServer2-x" .kebab) = splitWords "__HTTPServer2-x" ∧
      convert (convert "__HTTPServer2-x" .kebab) .camel = convert "__HTTPServer2-x" .camel := by
  have ascii : ∀ c ∈ "__HTTPServer2-x".toList, IsAscii c := isAscii_of_all (by decide)
  obtain ⟨-, -, hstyles⟩ := splitWords_lossless ascii
  obtain ⟨hwords, hconvert⟩ := hstyles .kebab (.inr rfl)
  exact ⟨ascii, by decide, hwords, hconvert .camel⟩

end Naming

end HouseStyle
