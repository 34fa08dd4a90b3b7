import HouseStyle.Compliance.Fix
import HouseStyle.Proofs.Naming.Words
import Mathlib.Data.List.DropRight

/-!
# Renamed as suggested

A name that is converted to a style shows that style or, as one word, none. Pascal case is the
exception: where no word has a lower case letter behind its first character, as in `a_b`, the words
written together are all capitals and show the style of constants. So the fix that is suggested for
such a name breaks the rule that it was suggested for.
-/

namespace HouseStyle.Naming

open HouseStyle.Text

variable {s front body : List Char} {first : Char} {rest : List Char} {ws : List (List Char)}
variable {style shown : CaseStyle}

/-! ## The core of a name -/

/-- Underscores around a text that neither begins nor ends like that are taken off. -/
lemma core_append (hfront : ∀ c ∈ front, c = '_') (hbody : body = first :: rest)
    (hfirst : first ≠ '_' ∧ first ≠ '$') (hlast : body.getLast? ≠ some '_') :
    core (front ++ body) = body := by
  have hstart : (front ++ body).dropWhile (fun c => c = '_' || c = '$') = body := by
    rw [List.dropWhile_append_of_pos fun c hc => by simp [hfront c hc], hbody,
      List.dropWhile_cons_of_neg (by simpa using hfirst)]
  rw [core, hstart]
  refine List.rdropWhile_eq_self_iff.mpr fun hne hlow => hlast ?_
  rw [List.getLast?_eq_some_getLast hne, of_decide_eq_true hlow]

/-- The word that was begun goes on. -/
lemma wordsFrom_cons (c : Char) (current : List Char) (previous : Char) (s : List Char) :
    ∃ w ws, wordsFrom (c :: current) previous s = (c :: w) :: ws := by
  induction s generalizing current previous with
  | nil => exact ⟨current, [], rfl⟩
  | cons d s ih =>
    rw [wordsFrom]
    split
    · exact ⟨current, _, rfl⟩
    · split
      · exact ⟨current, _, rfl⟩
      · exact ih (current ++ lowerOf d) d

/-- A name whose core begins with a letter has a first word that does so. -/
lemma words_of_core (ascii : ∀ c ∈ s, IsAscii c) (hcore : core s = first :: rest)
    (letter : isAlphabetic first = true) :
    ∃ initial w ws, words s = (initial :: w) :: ws ∧ isLower initial = true := by
  obtain ⟨closing, hclosing⟩ : first :: rest <+: s.dropWhile fun c => c = '_' || c = '$' := by
    rw [← hcore]
    exact List.rdropWhile_prefix _ _
  have hs := List.takeWhile_append_dropWhile (p := fun c => c = '_' || c = '$') (l := s)
  rw [← hclosing] at hs
  have hascii : IsAscii first := ascii first (by rw [← hs]; simp)
  have hseparators : ∀ c ∈ s.takeWhile fun c => c = '_' || c = '$', isSeparator c = true := by
    intro c hc
    have hc := List.mem_takeWhile_imp hc
    rw [Bool.or_eq_true, decide_eq_true_eq, decide_eq_true_eq] at hc
    rcases hc with rfl | rfl <;> rfl
  obtain ⟨joint, lower⟩ := hascii.forall
    (P := fun c => isAlphabetic c = true → isSeparator c = false ∧ isLower c.toLower = true)
    (by decide) letter
  obtain ⟨w, ws, hwords⟩ := wordsFrom_cons first.toLower [] first (rest ++ closing)
  refine ⟨first.toLower, w, ws, ?_, lower⟩
  rw [← hs, words_append hseparators, List.cons_append, words, wordsFrom, joint,
    hascii.lowerOf]
  simpa using hwords

/-- Only a name whose core begins with a letter shows a style. -/
lemma core_of_classifyChars? (h : classifyChars? s = some shown) :
    ∃ first rest, core s = first :: rest ∧ isAlphabetic first = true := by
  cases hcore : core s with
  | nil => simp [classifyChars?, hcore] at h
  | cons first rest =>
    refine ⟨first, rest, rfl, ?_⟩
    by_contra hletter
    simp [classifyChars?, hcore, hletter] at h

/-! ## How a style is written -/

/-- How the first letter of a name is written in a style. -/
def opensWith (style : CaseStyle) (c : Char) : Bool :=
  match style with
  | .camel | .snake | .kebab => isLower c
  | .pascal | .screamingSnake => isUpper c

/-- What may stand in a name of a style. -/
def permits (style : CaseStyle) (c : Char) : Prop :=
  match style with
  | .camel | .pascal => c ≠ '-' ∧ c ≠ '_'
  | .snake => c ≠ '-' ∧ isUpper c = false
  | .screamingSnake => c ≠ '-' ∧ isLower c = false
  | .kebab => c ≠ '_' ∧ isUpper c = false

/-- What a name looks like that is written in a style. -/
structure Written (style : CaseStyle) (body : List Char) : Prop where
  opens : ∃ first rest, body = first :: rest ∧ IsAscii first ∧ opensWith style first = true
  closes : body.getLast? ≠ some '_'
  within : ∀ c ∈ body, permits style c

/-- A name shows a style or none. -/
def Conforms (style : CaseStyle) (s : List Char) : Prop :=
  classifyChars? s = some style ∨ classifyChars? s = none

lemma isAlphabetic_of_letter {c : Char} (hc : IsAscii c)
    (h : isLower c = true ∨ isUpper c = true) : isAlphabetic c = true :=
  hc.forall (P := fun c => isLower c = true ∨ isUpper c = true → isAlphabetic c = true)
    (by decide) h

lemma isLower_of_isUpper {c : Char} (hc : IsAscii c) (h : isUpper c = true) :
    isLower c = false :=
  hc.forall (P := fun c => isUpper c = true → isLower c = false) (by decide) h

lemma contains_eq_false {d : Char} (h : ∀ c ∈ body, c ≠ d) : body.contains d = false := by
  simpa using fun hd => h d hd rfl

/-- Only a text with a hyphen or an underscore has the style of joined words. -/
lemma classifyChars?_joint (hcore : core s = first :: rest) (letter : isAlphabetic first = true)
    (joint : ∀ c ∈ first :: rest, c ≠ '-' ∧ c ≠ '_') :
    classifyChars? s =
      if isLower first then if (first :: rest).any isUpper then some .camel else none
      else if (first :: rest).any isLower then some .pascal
      else if 2 ≤ (first :: rest).length then some .screamingSnake else none := by
  have hdash := contains_eq_false fun c hc => (joint c hc).1
  have hlow := contains_eq_false fun c hc => (joint c hc).2
  simp only [classifyChars?, hcore, letter, hdash, hlow, Bool.not_true, Bool.false_eq_true,
    if_false]

theorem conforms_of_written (hcore : core s = body) (written : Written style body)
    (other : style ≠ .pascal) : Conforms style s := by
  obtain ⟨⟨first, rest, rfl, ascii, opens⟩, -, within⟩ := written
  unfold Conforms
  cases style with
  | camel =>
    have lower : isLower first = true := opens
    rw [classifyChars?_joint hcore (isAlphabetic_of_letter ascii (.inl lower)) within,
      if_pos lower]
    exact ite_eq_or_eq _ _ _
  | pascal => exact absurd rfl other
  | snake =>
    have lower : isLower first = true := opens
    have letter := isAlphabetic_of_letter ascii (.inl lower)
    have hdash := contains_eq_false fun c hc => (within c hc).1
    have hupper := List.any_eq_false.mpr fun c hc => ne_true_of_eq_false (within c hc).2
    have hlower : (first :: rest).any isLower = true :=
      List.any_eq_true.mpr ⟨first, by simp, lower⟩
    simp only [classifyChars?, hcore, letter, hdash, hupper, hlower, lower, Bool.not_true,
      Bool.false_eq_true, if_false, if_true]
    exact ite_eq_or_eq _ _ _
  | screamingSnake =>
    have letter := isAlphabetic_of_letter ascii (.inr opens)
    have hdash := contains_eq_false fun c hc => (within c hc).1
    have hupper : (first :: rest).any isUpper = true :=
      List.any_eq_true.mpr ⟨first, by simp, opens⟩
    have hlower := List.any_eq_false.mpr fun c hc => ne_true_of_eq_false (within c hc).2
    have hfirst : isLower first = false := isLower_of_isUpper ascii opens
    simp only [classifyChars?, hcore, letter, hdash, hupper, hlower, hfirst, Bool.not_true,
      Bool.false_eq_true, if_false]
    split
    · exact .inl rfl
    · exact ite_eq_or_eq _ _ _
  | kebab =>
    have lower : isLower first = true := opens
    have letter := isAlphabetic_of_letter ascii (.inl lower)
    have hlow := contains_eq_false fun c hc => (within c hc).1
    have hupper := List.any_eq_false.mpr fun c hc => ne_true_of_eq_false (within c hc).2
    simp only [classifyChars?, hcore, letter, hlow, hupper, lower, Bool.not_true,
      Bool.false_eq_true, if_false, if_true]
    split
    · exact ite_eq_or_eq _ _ _
    · exact .inr rfl

/-- In Pascal case a text shows its style by its small letters. -/
theorem classifyChars?_pascal (hcore : core s = body) (written : Written .pascal body) :
    classifyChars? s =
      if body.any isLower then some .pascal
      else if 2 ≤ body.length then some .screamingSnake else none := by
  obtain ⟨⟨first, rest, rfl, ascii, opens⟩, -, within⟩ := written
  rw [classifyChars?_joint hcore (isAlphabetic_of_letter ascii (.inr opens)) within,
    if_neg (by simp [isLower_of_isUpper ascii opens])]

/-! ## Words as a style writes them -/

lemma InWord.joint_ne {c : Char} (hc : InWord c) : c ≠ '-' ∧ c ≠ '_' := by
  constructor <;> rintro rfl <;> exact absurd hc.joint (by decide)

/-- The upper case of a character of a word is as much a part of it. -/
lemma InWord.toUpper {c : Char} (hc : InWord c) :
    c.toUpper ≠ '-' ∧ c.toUpper ≠ '_' ∧ isLower c.toUpper = false :=
  hc.ascii.forall
    (P := fun c => InWord c → c.toUpper ≠ '-' ∧ c.toUpper ≠ '_' ∧ isLower c.toUpper = false)
    (by decide) hc

lemma isUpper_toUpper {c : Char} (hc : IsAscii c) (lower : isLower c = true) :
    IsAscii c.toUpper ∧ isUpper c.toUpper = true :=
  hc.forall (P := fun c => isLower c = true → IsAscii c.toUpper ∧ isUpper c.toUpper = true)
    (by decide) lower

lemma inWord_of_mem (hws : ∀ w ∈ ws, IsWord w) {c : Char} (hc : c ∈ ws.flatten) : InWord c := by
  obtain ⟨w, hw, hc⟩ := List.mem_flatten.mp hc
  exact (hws w hw).2 c hc

lemma upper_eq (ascii : ∀ c ∈ s, IsAscii c) : upper s = s.map Char.toUpper := by
  rw [upper, List.map_eq_flatMap]
  exact List.flatMap_congr fun c hc => (ascii c hc).upperOf

lemma mem_joinWith {separator c : Char} (h : c ∈ joinWith [separator] ws) :
    c = separator ∨ c ∈ ws.flatten := by
  induction ws with
  | nil => exact .inr h
  | cons w ws ih =>
    cases ws with
    | nil => exact .inr (by simpa [joinWith] using h)
    | cons second others =>
      change c ∈ w ++ [separator] ++ joinWith [separator] (second :: others) at h
      rw [List.append_assoc, List.mem_append, List.cons_append, List.mem_cons] at h
      rw [List.flatten_cons, List.mem_append]
      rcases h with h | h | h
      · exact .inr (.inl h)
      · exact .inl h
      · exact (ih h).imp_right .inr

/-- Joined words end as the last of them does. -/
lemma getLast?_joinWith (separator : List Char) (hws : ∀ w ∈ ws, w ≠ []) :
    (joinWith separator ws).getLast? = ws.flatten.getLast? := by
  induction ws with
  | nil => rfl
  | cons w ws ih =>
    obtain ⟨-, hws⟩ := List.forall_mem_cons.mp hws
    cases ws with
    | nil => simp [joinWith]
    | cons second others =>
      have hsome : (second :: others).flatten ≠ [] := by
        simpa using fun h => absurd h (hws second (by simp))
      have hjoined : joinWith separator (second :: others) ≠ [] := by
        intro h
        have hlast := ih hws
        rw [h, List.getLast?_nil, eq_comm, List.getLast?_eq_none_iff] at hlast
        exact hsome hlast
      change (w ++ separator ++ joinWith separator (second :: others)).getLast? =
        (w ++ (second :: others).flatten).getLast?
      rw [List.getLast?_append_of_ne_nil _ hjoined, List.getLast?_append_of_ne_nil _ hsome, ih hws]

lemma capitalize_cons {c : Char} {w : List Char} (hc : IsAscii c) :
    capitalize (c :: w) = c.toUpper :: w := by
  rw [capitalize, hc.upperOf]
  rfl

/-- Capitalizing changes the case of characters and nothing else. -/
lemma mem_flatMap_capitalize (hws : ∀ w ∈ ws, IsWord w) {d : Char}
    (hd : d ∈ ws.flatMap capitalize) : ∃ c ∈ ws.flatten, d = c ∨ d = c.toUpper := by
  obtain ⟨w, hmem, hd⟩ := List.mem_flatMap.mp hd
  have hin : ∀ c ∈ w, c ∈ ws.flatten := fun c hc => List.mem_flatten.mpr ⟨w, hmem, hc⟩
  obtain ⟨c, w, rfl⟩ := List.exists_cons_of_ne_nil (hws w hmem).1
  rw [capitalize_cons ((hws _ hmem).2 c (by simp)).ascii] at hd
  rcases List.mem_cons.mp hd with rfl | hd
  · exact ⟨c, hin c (by simp), .inr rfl⟩
  · exact ⟨d, hin d (by simp [hd]), .inl rfl⟩

lemma joint_of_mem_capitalize (hws : ∀ w ∈ ws, IsWord w) {d : Char}
    (hd : d ∈ ws.flatMap capitalize) : d ≠ '-' ∧ d ≠ '_' := by
  obtain ⟨c, hc, hd⟩ := mem_flatMap_capitalize hws hd
  have hc := inWord_of_mem hws hc
  rcases hd with rfl | rfl
  · exact hc.joint_ne
  · exact ⟨hc.toUpper.1, hc.toUpper.2.1⟩

lemma getLast?_ne (h : ∀ c ∈ body, c ≠ '_') : body.getLast? ≠ some '_' :=
  fun hlast => h '_' (List.mem_of_getLast? hlast) rfl

/-- Words of which the first begins with a letter, as a style writes them. -/
theorem written_joinWords {initial : Char} {w : List Char} {others : List (List Char)}
    (hws : ∀ v ∈ (initial :: w) :: others, IsWord v) (letter : isLower initial = true)
    (style : CaseStyle) : Written style (joinWords style ((initial :: w) :: others)) := by
  obtain ⟨hfirst, hothers⟩ := List.forall_mem_cons.mp hws
  have hinitial : InWord initial := hfirst.2 initial (by simp)
  have hin : ∀ c ∈ ((initial :: w) :: others).flatten, InWord c := fun c => inWord_of_mem hws
  have hlast : ∀ separator,
      (joinWith separator ((initial :: w) :: others)).getLast? ≠ some '_' := by
    intro separator
    rw [getLast?_joinWith separator fun v hv => (hws v hv).1]
    exact getLast?_ne fun c hc => (hin c hc).joint_ne.2
  cases style with
  | camel =>
    have hjoint : ∀ c ∈ (initial :: w) ++ others.flatMap capitalize, c ≠ '-' ∧ c ≠ '_' :=
      List.forall_mem_append.mpr
        ⟨fun c hc => (hfirst.2 c hc).joint_ne, fun c => joint_of_mem_capitalize hothers⟩
    exact ⟨⟨initial, _, rfl, hinitial.ascii, letter⟩, getLast?_ne fun c hc => (hjoint c hc).2,
      hjoint⟩
  | pascal =>
    have hjoint : ∀ c ∈ ((initial :: w) :: others).flatMap capitalize, c ≠ '-' ∧ c ≠ '_' :=
      fun c => joint_of_mem_capitalize hws
    refine ⟨⟨initial.toUpper, w ++ others.flatMap capitalize, ?_,
      isUpper_toUpper hinitial.ascii letter⟩, getLast?_ne fun c hc => (hjoint c hc).2, hjoint⟩
    rw [joinWords, List.flatMap_cons, capitalize_cons hinitial.ascii]
    rfl
  | snake =>
    obtain ⟨rest, hrest⟩ := joinWith_cons ['_'] initial w others
    refine ⟨⟨initial, rest, hrest, hinitial.ascii, letter⟩, hlast _, fun c hc => ?_⟩
    rcases mem_joinWith hc with rfl | hc
    · exact ⟨by decide, rfl⟩
    · exact ⟨(hin c hc).joint_ne.1, (hin c hc).small⟩
  | screamingSnake =>
    obtain ⟨rest, hrest⟩ := joinWith_cons ['_'] initial w others
    have hascii : ∀ c ∈ joinWith ['_'] ((initial :: w) :: others), IsAscii c := by
      intro c hc
      rcases mem_joinWith hc with rfl | hc
      · decide
      · exact (hin c hc).ascii
    have hupper : joinWords .screamingSnake ((initial :: w) :: others) =
        (joinWith ['_'] ((initial :: w) :: others)).map Char.toUpper := upper_eq hascii
    rw [hupper]
    refine ⟨⟨initial.toUpper, rest.map Char.toUpper, by rw [hrest, List.map_cons],
      isUpper_toUpper hinitial.ascii letter⟩, ?_, fun c hc => ?_⟩
    · rw [List.getLast?_map, getLast?_joinWith ['_'] fun v hv => (hws v hv).1]
      intro h
      obtain ⟨c, hc, hupper⟩ := Option.map_eq_some_iff.mp h
      exact (hin c (List.mem_of_getLast? hc)).toUpper.2.1 hupper
    · obtain ⟨d, hd, rfl⟩ := List.mem_map.mp hc
      rcases mem_joinWith hd with rfl | hd
      · exact ⟨by decide, rfl⟩
      · exact ⟨(hin d hd).toUpper.1, (hin d hd).toUpper.2.2⟩
  | kebab =>
    obtain ⟨rest, hrest⟩ := joinWith_cons ['-'] initial w others
    refine ⟨⟨initial, rest, hrest, hinitial.ascii, letter⟩, hlast _, fun c hc => ?_⟩
    rcases mem_joinWith hc with rfl | hc
    · exact ⟨by decide, rfl⟩
    · exact ⟨(hin c hc).joint_ne.2, (hin c hc).small⟩

/-! ## Converting -/

lemma core_convertChars (ascii : ∀ c ∈ s, IsAscii c) (hcore : core s = first :: rest)
    (letter : isAlphabetic first = true) (style : CaseStyle) :
    core (convertChars s style) = joinWords style (words s) ∧
      Written style (joinWords style (words s)) := by
  obtain ⟨initial, w, ws, hwords, lower⟩ := words_of_core ascii hcore letter
  have written : Written style (joinWords style (words s)) := by
    rw [hwords]
    exact written_joinWords (hwords ▸ isWord_words ascii) lower style
  obtain ⟨c, body, hbody, hc, hopens⟩ := written.opens
  have hjoint : c ≠ '_' ∧ c ≠ '$' := by
    constructor <;> rintro rfl <;> cases style <;> exact absurd hopens (by decide)
  refine ⟨?_, written⟩
  rw [convertChars_of_words hwords, ← hwords]
  exact core_append (fun _ => opening_eq) hbody hjoint written.closes

/-- Words that are written in Pascal case without a small letter, two characters at least. -/
def Abbreviated (ws : List (List Char)) : Prop :=
  2 ≤ ws.flatten.length ∧ ∀ w ∈ ws, ∀ c ∈ w.tail, isLower c = false

instance : DecidablePred Abbreviated := fun ws =>
  inferInstanceAs (Decidable (2 ≤ ws.flatten.length ∧ ∀ w ∈ ws, ∀ c ∈ w.tail, isLower c = false))

/-- The small letters of Pascal case are those behind the first of each word. -/
lemma capitalize_written (hws : ∀ w ∈ ws, IsWord w) :
    (ws.flatMap capitalize).length = ws.flatten.length ∧
      (ws.flatMap capitalize).any isLower = ws.any fun w => w.tail.any isLower := by
  induction ws with
  | nil => exact ⟨rfl, rfl⟩
  | cons v ws ih =>
    obtain ⟨⟨hne, hin⟩, hrest⟩ := List.forall_mem_cons.mp hws
    obtain ⟨c, w, rfl⟩ := List.exists_cons_of_ne_nil hne
    have hc := hin c (by simp)
    obtain ⟨hlength, hany⟩ := ih hrest
    rw [List.flatMap_cons, capitalize_cons hc.ascii]
    constructor
    · rw [List.flatten_cons, List.length_append, List.length_append, hlength]
      rfl
    · rw [List.any_append, List.any_cons, List.any_cons, hany, hc.toUpper.2.2, Bool.false_or]
      rfl

lemma classifyChars?_convertChars_pascal (ascii : ∀ c ∈ s, IsAscii c)
    (hcore : core s = first :: rest) (letter : isAlphabetic first = true) :
    if Abbreviated (words s) then
      classifyChars? (convertChars s .pascal) = some .screamingSnake
    else Conforms .pascal (convertChars s .pascal) := by
  obtain ⟨hconverted, written⟩ := core_convertChars ascii hcore letter .pascal
  obtain ⟨hlength, hany⟩ := capitalize_written (isWord_words ascii)
  have hclass := classifyChars?_pascal hconverted written
  change _ = if ((words s).flatMap capitalize).any isLower then _
    else if 2 ≤ ((words s).flatMap capitalize).length then _ else _ at hclass
  rw [hlength, hany] at hclass
  split
  · next short =>
    have hnone : ((words s).any fun w => w.tail.any isLower) = false := by
      simpa using short.2
    rw [hclass, hnone, if_neg Bool.false_ne_true, if_pos short.1]
  · next long =>
    by_cases hsome : ((words s).any fun w => w.tail.any isLower) = true
    · exact .inl (by rw [hclass, if_pos hsome])
    · have hshort : ¬ 2 ≤ (words s).flatten.length := by
        intro hlength
        refine long ⟨hlength, ?_⟩
        simpa using hsome
      exact .inr (by rw [hclass, if_neg hsome, if_neg hshort])

/-- The style that words show when they are written in a style: the style itself, or that of
constants where Pascal case leaves nothing but capitals. -/
def shownAs (ws : List (List Char)) (style : CaseStyle) : CaseStyle :=
  if style = .pascal ∧ Abbreviated ws then .screamingSnake else style

theorem conforms_convertChars (ascii : ∀ c ∈ s, IsAscii c) (h : classifyChars? s = some shown)
    (style : CaseStyle) :
    classifyChars? (convertChars s style) = some (shownAs (words s) style) ∨
      shownAs (words s) style = style ∧ classifyChars? (convertChars s style) = none := by
  obtain ⟨first, rest, hcore, letter⟩ := core_of_classifyChars? h
  rw [shownAs]
  by_cases hpascal : style = .pascal
  · subst hpascal
    have hclass := classifyChars?_convertChars_pascal ascii hcore letter
    split at hclass
    · next short => exact .inl (by rw [if_pos ⟨rfl, short⟩, hclass])
    · next long =>
      rw [if_neg fun h => long h.2]
      exact hclass.imp_right fun hnone => ⟨rfl, hnone⟩
  · obtain ⟨hconverted, written⟩ := core_convertChars ascii hcore letter style
    rw [if_neg fun h => hpascal h.1]
    exact (conforms_of_written hconverted written hpascal).imp_right fun hnone => ⟨rfl, hnone⟩

/-! ## Stems of files -/

lemma mem_joinWords (hws : ∀ w ∈ ws, IsWord w) {d : Char} (hd : d ∈ joinWords style ws) :
    d = '_' ∨ d = '-' ∨ ∃ c ∈ ws.flatten, d = c ∨ d = c.toUpper := by
  cases style with
  | camel =>
    cases ws with
    | nil => cases hd
    | cons w others =>
      obtain ⟨-, hothers⟩ := List.forall_mem_cons.mp hws
      rw [List.flatten_cons]
      rcases List.mem_append.mp hd with hd | hd
      · exact .inr (.inr ⟨d, List.mem_append_left _ hd, .inl rfl⟩)
      · obtain ⟨c, hc, hd⟩ := mem_flatMap_capitalize hothers hd
        exact .inr (.inr ⟨c, List.mem_append_right _ hc, hd⟩)
  | pascal => exact .inr (.inr (mem_flatMap_capitalize hws hd))
  | snake =>
    rcases mem_joinWith hd with hd | hd
    · exact .inl hd
    · exact .inr (.inr ⟨d, hd, .inl rfl⟩)
  | screamingSnake =>
    have hascii : ∀ c ∈ joinWith ['_'] ws, IsAscii c := by
      intro c hc
      rcases mem_joinWith hc with rfl | hc
      · decide
      · exact (inWord_of_mem hws hc).ascii
    rw [joinWords, upper_eq hascii] at hd
    obtain ⟨c, hc, rfl⟩ := List.mem_map.mp hd
    rcases mem_joinWith hc with rfl | hc
    · exact .inl rfl
    · exact .inr (.inr ⟨c, hc, .inr rfl⟩)
  | kebab =>
    rcases mem_joinWith hd with hd | hd
    · exact .inr (.inl hd)
    · exact .inr (.inr ⟨d, hd, .inl rfl⟩)

/-- The dot that ends the stem of a file is not moved by a conversion. -/
theorem dot_not_mem_convertChars (ascii : ∀ c ∈ s, IsAscii c) (dotless : '.' ∉ s)
    (style : CaseStyle) : '.' ∉ convertChars s style := by
  cases hwords : words s with
  | nil => rwa [convertChars_of_no_words hwords]
  | cons w ws =>
    rw [convertChars_of_words hwords, ← hwords]
    intro hdot
    rcases List.mem_append.mp hdot with hdot | hdot
    · exact absurd (opening_eq hdot) (by decide)
    · rcases mem_joinWords (isWord_words ascii) hdot with h | h | ⟨c, hc, h⟩
      · exact absurd h (by decide)
      · exact absurd h (by decide)
      · rw [flatten_words ascii] at hc
        obtain ⟨d, hd, rfl⟩ := List.mem_map.mp hc
        have hd := List.mem_of_mem_filter hd
        have hplain := (ascii d hd).forall
          (P := fun d => '.' = d.toLower ∨ '.' = d.toLower.toUpper → '.' = d) (by decide) h
        exact dotless (hplain ▸ hd)

lemma dot_not_mem_takeWhile (s : List Char) : '.' ∉ s.takeWhile (· ≠ '.') := by
  intro hdot
  simpa using List.mem_takeWhile_imp hdot

lemma dot_of_mem_head? (s : List Char) : ∀ c ∈ (s.dropWhile (· ≠ '.')).head?, c = '.' := by
  intro c hc
  have hhead := List.head?_dropWhile_not (· ≠ '.') s
  rw [Option.mem_def.mp hc] at hhead
  simpa using hhead

lemma stem_append {stem rest : List Char} (hstem : '.' ∉ stem) (hrest : ∀ c ∈ rest.head?, c = '.') :
    (stem ++ rest).takeWhile (· ≠ '.') = stem := by
  rw [List.takeWhile_append_of_pos fun c hc => by simpa using ne_of_mem_of_not_mem hc hstem]
  cases rest with
  | nil => simp
  | cons c rest =>
    obtain rfl : c = '.' := hrest c rfl
    simp

/-! ## Fixes -/

lemma content_of_ofNames {lines : List (List Char)} {concept : Concept} {o : Observation}
    (h : o ∈ Observation.ofNames lines [concept]) :
    ∃ style, classify? concept.name = some style ∧
      o.content = .naming concept.kind.namingTarget style := by
  obtain ⟨other, hother, hconcept⟩ := List.mem_filterMap.mp h
  obtain rfl := List.mem_singleton.mp hother
  dsimp only at hconcept
  split at hconcept
  · obtain ⟨style, hstyle, rfl⟩ := Option.map_eq_some_iff.mp hconcept
    exact ⟨style, hstyle, rfl⟩
  · cases hconcept

/-- The stem of the file of a path. -/
def stem (path : String) : List Char := (Path.fileName path).toList.takeWhile (· ≠ '.')

lemma of_mem_ofFileName {path : String} {o : Observation} (h : o ∈ Observation.ofFileName path) :
    ∃ style, classifyChars? (stem path) = some style ∧
      o = ⟨.fileNaming style, 1, Path.fileName path, some (String.ofList (stem path))⟩ := by
  simp only [Observation.ofFileName] at h
  split at h
  · next style hstyle =>
    rw [classify?, String.toList_ofList] at hstyle
    exact ⟨style, hstyle, List.mem_singleton.mp h⟩
  · cases h

lemma suggest?_naming {o : Observation} {subject : String} (hsubject : o.subject = some subject)
    {target : ConceptKind} {fix : SuggestedFix}
    (h : SuggestedFix.suggest? o (.naming target style) = some fix) :
    fix.strategy = .rename ∧ fix.replacement = some (convert subject style) := by
  rw [SuggestedFix.suggest?, hsubject, Option.bind_some] at h
  dsimp only at h
  split at h
  · cases h
  · obtain rfl := Option.some.inj h
    exact ⟨rfl, rfl⟩

lemma suggest?_fileNaming {o : Observation} {subject : String}
    (hsubject : o.subject = some subject) {fix : SuggestedFix}
    (h : SuggestedFix.suggest? o (.fileNaming style) = some fix) :
    fix.strategy = .renameFile ∧ fix.replacement = some
      (if subject.toList.isPrefixOf o.snippet.toList then
        convert subject style ++ String.ofList (o.snippet.toList.drop subject.toList.length)
      else convert subject style) := by
  rw [SuggestedFix.suggest?, hsubject, Option.bind_some] at h
  dsimp only at h
  split at h
  · cases h
  · obtain rfl := Option.some.inj h
    exact ⟨rfl, rfl⟩

/-- A file that is renamed as suggested has the converted stem. -/
lemma stem_renamed {path : String} {o : Observation} (ascii : ∀ c ∈ stem path, IsAscii c)
    (ho : o ∈ Observation.ofFileName path) {fix : SuggestedFix}
    (hfix : SuggestedFix.suggest? o (.fileNaming style) = some fix) :
    fix.strategy = .renameFile ∧ ∃ file, fix.replacement = some file ∧
      ∀ path', Path.fileName path' = file → stem path' = convertChars (stem path) style := by
  obtain ⟨shown, -, rfl⟩ := of_mem_ofFileName ho
  obtain ⟨hstrategy, hreplacement⟩ := suggest?_fileNaming rfl hfix
  have hsplit : stem path ++ (Path.fileName path).toList.dropWhile (· ≠ '.') =
      (Path.fileName path).toList := List.takeWhile_append_dropWhile
  refine ⟨hstrategy, _, hreplacement, fun path' hpath => ?_⟩
  rw [String.toList_ofList, ← hsplit, List.drop_left,
    if_pos (List.isPrefixOf_iff_prefix.mpr (List.prefix_append _ _))] at hpath
  rw [stem, hpath, String.toList_append, convert, String.toList_ofList, String.toList_ofList,
    String.toList_ofList]
  exact stem_append (dot_not_mem_convertChars ascii (dot_not_mem_takeWhile _) style)
    (dot_of_mem_head? _)

/-- A name that is written in a style as a fix suggests shows that style or none, and so does the
stem of a file. Only where Pascal case leaves nothing but capitals is the style of constants seen,
by the next check as well. -/
theorem suggested_conforms {n : String} (ascii : ∀ c ∈ n.toList, IsAscii c)
    (h : classify? n = some shown) (style : CaseStyle) :
    (classify? (convert n style) = some (shownAs (words n.toList) style) ∨
      shownAs (words n.toList) style = style ∧ classify? (convert n style) = none) ∧
    (∀ target, ∀ o : Observation, o.subject = some n → ∀ fix,
      SuggestedFix.suggest? o (.naming target style) = some fix →
        fix.strategy = .rename ∧ fix.replacement = some (convert n style) ∧
        ∀ lines concept, concept.name = convert n style → concept.kind.namingTarget = target →
          ∀ seen ∈ Observation.ofNames lines [concept],
            seen.content = .naming target (shownAs (words n.toList) style)) ∧
    ∀ path, ∀ o ∈ Observation.ofFileName path, o.subject = some n → ∀ fix,
      SuggestedFix.suggest? o (.fileNaming style) = some fix →
        fix.strategy = .renameFile ∧ ∃ file, fix.replacement = some file ∧
        ∀ path', Path.fileName path' = file →
          ∀ seen ∈ Observation.ofFileName path',
            seen.content = .fileNaming (shownAs (words n.toList) style) := by
  have hconforms := conforms_convertChars ascii h style
  have hshown : ∀ seen, classifyChars? (convertChars n.toList style) = some seen →
      seen = shownAs (words n.toList) style := by
    intro seen hseen
    rcases hconforms with hsome | ⟨-, hnone⟩
    · exact Option.some.inj (hseen.symm.trans hsome)
    · rw [hnone] at hseen
      cases hseen
  refine ⟨?_, ?_, ?_⟩
  · rwa [classify?, convert, String.toList_ofList]
  · intro target o hsubject fix hfix
    obtain ⟨hstrategy, hreplacement⟩ := suggest?_naming hsubject hfix
    refine ⟨hstrategy, hreplacement, fun lines concept hname htarget seen hseen => ?_⟩
    obtain ⟨shown, hclass, hcontent⟩ := content_of_ofNames hseen
    rw [hname, classify?, convert, String.toList_ofList] at hclass
    rw [hcontent, htarget, hshown shown hclass]
  · intro path o ho hsubject fix hfix
    obtain ⟨_, -, heq⟩ := of_mem_ofFileName ho
    have hn : stem path = n.toList := by
      rw [heq] at hsubject
      rw [← Option.some.inj hsubject, String.toList_ofList]
    obtain ⟨hstrategy, file, hreplacement, hstem⟩ := stem_renamed (hn ▸ ascii) ho hfix
    refine ⟨hstrategy, file, hreplacement, fun path' hpath seen hseen => ?_⟩
    obtain ⟨shown, hclass, rfl⟩ := of_mem_ofFileName hseen
    rw [hstem path' hpath, hn] at hclass
    rw [hshown shown hclass]

/-- A variable and a file that are renamed to camel case follow the rule afterwards. -/
theorem sampleUserId_conforms :
    (∀ c ∈ "user_id".toList, IsAscii c) ∧ classify? "user_id" = some .snake ∧
      shownAs (words "user_id".toList) .camel = .camel ∧
      classify? (convert "user_id" .camel) = some .camel ∧
      (SuggestedFix.suggest? ⟨.naming .variable .snake, 3, "user_id = 1", some "user_id"⟩
        (.naming .variable .camel)).bind (·.replacement) = some "userId" ∧
      (Observation.ofFileName "lib/user_id.test.ts").map
        (SuggestedFix.suggest? · (.fileNaming .camel) |>.bind (·.replacement)) =
          [some "userId.test.ts"] ∧
      ∀ seen ∈ Observation.ofFileName "lib/userId.test.ts", seen.content = .fileNaming .camel := by
  have ascii : ∀ c ∈ "user_id".toList, IsAscii c := isAscii_of_all (by decide)
  have shown : classify? "user_id" = some .snake := by decide
  obtain ⟨hclass, -, hfile⟩ := suggested_conforms ascii shown .camel
  obtain ⟨-, file, hreplacement, hconforms⟩ :=
    hfile "lib/user_id.test.ts" ⟨.fileNaming .snake, 1, "user_id.test.ts", some "user_id"⟩
      (by decide) rfl _ rfl
  refine ⟨ascii, shown, by decide, ?_, by decide, by decide, ?_⟩
  · exact hclass.resolve_right fun h => absurd h.2 (by decide)
  · intro seen hseen
    refine hconforms "lib/userId.test.ts" ?_ seen hseen
    exact Option.some.inj ((by decide : _ = some "userId.test.ts").symm.trans hreplacement)

/-- Pascal case makes `AB` of `a_b`, and a function of that name breaks the rule like the one
before. -/
theorem sampleLetters_nonconforming :
    (∀ c ∈ "a_b".toList, IsAscii c) ∧ classify? "a_b" = some .snake ∧
      (SuggestedFix.suggest? ⟨.naming .function .snake, 1, "function a_b() {}", some "a_b"⟩
        (.naming .function .pascal)).bind (·.replacement) = some (convert "a_b" .pascal) ∧
      ¬ (classify? (convert "a_b" .pascal) = some .pascal ∨
        classify? (convert "a_b" .pascal) = none) ∧
      (Observation.ofNames ["function AB() {}".toList] [⟨"AB", .function, 1, 1, 1⟩]).map
        (·.content) = [.naming .function .screamingSnake] :=
  ⟨isAscii_of_all (by decide), by decide, by decide, by decide, rfl⟩

end HouseStyle.Naming
