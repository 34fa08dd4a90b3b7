import HouseStyle.Path
import Mathlib.Data.List.Chain
import Mathlib.Data.List.DropRight
import Mathlib.Data.List.Infix

/-!
# Normal forms of paths

A normalized path has single separators, does not begin with `./` and ends with no separator
unless it is one. Its blanks are those that the first trim did not reach, so that normalizing
once more changes exactly the paths with a blank at an end. Two accepted paths have the same normal
form exactly when they lead through the same names.
-/

namespace HouseStyle

namespace Text

variable {s : List Char}

lemma dropEndWhile_eq {α : Type} (p : α → Bool) (s : List α) :
    dropEndWhile p s = s.rdropWhile p := rfl

lemma trim_isInfix (s : List Char) : trim s <:+: s :=
  (List.rdropWhile_prefix isBlank (s.dropWhile isBlank)).isInfix.trans
    (List.dropWhile_suffix isBlank).isInfix

/-- No blank at either end. -/
def Flush (s : List Char) : Prop :=
  (∀ c ∈ s.head?, isBlank c = false) ∧ ∀ c ∈ s.getLast?, isBlank c = false

lemma trimStart_eq_self : trimStart s = s ↔ ∀ c ∈ s.head?, isBlank c = false := by
  cases s with
  | nil => simp [trimStart]
  | cons c s => simp [trimStart, List.dropWhile_eq_self_iff]

lemma trimEnd_eq_self : trimEnd s = s ↔ ∀ c ∈ s.getLast?, isBlank c = false := by
  rw [trimEnd, dropEndWhile_eq, List.rdropWhile_eq_self_iff]
  constructor
  · intro h c hc
    obtain ⟨hne, rfl⟩ := List.mem_getLast?_eq_getLast hc
    exact Bool.eq_false_iff.mpr (h hne)
  · exact fun h hne => Bool.eq_false_iff.mp (h _ (List.getLast_mem_getLast? hne))

lemma trim_eq_self : trim s = s ↔ Flush s := by
  rw [Flush, ← trimStart_eq_self, ← trimEnd_eq_self]
  constructor
  · intro htrim
    have hstart : trimStart s = s := by
      refine (List.dropWhile_suffix isBlank).sublist.eq_of_length_le ?_
      conv_lhs => rw [← htrim]
      exact (List.rdropWhile_prefix isBlank (trimStart s)).length_le
    rw [trim, hstart] at htrim
    exact ⟨hstart, htrim⟩
  · rintro ⟨hstart, hend⟩
    rw [trim, hstart, hend]

end Text

namespace Path

open HouseStyle.Text

variable {s n : List Char}

/-! ## Separators -/

/-- No two separators next to each other. -/
def Single (s : List Char) : Prop := s.IsChain fun a b => ¬ (a = '/' ∧ b = '/')

lemma collapse_cons (c : Char) (s : List Char) : collapse (c :: s) = consOnce c (collapse s) := rfl

lemma single_consOnce (c : Char) (single : Single s) : Single (consOnce c s) := by
  unfold consOnce
  split
  · exact single
  · next hnot =>
    refine List.isChain_cons.mpr ⟨fun d hd => ?_, single⟩
    rintro ⟨rfl, rfl⟩
    exact hnot ⟨rfl, hd⟩

lemma single_collapse (s : List Char) : Single (collapse s) := by
  induction s with
  | nil => exact .nil
  | cons c s ih => exact single_consOnce c ih

lemma Single.collapse_eq (single : Single s) : collapse s = s := by
  induction s with
  | nil => rfl
  | cons c s ih =>
    obtain ⟨hhead, hrest⟩ := List.isChain_cons.mp single
    rw [collapse_cons, ih hrest, consOnce, if_neg]
    rintro ⟨rfl, hslash⟩
    exact hhead '/' hslash ⟨rfl, rfl⟩

lemma collapse_sublist (s : List Char) : (collapse s).Sublist s := by
  induction s with
  | nil => exact .slnil
  | cons c s ih =>
    rw [collapse_cons, consOnce]
    split
    · exact ih.cons c
    · exact ih.cons_cons c

/-! ## The beginning and the end -/

lemma dropHere_suffix (s : List Char) : dropHere s <:+ s := by
  fun_induction dropHere s with
  | case1 rest ih => exact ih.trans (List.suffix_append ['.', '/'] rest)
  | case2 s _ => exact List.suffix_refl s

lemma dropHere_opens (s : List Char) : ¬ ['.', '/'] <+: dropHere s := by
  fun_induction dropHere s with
  | case1 rest ih => exact ih
  | case2 s hnot =>
    rintro ⟨rest, rfl⟩
    exact hnot rest rfl

lemma dropHere_eq (h : ¬ ['.', '/'] <+: s) : dropHere s = s := by
  fun_induction dropHere s with
  | case1 rest _ => exact absurd (List.prefix_append ['.', '/'] rest) h
  | case2 s _ => rfl

/-- A separator at the end is the whole text. -/
def Closed (s : List Char) : Prop := s.getLast? = some '/' → s = ['/']

/-- Separators at the end go, unless there is nothing else. -/
lemma dropClosing_cases (s : List Char) :
    (∀ c ∈ s, c = '/') ∧ dropClosing s = s.take 1 ∨
      s.rdropWhile (· = '/') ≠ [] ∧ dropClosing s = s.rdropWhile (· = '/') := by
  unfold dropClosing
  rw [dropEndWhile_eq]
  split
  · next hnone =>
    exact .inl ⟨by simpa using List.rdropWhile_eq_nil_iff.mp hnone, rfl⟩
  · next hkept => exact .inr ⟨hkept, rfl⟩

lemma dropClosing_isPrefix (s : List Char) : dropClosing s <+: s := by
  rcases dropClosing_cases s with ⟨-, hdrop⟩ | ⟨-, hdrop⟩
  · exact hdrop ▸ List.take_prefix 1 s
  · exact hdrop ▸ List.rdropWhile_prefix _ s

lemma closed_dropClosing (s : List Char) : Closed (dropClosing s) := by
  intro hlast
  rcases dropClosing_cases s with ⟨hall, hdrop⟩ | ⟨hkept, hdrop⟩
  · cases s with
    | nil => cases hlast
    | cons c s => rw [hdrop, hall c (by simp)]; rfl
  · have hnot := List.rdropWhile_last_not (· = '/') s hkept
    rw [hdrop, List.getLast?_eq_some_getLast hkept] at hlast
    exact absurd (by simp [Option.some.inj hlast]) hnot

lemma Closed.dropClosing_eq (closed : Closed s) : dropClosing s = s := by
  rcases dropClosing_cases s with ⟨hall, hdrop⟩ | ⟨hkept, hdrop⟩
  · rw [hdrop]
    cases hlast : s.getLast? with
    | none => rw [List.getLast?_eq_none_iff.mp hlast]; rfl
    | some c =>
      obtain rfl := hall c (List.mem_of_getLast? hlast)
      rw [closed hlast]
      rfl
  · rw [hdrop, List.rdropWhile_eq_self_iff]
    intro hne hslash
    have hlast : s.getLast? = some '/' := by
      rw [List.getLast?_eq_some_getLast hne, of_decide_eq_true hslash]
    rw [closed hlast] at hkept
    exact hkept rfl

/-! ## Normal forms -/

/-- A text that only its blanks could keep from being a normal form. -/
structure Normal (s : List Char) : Prop where
  single : Single s
  opens : ¬ ['.', '/'] <+: s
  closed : Closed s
  forward : '\\' ∉ s

/-- The text that a path is normalized from: no blanks around it, and every separator a slash. -/
def slashed (s : List Char) : List Char := (trim s).map forwardSlash

lemma normalizeChars_eq (s : List Char) :
    normalizeChars s = dropClosing (dropHere (collapse (slashed s))) := rfl

lemma normalizeChars_sublist (s : List Char) : (normalizeChars s).Sublist (slashed s) :=
  (dropClosing_isPrefix _).sublist.trans ((dropHere_suffix _).sublist.trans (collapse_sublist _))

lemma forward_slashed (s : List Char) : '\\' ∉ slashed s := by
  intro h
  obtain ⟨c, -, hc⟩ := List.mem_map.mp h
  unfold forwardSlash at hc
  split at hc
  · cases hc
  · next hnot => exact hnot hc

theorem normal_normalizeChars (s : List Char) : Normal (normalizeChars s) where
  single := by
    have hopened : Single (dropHere (collapse (slashed s))) :=
      (single_collapse _).suffix (dropHere_suffix _)
    obtain ⟨closing, hclosing⟩ := dropClosing_isPrefix (dropHere (collapse (slashed s)))
    rw [← hclosing] at hopened
    exact hopened.left_of_append
  opens h := dropHere_opens _ (h.trans (dropClosing_isPrefix _))
  closed := closed_dropClosing _
  forward h := forward_slashed s ((normalizeChars_sublist s).subset h)

lemma Normal.slashed_eq (normal : Normal s) (flush : Flush s) : slashed s = s := by
  rw [slashed, trim_eq_self.mpr flush]
  refine (List.map_congr_left fun c hc => if_neg ?_).trans (List.map_id s)
  rintro rfl
  exact normal.forward hc

/-- A normal form without blanks around it is left alone. -/
theorem Normal.normalizeChars_eq (normal : Normal s) (flush : Flush s) : normalizeChars s = s := by
  rw [Path.normalizeChars_eq, normal.slashed_eq flush, normal.single.collapse_eq,
    dropHere_eq normal.opens, normal.closed.dropClosing_eq]

/-- Normalizing a second time changes nothing exactly when no blank is left at an end. -/
theorem normalizeChars_idem (s : List Char) :
    normalizeChars (normalizeChars s) = normalizeChars s ↔ Flush (normalizeChars s) := by
  refine ⟨fun h => ?_, (normal_normalizeChars s).normalizeChars_eq⟩
  refine trim_eq_self.mp ((trim_isInfix _).sublist.eq_of_length_le ?_)
  conv_lhs => rw [← h]
  exact (normalizeChars_sublist _).length_le.trans (List.length_map _).le

/-! ## Segments -/

lemma segments_slash (s : List Char) : segments ('/' :: s) = [] :: segments s := rfl

lemma segments_cons {c : Char} (hc : c ≠ '/') (s : List Char) :
    ∃ first others, segments s = first :: others ∧
      segments (c :: s) = (c :: first) :: others := by
  obtain ⟨first, others, hs⟩ := List.exists_cons_of_ne_nil (splitAt_ne_nil '/' s)
  refine ⟨first, others, hs, ?_⟩
  simp [segments, splitAt_cons, splitStep, hc, hs]

lemma segments_concat (s : List Char) : segments (s ++ ['/']) = segments s ++ [[]] := by
  induction s with
  | nil => rfl
  | cons c s ih =>
    by_cases hc : c = '/'
    · rw [hc, List.cons_append, segments_slash, segments_slash, ih, List.cons_append]
    · obtain ⟨first, others, hs, hcs⟩ := segments_cons hc s
      obtain ⟨first', others', hs', hcs'⟩ := segments_cons hc (s ++ ['/'])
      rw [ih, hs, List.cons_append, List.cons.injEq] at hs'
      rw [List.cons_append, hcs', hcs, ← hs'.1, ← hs'.2, List.cons_append]

/-- The segments that are names. -/
def names (s : List Char) : List (List Char) := (segments s).filter (· ≠ [])

/-- Collapsing keeps the first segment and all names. -/
lemma segments_collapse (s : List Char) :
    (segments (collapse s)).head? = (segments s).head? ∧ names (collapse s) = names s := by
  induction s with
  | nil => exact ⟨rfl, rfl⟩
  | cons c s ih =>
    obtain ⟨hhead, hnames⟩ := ih
    rw [collapse_cons, consOnce]
    split
    · next hslash =>
      obtain ⟨rfl, hslash⟩ := hslash
      obtain ⟨rest, hrest⟩ : ∃ rest, collapse s = '/' :: rest :=
        List.head?_eq_some_iff.mp hslash
      refine ⟨?_, hnames⟩
      rw [hrest]
      rfl
    · by_cases hc : c = '/'
      · rw [hc]
        exact ⟨rfl, hnames⟩
      · obtain ⟨first, others, hs, hcs⟩ := segments_cons hc s
        obtain ⟨first', others', hs', hcs'⟩ := segments_cons hc (collapse s)
        rw [hs, hs'] at hhead
        obtain rfl : first = first' := (Option.some.inj hhead).symm
        rw [names, names, hs, hs'] at hnames
        rw [names, names, hcs, hcs']
        refine ⟨rfl, ?_⟩
        by_cases hfirst : first = [] <;> simpa [List.filter_cons, hfirst] using hnames

lemma names_concat (s : List Char) : names (s ++ ['/']) = names s := by
  simp [names, segments_concat]

lemma names_rdropWhile (s : List Char) : names (s.rdropWhile (· = '/')) = names s := by
  induction s using List.reverseRecOn with
  | nil => rfl
  | append_singleton s c ih =>
    by_cases hc : c = '/'
    · rw [List.rdropWhile_concat_pos _ _ _ (by simpa using hc), ih, hc, names_concat]
    · rw [List.rdropWhile_concat_neg _ _ _ (by simpa using hc)]

lemma names_dropClosing (s : List Char) : names (dropClosing s) = names s := by
  rcases dropClosing_cases s with ⟨hall, hdrop⟩ | ⟨-, hdrop⟩
  · rw [hdrop, ← names_rdropWhile s, List.rdropWhile_eq_nil_iff.mpr (by simpa using hall)]
    cases s with
    | nil => rfl
    | cons c s =>
      rw [hall c (by simp)]
      rfl
  · rw [hdrop, names_rdropWhile]

/-- The name of the directory that a path starts from. -/
def here : List Char := ['.']

/-- The names from the first one on that leads anywhere. -/
def route (s : List Char) : List (List Char) := (names s).dropWhile (· = here)

lemma route_dropHere (s : List Char) : route (dropHere s) = route s := by
  fun_induction dropHere s with
  | case1 rest ih =>
    have hnames : names ('.' :: '/' :: rest) = here :: names rest := rfl
    rw [ih, route, route, hnames, List.dropWhile_cons_of_pos (by simp)]
  | case2 s _ => rfl

theorem route_normalizeChars (s : List Char) : route (normalizeChars s) = route (slashed s) := by
  rw [normalizeChars_eq, route, names_dropClosing, ← route, route_dropHere, route,
    (segments_collapse _).2, ← route]

/-! ## Accepted paths -/

lemma nil_notMem_tail (single : Single s) (hlast : s.getLast? ≠ some '/') :
    [] ∉ (segments s).tail := by
  induction s with
  | nil => simp [segments, splitAt]
  | cons c s ih =>
    obtain ⟨hhead, hrest⟩ := List.isChain_cons.mp single
    cases s with
    | nil =>
      have hc : c ≠ '/' := by simpa using hlast
      obtain ⟨first, others, hs, hcs⟩ := segments_cons hc []
      cases hs
      simp [hcs]
    | cons d s =>
      have htail := ih hrest (by rwa [List.getLast?_cons_cons] at hlast)
      by_cases hc : c = '/'
      · -- behind a separator stands a character that is none
        have hd : d ≠ '/' := fun hd => hhead d rfl ⟨hc, hd⟩
        obtain ⟨first, others, -, hds⟩ := segments_cons hd s
        rw [hds] at htail
        rw [hc, segments_slash, hds]
        simpa using htail
      · obtain ⟨first, others, hs, hcs⟩ := segments_cons hc (d :: s)
        rw [hs] at htail
        rw [hcs]
        exact htail

lemma problemChars?_eq_none : problemChars? s = none ↔
    s ≠ [] ∧ s.head? ≠ some '/' ∧ s[1]? ≠ some ':' ∧ ['.', '.'] ∉ segments s := by
  unfold problemChars?
  split_ifs with hnil hopen hup
  · simp [hnil]
  · rcases hopen with hopen | hopen <;> simp [hopen]
  · simp [hup]
  · simpa [not_or, hnil, hup] using hopen

/-- An accepted normal form has no empty segment. -/
lemma Normal.nil_notMem_segments (normal : Normal s) (accepted : problemChars? s = none) :
    [] ∉ segments s := by
  obtain ⟨hne, hopen, -, -⟩ := problemChars?_eq_none.mp accepted
  have hlast : s.getLast? ≠ some '/' := by
    intro hlast
    rw [normal.closed hlast] at hopen
    exact hopen rfl
  have htail := nil_notMem_tail normal.single hlast
  obtain ⟨c, s, rfl⟩ := List.exists_cons_of_ne_nil hne
  have hc : c ≠ '/' := by simpa using hopen
  obtain ⟨first, others, -, hcs⟩ := segments_cons hc s
  rw [hcs] at htail ⊢
  simpa using htail

/-- An accepted normal form is made of its route, and is a lone dot if it leads nowhere. -/
lemma Normal.eq_route (normal : Normal s) (accepted : problemChars? s = none) :
    s = if route s = [] then here else joinWith ['/'] (route s) := by
  have hnames : names s = segments s :=
    List.filter_eq_self.mpr fun name hname =>
      by simpa using ne_of_mem_of_not_mem hname (normal.nil_notMem_segments accepted)
  have hjoin : joinWith ['/'] (segments s) = s := joinWith_splitAt '/' s
  obtain ⟨first, others, hs⟩ := List.exists_cons_of_ne_nil (splitAt_ne_nil '/' s)
  rw [route, hnames]
  rw [segments, hs] at hjoin ⊢
  by_cases hfirst : first = here
  · cases others with
    | nil =>
      rw [List.dropWhile_cons_of_pos (by simpa using hfirst), List.dropWhile_nil, if_pos rfl,
        ← hfirst]
      exact hjoin.symm
    | cons second others =>
      rw [hfirst] at hjoin
      exact absurd ⟨_, hjoin⟩ normal.opens
  · rw [List.dropWhile_cons_of_neg (by simpa using hfirst), if_neg (by simp), hjoin]

/-- Accepted paths have one key if, and only if, they have one route. -/
theorem normalizeChars_inj {t : List Char} (hs : problemChars? (normalizeChars s) = none)
    (ht : problemChars? (normalizeChars t) = none) :
    normalizeChars s = normalizeChars t ↔ route (slashed s) = route (slashed t) := by
  constructor
  · intro h
    rw [← route_normalizeChars, h, route_normalizeChars]
  · intro h
    rw [(normal_normalizeChars s).eq_route hs, (normal_normalizeChars t).eq_route ht,
      route_normalizeChars, route_normalizeChars, h]

end Path

end HouseStyle
