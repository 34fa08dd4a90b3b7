import HouseStyle.Files
import HouseStyle.Proofs.Path.Normal
import Mathlib.Logic.Function.Iterate

/-!
# Accepted paths stay below their root

A path is normalized in rounds: pairs of slashes are halved until there are none, then every `./`
in front goes, then every slash at the end. Each round shortens the text or begins the next
rewriting, so the rounds come to an end, and the end is the normal form. A normal form without a
problem is made of names alone, and no walk along it leaves the directory that it starts from: what
is read there does not depend on anything outside.
-/

namespace HouseStyle

namespace Path

open HouseStyle.Text

variable {s : List Char}

/-! ## Rounds -/

/-- One pass over a text that writes one slash for every two. -/
def halve : List Char → List Char
  | '/' :: '/' :: rest => '/' :: halve rest
  | c :: rest => c :: halve rest
  | [] => []

/-- A text on its way to the normal form: what is being rewritten, and what it has come to. -/
inductive Rewriting where
  | separators (s : List Char)
  | front (s : List Char)
  | back (s : List Char)
  | settled (s : List Char)

namespace Rewriting

/-- Rewrite once more, or begin with what comes next when there is nothing left to rewrite. -/
def round : Rewriting → Rewriting
  | separators s => if ['/', '/'] <:+: s then separators (halve s) else front s
  | front ('.' :: '/' :: rest) => front rest
  | front s => back s
  | back s => if 1 < s.length ∧ s.getLast? = some '/' then back s.dropLast else settled s
  | settled s => settled s

/-- What the rounds lead to. -/
def goal : Rewriting → List Char
  | separators s => dropClosing (dropHere (collapse s))
  | front s => dropClosing (dropHere s)
  | back s => dropClosing s
  | settled s => s

/-- A bound on the rounds that are left. -/
def rank : Rewriting → Nat
  | separators s => s.length + 3
  | front s => s.length + 2
  | back s => s.length + 1
  | settled _ => 0

end Rewriting

lemma consOnce_consOnce (s : List Char) : consOnce '/' (consOnce '/' s) = consOnce '/' s := by
  by_cases hslash : s.head? = some '/' <;> simp [consOnce, hslash]

lemma collapse_halve (s : List Char) : collapse (halve s) = collapse s := by
  fun_induction halve s with
  | case1 rest ih => simp only [collapse_cons, ih, consOnce_consOnce]
  | case2 c rest _ ih => simp only [collapse_cons, ih]
  | case3 => rfl

lemma length_halve_le (s : List Char) : (halve s).length ≤ s.length := by
  fun_induction halve s with
  | case1 rest ih => simp only [List.length_cons]; omega
  | case2 c rest _ ih => simp only [List.length_cons]; omega
  | case3 => exact Nat.le_refl 0

/-- A pass over a text with a pair of slashes makes it shorter. -/
lemma length_halve_lt (pair : ['/', '/'] <:+: s) : (halve s).length < s.length := by
  fun_induction halve s with
  | case1 rest ih =>
    have := length_halve_le rest
    simp only [List.length_cons]
    omega
  | case2 c rest hnot ih =>
    rcases List.infix_cons_iff.mp pair with ⟨rest', hfirst⟩ | hrest
    · cases hfirst
      exact absurd rfl (hnot rest' rfl)
    · have := ih hrest
      simp only [List.length_cons]
      omega
  | case3 => simp at pair

lemma single_of_no_pair (h : ¬ ['/', '/'] <:+: s) : Single s := by
  induction s with
  | nil => exact .nil
  | cons c s ih =>
    refine List.isChain_cons.mpr ⟨?_, ih fun pair => h (pair.trans (List.suffix_cons c s).isInfix)⟩
    rintro d hd ⟨rfl, rfl⟩
    obtain ⟨rest, rfl⟩ := List.head?_eq_some_iff.mp hd
    exact h (List.prefix_append ['/', '/'] rest).isInfix

lemma dropClosing_concat (h : s ≠ []) : dropClosing (s ++ ['/']) = dropClosing s := by
  have htake : (s ++ ['/']).take 1 = s.take 1 :=
    List.take_append_of_le_length (List.length_pos_iff.mpr h)
  have hdrop : (s ++ ['/']).rdropWhile (· = '/') = s.rdropWhile (· = '/') :=
    List.rdropWhile_concat_pos _ _ _ (by simp)
  simp only [dropClosing, dropEndWhile_eq, htake, hdrop]

namespace Rewriting

lemma goal_round (r : Rewriting) : r.round.goal = r.goal := by
  fun_cases round r with
  | case1 s pair => simp only [goal, collapse_halve]
  | case2 s h => simp only [goal, (single_of_no_pair h).collapse_eq]
  | case3 rest => rfl
  | case4 s hnot =>
    have hopens : ¬ ['.', '/'] <+: s := by
      rintro ⟨rest, rfl⟩
      exact hnot rest rfl
    simp only [goal, dropHere_eq hopens]
  | case5 s h =>
    obtain ⟨long, slash⟩ := h
    obtain ⟨s, rfl⟩ := List.getLast?_eq_some_iff.mp slash
    have hne : s ≠ [] := by
      rintro rfl
      exact absurd long (by decide)
    simp only [goal, List.dropLast_concat, dropClosing_concat hne]
  | case6 s h =>
    have closed : Closed s := by
      intro slash
      obtain ⟨s, rfl⟩ := List.getLast?_eq_some_iff.mp slash
      have hshort : ¬ 1 < (s ++ ['/']).length := fun long => h ⟨long, slash⟩
      simp only [List.length_append, List.length_singleton] at hshort
      obtain rfl : s = [] := List.length_eq_zero_iff.mp (by omega)
      rfl
    simp only [goal, closed.dropClosing_eq]
  | case7 s => rfl

lemma rank_round {r : Rewriting} (h : 0 < r.rank) : r.round.rank < r.rank := by
  fun_cases round r with
  | case1 s pair =>
    have := length_halve_lt pair
    simp only [rank]
    omega
  | case2 s _ => simp [rank]
  | case3 rest => simp [rank]
  | case4 s _ => simp [rank]
  | case5 s long =>
    have := long.1
    simp only [rank, List.length_dropLast]
    omega
  | case6 s _ => simp [rank]
  | case7 s => exact absurd h (Nat.lt_irrefl 0)

/-- As many rounds as the rank bring a text to its goal. -/
lemma rounds_settle {n : Nat} {r : Rewriting} (h : r.rank ≤ n) : round^[n] r = settled r.goal := by
  induction n generalizing r with
  | zero =>
    cases r with
    | settled s => rfl
    | _ s => exact absurd h (by simp [rank])
  | succ n ih =>
    have hround : r.round.rank ≤ n := by
      rcases Nat.eq_zero_or_pos r.rank with hzero | hpos
      · cases r with
        | settled s => exact Nat.zero_le n
        | _ s => exact absurd hzero (by simp [rank])
      · have := rank_round hpos
        omega
    simp only [Function.iterate_succ_apply, ih hround, goal_round]

end Rewriting

/-- A path has its normal form after no more rounds than it has characters, and three. -/
theorem rounds_normalize (path : String) :
    Rewriting.round^[path.length + 3] (.separators (slashed path.toList)) =
      .settled (normalize path).toList := by
  have hlength : (slashed path.toList).length ≤ path.length := by
    simpa [slashed, ← String.length_toList] using (trim_isInfix path.toList).length_le
  have hrank : (Rewriting.separators (slashed path.toList)).rank ≤ path.length + 3 := by
    simp only [Rewriting.rank]
    omega
  simp only [Rewriting.rounds_settle hrank, Rewriting.goal, normalize, String.toList_ofList,
    normalizeChars_eq]

/-! ## Places -/

/-- The segments of a path, as texts. -/
def parts (path : String) : List String := (segments path.toList).map String.ofList

/-- The place that the parts of a path lead to from a place. -/
def lead (place : List String) (parts : List String) : List String :=
  parts.foldl (fun place part =>
    if part = "" ∨ part = "." then place
    else if part = ".." then place.dropLast
    else place ++ [part]) place

lemma lead_cons (place : List String) (part : String) (others : List String) :
    lead place (part :: others) =
      if part = "" ∨ part = "." then lead place others
      else if part = ".." then lead place.dropLast others
      else lead (place ++ [part]) others := by
  simp only [lead, List.foldl_cons]
  split_ifs <;> rfl

/-- Without a step back, parts lead further and further below a place. -/
lemma lead_below {parts : List String} (forth : ".." ∉ parts) (place : List String) :
    place <+: lead place parts := by
  induction parts generalizing place with
  | nil => exact List.prefix_refl place
  | cons part others ih =>
    obtain ⟨hpart, hothers⟩ := List.ne_and_not_mem_of_not_mem_cons forth
    rw [lead_cons, if_neg hpart.symm]
    split
    · exact ih hothers place
    · exact (List.prefix_append place [part]).trans (ih hothers _)

end Path

namespace FileNode

open HouseStyle.Path

variable {tree other : FileNode} {root place below : List String}

lemma find_append (tree : FileNode) (root below : List String) :
    tree.find (root ++ below) = (tree.find root).bind (·.find below) := by
  induction root generalizing tree with
  | nil => simp [find, Except.bind]
  | cons name names ih =>
    cases tree with
    | directory entries =>
      cases hentry : entries.lookup name with
      | none => simp [find, hentry, Except.bind]
      | some node => simp [find, hentry, ih]
    | _ => simp [find, Except.bind]

/-- Trees that are the same at a root are the same below it. -/
lemma find_congr (same : tree.find root = other.find root) (below : List String) :
    tree.find (root ++ below) = other.find (root ++ below) := by
  rw [find_append, find_append, same]

/-- A walk ends where the parts lead to. -/
lemma walk_lead {parts : List String} (h : tree.walk place parts = .ok below) :
    below = lead place parts := by
  induction parts generalizing place with
  | nil =>
    simp only [walk] at h
    cases hfound : tree.find place with
    | error failure => simp [hfound, Except.map] at h
    | ok node => simpa [hfound, Except.map, lead] using h.symm
  | cons part parts ih =>
    rw [lead_cons]
    cases hfound : tree.find place with
    | error failure => simp [walk, hfound, bind, Except.bind] at h
    | ok node =>
      simp only [walk, hfound, bind, Except.bind] at h
      -- refusals aside, the walk goes on from the place that is led to
      split_ifs at h ⊢ <;> exact ih h

/-- Without a step back, a walk looks at nothing outside of a root that it starts below. -/
lemma walk_congr (same : tree.find root = other.find root) {parts : List String}
    (forth : ".." ∉ parts) (below : List String) :
    tree.walk (root ++ below) parts = other.walk (root ++ below) parts := by
  induction parts generalizing below with
  | nil => simp only [walk, find_congr same]
  | cons part parts ih =>
    obtain ⟨hpart, hparts⟩ := List.ne_and_not_mem_of_not_mem_cons forth
    simp only [walk, find_congr same, ih hparts, List.append_assoc, hpart.symm, if_false]

/-- A walk without a step back ends below where it starts. -/
lemma walk_below {parts : List String} (forth : ".." ∉ parts)
    (h : tree.walk root parts = .ok place) : root <+: place := by
  obtain rfl := walk_lead h
  exact lead_below forth root

/-- What a path without a step back leads to from a root is below it, and depends on nothing
outside. -/
lemma resolve_congr (same : tree.find root = other.find root) {path : String}
    (relative : path.toList.head? ≠ some '/') (forth : ".." ∉ parts path) :
    tree.resolve root path = other.resolve root path ∧
      ∀ found, tree.resolve root path = .ok found → root <+: found.1 := by
  have hwalk := walk_congr same forth []
  simp only [List.append_nil, parts] at hwalk
  simp only [resolve, relative, if_false, hwalk]
  split
  · exact ⟨rfl, fun found h => by cases h⟩
  · cases hplace : other.walk root ((segments path.toList).map String.ofList) with
    | error failure => exact ⟨rfl, fun found h => by cases h⟩
    | ok place =>
      obtain ⟨below, rfl⟩ : root <+: place := walk_below forth hplace
      simp only [bind, Except.bind, find_congr same, true_and]
      intro found h
      split at h
      · cases h
      · cases h
        exact List.prefix_append root below

end FileNode

/-- What is read without a step back from a root depends on what is below the root only. -/
lemma readSource_congr {tree other : FileNode} {root : List String} {path : String}
    (same : tree.find root = other.find root) (relative : path.toList.head? ≠ some '/')
    (forth : ".." ∉ Path.parts path) (limit : Nat) :
    readSource tree root limit path = readSource other root limit path := by
  obtain ⟨hresolve, hbelow⟩ := FileNode.resolve_congr same relative forth
  unfold readSource
  rw [← hresolve]
  cases hfound : tree.resolve root path with
  | error failure => rfl
  | ok found =>
    obtain ⟨below, hplace⟩ := hbelow found hfound
    have hread : tree.readText found.1 = other.readText found.1 := by
      simp only [FileNode.readText, ← hplace, FileNode.find_congr same]
    simp only [Except.mapError, bind, Except.bind, hread]

namespace Path

/-- A path that stays below every root. -/
structure Contained (path : String) : Prop where
  nonempty : path ≠ ""
  forward : '\\' ∉ path.toList
  filled : "" ∉ parts path
  forth : ".." ∉ parts path
  relative : path.toList.head? ≠ some '/'
  opens : ¬ ['.', '/'] <+: path.toList
  closes : path.toList.getLast? ≠ some '/'
  /-- However far it is followed from a root, it leads to a place below. -/
  below : ∀ root front, front <+: parts path → root <+: lead root front
  walked : ∀ (tree : FileNode) root front place, front <+: parts path →
    tree.walk root front = .ok place → root <+: place
  /-- A file is read alike from trees that agree below the root. -/
  confined : ∀ (tree other : FileNode) root limit, tree.find root = other.find root →
    readSource tree root limit path = readSource other root limit path

lemma ofList_mem_parts {part : List Char} (path : String) :
    String.ofList part ∈ parts path ↔ part ∈ segments path.toList := by
  simp [parts, String.ofList_inj]

lemma contained_of_normal {path : String} (normal : Normal path.toList)
    (accepted : problem? path = none) : Contained path := by
  obtain ⟨hne, hrelative, -, hup⟩ := problemChars?_eq_none.mp accepted
  have forth : ".." ∉ parts path := fun h => hup ((ofList_mem_parts path).mp h)
  exact {
    nonempty := fun h => hne (by rw [h]; rfl)
    forward := normal.forward
    filled := fun h => normal.nil_notMem_segments accepted ((ofList_mem_parts path).mp h)
    forth := forth
    relative := hrelative
    opens := normal.opens
    closes := by
      intro slash
      rw [normal.closed slash] at hrelative
      exact hrelative rfl
    below := fun root front hfront => lead_below (fun h => forth (hfront.subset h)) root
    walked := fun tree root front place hfront h =>
      tree.walk_below (fun h => forth (hfront.subset h)) h
    confined := fun tree other root limit same => readSource_congr same hrelative forth limit }

/-- Every path is normalized in finitely many rounds, and its normal form, if it has no problem,
stays below every root. -/
theorem accepted_contained (path : String) :
    Rewriting.round^[path.length + 3] (.separators (slashed path.toList)) =
        .settled (normalize path).toList ∧
      (problem? (normalize path) = none → Contained (normalize path)) := by
  refine ⟨rounds_normalize path, fun accepted => contained_of_normal ?_ accepted⟩
  simpa only [normalize, String.toList_ofList] using normal_normalizeChars path.toList

theorem samplePath_contained :
    problem? (normalize ".\\src//..a/./b.ts/") = none ∧
      normalize ".\\src//..a/./b.ts/" = "src/..a/./b.ts" ∧ Contained "src/..a/./b.ts" := by
  have accepted : problem? (normalize ".\\src//..a/./b.ts/") = none := by decide
  have hnormal : normalize ".\\src//..a/./b.ts/" = "src/..a/./b.ts" := by decide
  exact ⟨accepted, hnormal, hnormal ▸ (accepted_contained ".\\src//..a/./b.ts/").2 accepted⟩

end Path

end HouseStyle
