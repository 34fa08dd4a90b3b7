import HouseStyle.Extraction.Observation
import HouseStyle.Pattern.Identity
import Mathlib.Data.List.Nodup
import Mathlib.Tactic.IntervalCases

/-!
# What can be observed

There are finitely many rules that a file can show, since the directory of separate tests is
one of a few. Their ids are all different, so an id says which rule it stands for.
-/

namespace HouseStyle.Observation

/-- The kinds whose names are held to a style. -/
def namedKinds : List ConceptKind :=
  [.function, .method, .classType, .interface, .typeAlias, .variable, .constant]

/-- Every rule that an observation can be about. -/
def contents : List PatternContent :=
  (namedKinds.flatMap fun kind => CaseStyle.all.map (.naming kind)) ++
    CaseStyle.all.map .fileNaming ++ FunctionStyle.all.map .functionStyle ++
    Indent.all.map .indentation ++ QuoteStyle.all.map .quotes ++
    TestConvention.all.map .testFileNaming ++
    (.testLocation .colocated :: testDirectories.map fun d => .testLocation (.separate d))

/-- The last three digits of an id. -/
def ending (id : String) : String := String.ofList (id.toList.drop 13)

/-- What the ids of the rules end in. -/
def endings : List String :=
  ["7d1", "7b8", "3bd", "1b0", "c0c", "46d", "9d4", "4bd",
   "db2", "b6f", "746", "efa", "90b", "741", "3f6", "33b",
   "7fd", "c1b", "13b", "a65", "7f6", "18d", "c62", "07c",
   "321", "138", "8c5", "8ac", "652", "9ee", "c4b", "2b2",
   "290", "e54", "7a9", "0e9", "bef", "b6c", "854", "0d9",
   "001", "0a2", "1e4", "ba9", "0e2", "fcb", "4c0", "4cc",
   "775", "49c", "9c1", "bf4", "8e7", "b9b", "292", "426"]

set_option maxRecDepth 10000 in
/-- Eight ids at a time, since a digest leaves much behind when it is evaluated. -/
lemma endings_chunk {k : Nat} (h : k < 7) :
    ((contents.drop (8 * k)).take 8).map (fun c => ending c.id) =
      (endings.drop (8 * k)).take 8 := by
  interval_cases k <;> decide +kernel

lemma map_ending : contents.map (fun c => ending c.id) = endings := by
  have hlength : contents.length = 56 := by decide
  apply List.ext_getElem?
  intro i
  by_cases hi : i < 56
  · have hchunk := congrArg (·[i % 8]?) (endings_chunk (k := i / 8) (by omega))
    simpa [List.getElem?_take, List.getElem?_drop, Nat.mod_lt, Nat.div_add_mod] using hchunk
  · rw [List.getElem?_eq_none (by simp [hlength]; omega),
      List.getElem?_eq_none (by simp [endings]; omega)]

lemma nodup_ids : (contents.map (·.id)).Nodup := by
  apply List.Nodup.of_map ending
  rw [List.map_map, Function.comp_def, map_ending]
  decide

/-- An id stands for one rule. -/
theorem content_of_id {c d : PatternContent} (hc : c ∈ contents) (hd : d ∈ contents)
    (h : c.id = d.id) : c = d :=
  List.inj_on_of_nodup_map nodup_ids hc hd h

/-! ## The observations, one kind after the other -/

lemma named_mem {kind : ConceptKind} (h : isNamed kind.namingTarget = true) (style : CaseStyle) :
    PatternContent.naming kind.namingTarget style ∈ contents := by
  have hkind : kind.namingTarget ∈ namedKinds := by
    cases kind <;> first | decide | cases h
  have hstyle : style ∈ CaseStyle.all := by cases style <;> decide
  simp only [contents, List.mem_append, List.mem_flatMap]
  exact .inl (.inl (.inl (.inl (.inl (.inl ⟨_, hkind, List.mem_map_of_mem hstyle⟩)))))

lemma ofNames_mem {lines : List (List Char)} {concepts : List Concept} {o : Observation}
    (h : o ∈ ofNames lines concepts) : o.content ∈ contents := by
  obtain ⟨concept, -, hconcept⟩ := List.mem_filterMap.mp h
  simp only at hconcept
  split at hconcept
  · next hnamed =>
    obtain ⟨style, -, rfl⟩ := Option.map_eq_some_iff.mp hconcept
    exact named_mem hnamed style
  · cases hconcept

lemma ofFileName_mem {path : String} {o : Observation} (h : o ∈ ofFileName path) :
    o.content ∈ contents := by
  simp only [ofFileName] at h
  split at h
  · next style _ =>
    obtain rfl := List.mem_singleton.mp h
    show PatternContent.fileNaming style ∈ contents
    cases style <;> decide
  · cases h

lemma ofFunctionStyle_mem {lines : List (List Char)} {concepts : List Concept} {o : Observation}
    (h : o ∈ ofFunctionStyle lines concepts) : o.content ∈ contents := by
  obtain ⟨concept, -, hconcept⟩ := List.mem_filterMap.mp h
  split at hconcept
  · obtain rfl := Option.some.inj hconcept
    show PatternContent.functionStyle .declaration ∈ contents
    decide
  · obtain rfl := Option.some.inj hconcept
    show PatternContent.functionStyle .arrow ∈ contents
    decide
  · cases hconcept

lemma ofIndentation_mem {lines : List (List Char)} {o : Observation} (h : o ∈ ofIndentation lines) :
    o.content ∈ contents := by
  have hindent : ∀ indent : Indent, PatternContent.indentation indent ∈ contents := by
    intro indent
    cases indent <;> decide
  simp only [ofIndentation] at h
  split at h
  · obtain rfl := List.mem_singleton.mp h
    exact hindent _
  · obtain rfl := List.mem_singleton.mp h
    exact hindent _
  · obtain rfl := List.mem_singleton.mp h
    exact hindent _
  · cases h

lemma ofQuotes_mem {lines : List (List Char)} {o : Observation} (h : o ∈ ofQuotes lines) :
    o.content ∈ contents := by
  have hquote : ∀ quote : QuoteStyle, PatternContent.quotes quote ∈ contents := by
    intro quote
    cases quote <;> decide
  simp only [ofQuotes] at h
  split at h
  · obtain ⟨line, -, rfl⟩ := List.mem_map.mp h
    exact hquote _
  · split at h
    · obtain ⟨line, -, rfl⟩ := List.mem_map.mp h
      exact hquote _
    · cases h

lemma location_mem (path : String) :
    PatternContent.testLocation
      (match testDirectory? path with
        | some directory => .separate directory
        | none => .colocated) ∈ contents := by
  have hall : ∀ d ∈ testDirectories, PatternContent.testLocation (.separate d) ∈ contents := by
    decide
  split
  · next directory hdirectory =>
    have hfound := List.find?_some hdirectory
    exact hall directory (List.contains_iff_mem.mp hfound)
  · decide

lemma ofTests_mem {path : String} {o : Observation} (h : o ∈ ofTests path) :
    o.content ∈ contents := by
  simp only [ofTests] at h
  split at h
  · cases h
  · rcases List.mem_append.mp h with h | h
    · obtain ⟨convention, -, rfl⟩ := List.mem_map.mp h
      show PatternContent.testFileNaming convention ∈ contents
      cases convention <;> decide
    · obtain rfl := List.mem_singleton.mp h
      exact location_mem path

/-- Whatever is observed of a file is one of the rules. -/
theorem observe_mem {path content : String} {extraction : Extraction} {o : Observation}
    (h : o ∈ observe path content extraction) : o.content ∈ contents := by
  simp only [observe, List.mem_append] at h
  rcases h with ((h | h) | h) | h
  · exact ofNames_mem h
  · exact ofFileName_mem h
  · split at h
    · cases h
    · simp only [List.mem_append] at h
      rcases h with (h | h) | h
      · split at h
        · exact ofFunctionStyle_mem h
        · cases h
      · exact ofIndentation_mem h
      · split at h
        · exact ofQuotes_mem h
        · cases h
  · exact ofTests_mem h

end HouseStyle.Observation
