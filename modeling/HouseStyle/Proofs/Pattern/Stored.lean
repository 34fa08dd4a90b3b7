import HouseStyle.Proofs.Pattern.Form

/-!
# Nothing is lost in the stored form

A row holds all of a pattern or of a delta, whatever its texts are, as long as its numbers fit the
columns. The canonical text of a content holds all of it as well, and its category is told from the
rest, so two contents with the same hashed text are the same.
-/

namespace HouseStyle

open Json

/-! ## Canonical texts -/

namespace PatternContent

/-- Sorting the keys of a content's form leaves the same kind of object. -/
lemma readsAs_sorted (depth : Nat) (content : PatternContent) :
    ReadsAs (depth + 4) content.toJson.sorted content.toJson.sorted := by
  cases content
  case testLocation location =>
    have hsorted : (toJson (.testLocation location)).sorted =
        .object [("location", locationJson location), ("rule", .text "location"),
          ("type", .text "testing")] := by
      cases location <;> rfl
    rw [hsorted]
    apply readsAs_object (by omega)
    refine .cons ⟨rfl, readsAs_location depth location⟩ (.cons (fieldReadsAs_text _ _ _) ?_)
    exact .cons (fieldReadsAs_text _ _ _) .nil
  all_goals
    apply readsAs_object (by omega)
    refine .cons (fieldReadsAs_text _ _ _) (.cons (fieldReadsAs_text _ _ _) ?_)
    exact .cons (fieldReadsAs_text _ _ _) .nil

lemma ofJson?_sorted (content : PatternContent) : ofJson? content.toJson.sorted = some content := by
  cases content with
  | naming target style => cases target <;> cases style <;> rfl
  | fileNaming style => cases style <;> rfl
  | functionStyle style => cases style <;> rfl
  | indentation indent => cases indent <;> rfl
  | quotes quote => cases quote <;> rfl
  | testFileNaming convention => cases convention <;> rfl
  | testLocation location => cases location <;> rfl

lemma readContent_canonicalText (content : PatternContent) :
    Pattern.readContent content.canonicalText = .ok content := by
  simp [Pattern.readContent, canonicalText, parse?_render (content.readsAs_sorted 124),
    content.ofJson?_sorted]

lemma canonicalText_injective : Function.Injective canonicalText := by
  intro a b h
  have hread := readContent_canonicalText a
  rw [h, readContent_canonicalText] at hread
  exact (Except.ok.inj hread).symm

/-- The first NUL of the hashed text is the one that ends the category. -/
lemma dropWhile_identityText (content : PatternContent) :
    content.identityText.toList.dropWhile (· ≠ '\x00') =
      '\x00' :: content.canonicalText.toList := by
  have hname : ∀ category : Category, '\x00' ∉ category.name.toList := by
    intro category
    cases category <;> decide
  rw [identityText, String.toList_append, String.toList_append, List.append_assoc,
    List.dropWhile_append_of_pos fun c hc => by
      simpa using ne_of_mem_of_not_mem hc (hname content.category)]
  rfl

lemma identityText_injective : Function.Injective identityText := by
  intro a b h
  have hdrop := dropWhile_identityText a
  rw [h, dropWhile_identityText] at hdrop
  exact canonicalText_injective (String.toList_inj.mp (List.cons.inj hdrop).2).symm

end PatternContent

/-! ## Patterns -/

instance : DecidablePred PatternExample.Sound := fun e =>
  inferInstanceAs (Decidable (e.line < Word.bound32))

namespace Pattern

/-- A pattern of its content's category whose numbers fit the columns. -/
structure Storable (p : Pattern) : Prop where
  category : p.category = p.content.category
  frequency : p.frequency < Word.half
  baseline : p.baseline < Word.half
  version : p.version < Word.half
  examples : ∀ e ∈ p.examples, e.Sound

lemma ofRow_toRow {p : Pattern} (h : p.Storable) : ofRow p.toRow = .ok p := by
  rw [ofRow_eq_ok_iff]
  refine ⟨readContent_render _, readTexts_render _ _, readExamples_render h.examples, ?_⟩
  simp only [toRow, ← h.category, readWord_storedWord h.frequency,
    readWord_storedWord h.baseline, readWord_storedWord h.version]

end Pattern

/-! ## Deltas -/

lemma readWord32_natCast {n : Nat} (h : n < Word.bound32) : readWord32 n = n := by
  rw [readWord32, Int.toNat_natCast]
  omega

lemma Trigger.ofName?_name (trigger : Trigger) : Trigger.ofName? trigger.name = some trigger := by
  cases trigger <;> decide

lemma LearningMode.ofName?_name (mode : LearningMode) :
    LearningMode.ofName? mode.name = some mode := by
  cases mode <;> decide

namespace LearningDelta

/-- A delta whose numbers fit the columns. -/
structure Storable (d : LearningDelta) : Prop where
  filesTouched : d.filesTouched < Word.bound32
  conceptsAdded : d.conceptsAdded < Word.bound32
  conceptsModified : d.conceptsModified < Word.bound32
  conceptsRemoved : d.conceptsRemoved < Word.bound32
  patternsAdded : d.patternsAdded < Word.bound32
  patternsModified : d.patternsModified < Word.bound32
  patternsRemoved : d.patternsRemoved < Word.bound32
  durationMs : d.durationMs < Word.half
  precedingVersion : d.precedingVersion < Word.half
  resultingVersion : d.resultingVersion < Word.half

lemma ofRow_toRow {d : LearningDelta} (h : d.Storable) : ofRow d.toRow = .ok d := by
  simp only [ofRow, toRow, Trigger.ofName?_name, LearningMode.ofName?_name, readTexts_render,
    readWord32_natCast h.filesTouched, readWord32_natCast h.conceptsAdded,
    readWord32_natCast h.conceptsModified, readWord32_natCast h.conceptsRemoved,
    readWord32_natCast h.patternsAdded, readWord32_natCast h.patternsModified,
    readWord32_natCast h.patternsRemoved, readWord_storedWord h.durationMs,
    readWord_storedWord h.precedingVersion, readWord_storedWord h.resultingVersion]
  rfl

end LearningDelta

/-- Patterns and deltas are read back from their rows as they were written, and contents have
different canonical and different hashed texts. -/
theorem stored_readBack {p : Pattern} {d : LearningDelta} (hp : p.Storable) (hd : d.Storable) :
    Pattern.ofRow p.toRow = .ok p ∧ LearningDelta.ofRow d.toRow = .ok d ∧
      Function.Injective PatternContent.canonicalText ∧
      Function.Injective PatternContent.identityText :=
  ⟨Pattern.ofRow_toRow hp, LearningDelta.ofRow_toRow hd, PatternContent.canonicalText_injective,
    PatternContent.identityText_injective⟩

/-- A directory of tests with a quote, a backslash, a control character and a letter that is not
ASCII in its name. -/
def Pattern.sampleStored : Pattern where
  id := "ab"
  category := .testing
  content := .testLocation (.separate "a\"b\\c\x01é")
  frequency := Word.half - 1
  baseline := 0
  confidence := 0.5
  contexts := ["lang:python", "tests\n"]
  examples := [⟨"tests/\u2028.py", 7, "\tx = \"\x00\""⟩]
  version := 3
  createdAt := -1
  lastSeen := 0

def LearningDelta.sampleStored : LearningDelta where
  id := "d1"
  trigger := .gitCommit
  mode := .full
  revision := some "\x7f"
  filesTouched := Word.bound32 - 1
  conceptsAdded := 0
  conceptsModified := 0
  conceptsRemoved := 0
  patternsAdded := 1
  patternsModified := 0
  patternsRemoved := 0
  durationMs := Word.half - 1
  appliedAt := -5
  precedingVersion := 2
  resultingVersion := 3
  partialDegradation := true
  degradedFiles := ["a\"b.py"]

theorem sampleStored_readBack :
    Pattern.sampleStored.Storable ∧ LearningDelta.sampleStored.Storable ∧
      Pattern.ofRow Pattern.sampleStored.toRow = .ok Pattern.sampleStored ∧
      LearningDelta.ofRow LearningDelta.sampleStored.toRow = .ok LearningDelta.sampleStored := by
  have hp : Pattern.sampleStored.Storable := by
    constructor <;> decide
  have hd : LearningDelta.sampleStored.Storable := by
    constructor <;> decide
  obtain ⟨hpattern, hdelta, -, -⟩ := stored_readBack hp hd
  exact ⟨hp, hd, hpattern, hdelta⟩

end HouseStyle
