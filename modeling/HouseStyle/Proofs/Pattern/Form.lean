import HouseStyle.Proofs.Json.RoundTrip
import HouseStyle.Store.PatternForm
import HouseStyle.Store.PatternStore
import Mathlib.Tactic.Common

/-!
# The stored form is read back

A pattern's content, contexts and examples are read back from their texts as they were
written, and so are counts below the upper half of the 64-bit words. A row that is
written over keeps its content and its age.
-/

namespace HouseStyle

open Json

/-! ## Words -/

lemma storedWord_of_lt {n : Nat} (h : n < Word.half) : storedWord n = n := by
  unfold storedWord
  unfold Word.half at h
  rw [Int.bmod_eq_of_le (by simp [Word.bound]) (by simp [Word.bound]; omega)]

@[simp] lemma readWord_natCast (n : Nat) : readWord (n : Int) = n := Int.toNat_natCast n

lemma readWord_storedWord {n : Nat} (h : n < Word.half) : readWord (storedWord n) = n := by
  rw [storedWord_of_lt h, readWord_natCast]

lemma natCast_readWord {n : Int} (h : 0 ≤ n) : (readWord n : Int) = n := Int.toNat_of_nonneg h

/-- The word after one that was read is stored as the number after it. -/
lemma storedWord_readWord_succ {n : Int} (h : 0 ≤ n) (room : n + 1 < Word.half) :
    storedWord (readWord n + 1) = n + 1 := by
  have hword := natCast_readWord h
  rw [storedWord_of_lt (by omega)]
  omega

lemma readWord32_lt (n : Int) : readWord32 n < Word.bound32 := by
  unfold readWord32 Word.bound32
  omega

/-! ## Contents -/

namespace PatternContent

lemma ofJson?_toJson (content : PatternContent) : ofJson? content.toJson = some content := by
  cases content with
  | naming target style => cases target <;> cases style <;> rfl
  | fileNaming style => cases style <;> rfl
  | functionStyle style => cases style <;> rfl
  | indentation indent => cases indent <;> rfl
  | quotes quote => cases quote <;> rfl
  | testFileNaming convention => cases convention <;> rfl
  | testLocation location => cases location <;> rfl

/-- A field with a text. -/
lemma fieldReadsAs_text (depth : Nat) (key s : String) :
    FieldReadsAs depth (key, text s) (key, text s) := ⟨rfl, readsAs_text depth s⟩

lemma readsAs_location (depth : Nat) (location : TestLocation) :
    ReadsAs (depth + 3) (locationJson location) (locationJson location) := by
  cases location with
  | colocated => exact readsAs_text _ _
  | separate directory =>
    apply readsAs_object (by omega)
    refine .cons ⟨rfl, readsAs_object (by omega) ?_⟩ .nil
    exact .cons (fieldReadsAs_text _ _ _) .nil

lemma readsAs_toJson (depth : Nat) (content : PatternContent) :
    ReadsAs (depth + 4) content.toJson content.toJson := by
  cases content
  case testLocation location =>
    apply readsAs_object (by omega)
    refine .cons (fieldReadsAs_text _ _ _) (.cons (fieldReadsAs_text _ _ _) ?_)
    exact .cons ⟨rfl, readsAs_location depth location⟩ .nil
  all_goals
    apply readsAs_object (by omega)
    refine .cons (fieldReadsAs_text _ _ _) (.cons (fieldReadsAs_text _ _ _) ?_)
    exact .cons (fieldReadsAs_text _ _ _) .nil

end PatternContent

/-! ## Examples

The fields of a record are taken one by one: what decoding them gives is stated about any
fields before it is used of those that were written, so that no bound is ever computed. -/

lemma need?_text (s : String) : Json.need? Json.asText? (some (.text s)) = some s := rfl

lemma need?_ofNat {n bound : Nat} (h : n < bound) :
    Json.need? (Json.asNat? bound) (some (Json.ofNat n)) = some n := by
  have hbound : (0 : Int) ≤ n ∧ (n : Int) < bound := ⟨by omega, by omega⟩
  rw [Json.need?, Option.bind_some, Json.ofNat, Json.asNat?, if_pos hbound, Int.toNat_natCast]

lemma need?_word32 {n : Nat} (h : n < Word.bound32) :
    Json.need? Json.asWord32? (some (Json.ofNat n)) = some n := need?_ofNat h

lemma need?_word64 {n : Nat} (h : n < Word.bound) :
    Json.need? Json.asWord64? (some (Json.ofNat n)) = some n := need?_ofNat h

lemma need?_int {n : Int} (h : Word.isSigned n = true) :
    Json.need? Json.asInt? (some (.int n)) = some n := by
  rw [Json.need?, Option.bind_some, Json.asInt?, if_pos h]

namespace PatternExample

/-- The line of an example is a 32-bit word. -/
def Sound (e : PatternExample) : Prop := e.line < Word.bound32

lemma record?_toJson (e : PatternExample) :
    e.toJson.record? [("file_path", .required), ("line", .required), ("snippet", .required)] =
      some [some (.text e.filePath), some (.ofNat e.line), some (.text e.snippet)] := by
  simp [toJson, Json.record?, Json.fieldOf?]

lemma ofJson?_of_record {value : Json} {filePath line snippet : Option Json} {e : PatternExample}
    (h : value.record? [("file_path", .required), ("line", .required), ("snippet", .required)] =
      some [filePath, line, snippet])
    (hpath : Json.need? Json.asText? filePath = some e.filePath)
    (hline : Json.need? Json.asWord32? line = some e.line)
    (hsnippet : Json.need? Json.asText? snippet = some e.snippet) : ofJson? value = some e := by
  simp only [ofJson?, h, hpath, hline, hsnippet, Option.bind_eq_bind, Option.bind_some]

lemma ofJson?_toJson {e : PatternExample} (h : e.Sound) : ofJson? e.toJson = some e :=
  ofJson?_of_record e.record?_toJson (need?_text _) (need?_word32 h) (need?_text _)

lemma readsAs_toJson (depth : Nat) {e : PatternExample} (h : e.Sound) :
    ReadsAs (depth + 2) e.toJson e.toJson := by
  have hline : e.line < Word.bound := Nat.lt_trans h (by decide)
  apply readsAs_object (by omega)
  refine .cons ⟨rfl, readsAs_text _ _⟩ (.cons ⟨rfl, readsAs_ofNat _ hline⟩ ?_)
  exact .cons ⟨rfl, readsAs_text _ _⟩ .nil

end PatternExample

lemma mapM_ofJson?_toJson {examples : List PatternExample} (h : ∀ e ∈ examples, e.Sound) :
    (examples.map (·.toJson)).mapM PatternExample.ofJson? = some examples := by
  induction examples with
  | nil => rfl
  | cons e examples ih =>
    simp [PatternExample.ofJson?_toJson (h e (by simp)), ih fun e he => h e (by simp [he])]

lemma readsAs_examples (depth : Nat) {examples : List PatternExample}
    (h : ∀ e ∈ examples, e.Sound) :
    ReadsAs (depth + 3) (.list (examples.map (·.toJson))) (.list (examples.map (·.toJson))) := by
  apply readsAs_list (by omega)
  · simp only [List.mem_map, forall_exists_index, and_imp, forall_apply_eq_imp_iff₂]
    exact fun e _ => opens_object _
  · induction examples with
    | nil => exact .nil
    | cons e examples ih =>
      exact .cons (PatternExample.readsAs_toJson depth (h e (by simp)))
        (ih fun e he => h e (by simp [he]))

lemma asList?_ofTexts (texts : List String) :
    (Json.ofTexts texts).asList? Json.asText? = some texts := by
  simp only [Json.ofTexts, Json.asList?]
  induction texts with
  | nil => rfl
  | cons s texts ih => simp [Json.asText?, ih]

lemma readTexts_render (entity : String) (texts : List String) :
    readTexts entity (Json.ofTexts texts).render = .ok texts := by
  simp [readTexts, parse?_render (readsAs_ofTexts 127 (by omega) texts),
    asList?_ofTexts]

namespace Pattern

lemma readContent_render (content : PatternContent) :
    readContent content.toJson.render = .ok content := by
  simp [readContent, parse?_render (content.readsAs_toJson 124), content.ofJson?_toJson]

lemma readExamples_render {examples : List PatternExample} (h : ∀ e ∈ examples, e.Sound) :
    readExamples (Json.list (examples.map (·.toJson))).render = .ok examples := by
  simp [readExamples, parse?_render (readsAs_examples 125 h), Json.asList?,
    mapM_ofJson?_toJson h]

/-! ## Rows -/

/-- A row is read as a pattern exactly when its three texts are read as the pattern's parts,
and the other columns are the pattern's. -/
lemma ofRow_eq_ok_iff {row : PatternRow} {p : Pattern} :
    ofRow row = .ok p ↔
      readContent row.content = .ok p.content ∧
      readTexts "pattern contexts" row.contexts = .ok p.contexts ∧
      readExamples row.examples = .ok p.examples ∧
      p = { p with
        id := row.patternId
        category := p.content.category
        frequency := readWord row.frequency
        baseline := readWord row.baseline
        confidence := row.confidence
        version := readWord row.version
        createdAt := row.createdAt
        lastSeen := row.lastSeen } := by
  unfold ofRow
  constructor
  · intro h
    cases hcontent : readContent row.content with
    | error e => simp [hcontent, bind, Except.bind] at h
    | ok content =>
    cases hcontexts : readTexts "pattern contexts" row.contexts with
    | error e => simp [hcontent, hcontexts, bind, Except.bind] at h
    | ok contexts =>
    cases hexamples : readExamples row.examples with
    | error e => simp [hcontent, hcontexts, hexamples, bind, Except.bind] at h
    | ok examples =>
    simp only [hcontent, hcontexts, hexamples, bind, Except.bind, pure, Except.pure,
      Except.ok.injEq] at h
    subst h
    simp
  · rintro ⟨hcontent, hcontexts, hexamples, hp⟩
    simp only [hcontent, hcontexts, hexamples, bind, Except.bind, pure, Except.pure]
    rw [hp]

lemma ofRow_id {row : PatternRow} {p : Pattern} (h : ofRow row = .ok p) : p.id = row.patternId :=
  congrArg Pattern.id (ofRow_eq_ok_iff.mp h).2.2.2

lemma ofRow_baseline {row : PatternRow} {p : Pattern} (h : ofRow row = .ok p) :
    p.baseline = readWord row.baseline :=
  congrArg Pattern.baseline (ofRow_eq_ok_iff.mp h).2.2.2

/-- A pattern as a store gives it back: words of the upper half are lost, and so is the sign
of a zero. -/
def restored (p : Pattern) : Pattern :=
  { p with
    category := p.content.category
    frequency := readWord (storedWord p.frequency)
    baseline := readWord (storedWord p.baseline)
    confidence := Decimal.unsignedZero p.confidence
    version := readWord (storedWord p.version) }

lemma restored_frequency {p : Pattern} (h : p.frequency < Word.half) :
    p.restored.frequency = p.frequency := by
  rw [restored, readWord_storedWord h]

lemma restored_baseline {p : Pattern} (h : p.baseline < Word.half) :
    p.restored.baseline = p.baseline := by
  rw [restored, readWord_storedWord h]

lemma restored_examples (p : Pattern) : p.restored.examples = p.examples := rfl

lemma restored_contexts (p : Pattern) : p.restored.contexts = p.contexts := rfl

/-- The row that an upsert of a pattern brings. -/
def freshRow (p : Pattern) : PatternRow :=
  { p.toRow with confidence := Decimal.unsignedZero p.confidence }

lemma freshRow_content (p : Pattern) : p.freshRow.content = p.content.toJson.render := rfl

lemma freshRow_version (p : Pattern) : p.freshRow.version = storedWord p.version := by
  rw [freshRow, toRow]

lemma freshRow_confidence (p : Pattern) :
    p.freshRow.confidence = Decimal.unsignedZero p.confidence := rfl

lemma ofRow_freshRow {p : Pattern} (h : ∀ e ∈ p.examples, e.Sound) :
    ofRow p.freshRow = .ok p.restored := by
  rw [ofRow_eq_ok_iff]
  refine ⟨readContent_render _, readTexts_render _ _, readExamples_render h, ?_⟩
  simp only [restored, freshRow, toRow]

/-- What is read of a row that was written over: the old content and age, all else new. -/
lemma ofRow_mergePattern {old new : PatternRow} {q r : Pattern} (hq : ofRow old = .ok q)
    (hr : ofRow new = .ok r) :
    ofRow (PatternStore.mergePattern old new) =
      .ok { r with
        id := q.id, category := q.content.category, content := q.content,
        createdAt := q.createdAt } := by
  obtain ⟨hcontent, -, -, hold⟩ := ofRow_eq_ok_iff.mp hq
  obtain ⟨-, hcontexts, hexamples, hnew⟩ := ofRow_eq_ok_iff.mp hr
  rw [ofRow_eq_ok_iff]
  refine ⟨hcontent, hcontexts, hexamples, ?_⟩
  have hid : q.id = old.patternId := congrArg Pattern.id hold
  have hcreated : q.createdAt = old.createdAt := congrArg Pattern.createdAt hold
  rw [hid, hcreated]
  conv_lhs => rw [hnew]
  rfl

end Pattern

end HouseStyle
