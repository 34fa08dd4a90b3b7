import HouseStyle.Proofs.Pattern.Form

/-!
# The logged form is read back

A pattern goes into the log as one JSON text. What is read of it is the pattern, with
whatever number the text of its confidence is read as.
-/

namespace HouseStyle.Pattern

open Json

variable {p : Pattern} {confidence : Float}

/-- The number that the text of a confidence is read as. -/
def ConfidenceReads (c read : Float) : Prop :=
  (Json.parse? (Json.ofReal c).render).bind Json.asReal? = some read

/-- What has to hold of a pattern for its text to hold all of it. -/
structure Writable (p : Pattern) : Prop where
  frequency : p.frequency < Word.bound
  baseline : p.baseline < Word.bound
  version : p.version < Word.bound
  createdAt : Word.isSigned p.createdAt = true
  lastSeen : Word.isSigned p.lastSeen = true
  examples : ∀ e ∈ p.examples, e.Sound

/-- The JSON form of a pattern with another value in the place of its confidence. -/
def withConfidence (p : Pattern) (value : Json) : Json :=
  .object [
    ("pattern_id", .text p.id),
    ("pattern_type", .text p.category.name),
    ("content", p.content.toJson),
    ("frequency", .ofNat p.frequency),
    ("baseline", .ofNat p.baseline),
    ("confidence", value),
    ("contexts", .ofTexts p.contexts),
    ("examples", .list (p.examples.map (·.toJson))),
    ("version", .ofNat p.version),
    ("created_at", .int p.createdAt),
    ("last_seen", .int p.lastSeen)]

lemma isWhole_of_isSigned {n : Int} (h : Word.isSigned n = true) : IsWhole n := by
  simp only [Word.isSigned, Bool.and_eq_true, decide_eq_true_eq] at h
  have : (Word.half : Int) < Word.bound := by decide
  exact ⟨h.1, by omega⟩

lemma readsAs_toJson (writable : p.Writable) {value : Json}
    (h : ReadsAs 127 (.ofReal p.confidence) value) :
    ReadsAs maxDepth p.toJson (p.withConfidence value) := by
  apply readsAs_object (by omega)
  refine .cons ⟨rfl, readsAs_text _ _⟩ (.cons ⟨rfl, readsAs_text _ _⟩ ?_)
  refine .cons ⟨rfl, p.content.readsAs_toJson 123⟩ ?_
  refine .cons ⟨rfl, readsAs_ofNat _ writable.frequency⟩ ?_
  refine .cons ⟨rfl, readsAs_ofNat _ writable.baseline⟩ (.cons ⟨rfl, h⟩ ?_)
  refine .cons ⟨rfl, readsAs_ofTexts 126 (by omega) _⟩ ?_
  refine .cons ⟨rfl, readsAs_examples 124 writable.examples⟩ ?_
  refine .cons ⟨rfl, readsAs_ofNat _ writable.version⟩ ?_
  refine .cons ⟨rfl, readsAs_int _ (isWhole_of_isSigned writable.createdAt)⟩ ?_
  exact .cons ⟨rfl, readsAs_int _ (isWhole_of_isSigned writable.lastSeen)⟩ .nil

lemma need?_category (category : Category) :
    Json.need? (fun v => v.asChoice?.bind Category.ofName?) (some (.text category.name)) =
      some category := by
  cases category <;> rfl

lemma record?_withConfidence (value : Json) :
    (p.withConfidence value).record? [
      ("pattern_id", .required), ("pattern_type", .required), ("content", .required),
      ("frequency", .required), ("baseline", .defaulted), ("confidence", .required),
      ("contexts", .required), ("examples", .required), ("version", .required),
      ("created_at", .required), ("last_seen", .required)] =
    some [some (.text p.id), some (.text p.category.name), some p.content.toJson,
      some (.ofNat p.frequency), some (.ofNat p.baseline), some value,
      some (.ofTexts p.contexts), some (.list (p.examples.map (·.toJson))),
      some (.ofNat p.version), some (.int p.createdAt), some (.int p.lastSeen)] := by
  simp [withConfidence, Json.record?, Json.fieldOf?]

lemma ofJson?_withConfidence (writable : p.Writable) {value : Json}
    (h : value.asReal? = some confidence) :
    ofJson? (p.withConfidence value) = some { p with confidence } := by
  have hcontent : Json.need? PatternContent.ofJson? (some p.content.toJson) = some p.content :=
    p.content.ofJson?_toJson
  have hbaseline : Json.orElse? 0 Json.asWord64? (some (Json.ofNat p.baseline)) =
      some p.baseline := need?_word64 writable.baseline
  have hcontexts : Json.need? (Json.asList? Json.asText?) (some (.ofTexts p.contexts)) =
      some p.contexts := asList?_ofTexts p.contexts
  have hexamples : Json.need? (Json.asList? PatternExample.ofJson?)
      (some (.list (p.examples.map (·.toJson)))) = some p.examples :=
    mapM_ofJson?_toJson writable.examples
  have hconfidence : Json.need? Json.asReal? (some value) = some confidence := h
  simp only [ofJson?, record?_withConfidence, need?_text, need?_category, hcontent,
    need?_word64 writable.frequency, hbaseline, hconfidence, hcontexts, hexamples,
    need?_word64 writable.version, need?_int writable.createdAt, need?_int writable.lastSeen,
    Option.bind_eq_bind, Option.bind_some]

/-- The payload of a pattern is read as the pattern. -/
theorem ofJson?_payload (writable : p.Writable) (h : ConfidenceReads p.confidence confidence) :
    (Json.parse? p.toJson.render).bind ofJson? = some { p with confidence } := by
  obtain ⟨value, hparse, hvalue⟩ := Option.bind_eq_some_iff.mp h
  have hreads := readsAs_toJson writable (readsAs_of_parse? hparse hvalue 127)
  rw [parse?_render hreads, Option.bind_some, ofJson?_withConfidence writable hvalue]

end HouseStyle.Pattern
