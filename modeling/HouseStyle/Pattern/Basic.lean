import HouseStyle.Pattern.Identity

/-!
# Patterns

A learned pattern: its content, how often it was seen, where, and a few examples.
The frequency is the baseline, brought in from outside, plus the number of places
in the project that show the pattern.
-/

namespace HouseStyle

structure PatternExample where
  filePath : String
  line : Nat
  snippet : String
  deriving DecidableEq, Repr, Inhabited

namespace PatternExample

def toJson (e : PatternExample) : Json :=
  .object [("file_path", .text e.filePath), ("line", .ofNat e.line), ("snippet", .text e.snippet)]

def ofJson? (value : Json) : Option PatternExample := do
  match ← value.record? [("file_path", .required), ("line", .required), ("snippet", .required)] with
  | [filePath, line, snippet] =>
    some ⟨← Json.need? Json.asText? filePath, ← Json.need? Json.asWord32? line,
      ← Json.need? Json.asText? snippet⟩
  | _ => none

end PatternExample

structure Pattern where
  id : String
  category : Category
  content : PatternContent
  frequency : Nat
  baseline : Nat
  confidence : Float
  /-- Directories the pattern was seen in and `lang:` tags, sorted. -/
  contexts : List String
  examples : List PatternExample
  /-- The store version of the merge that last changed the pattern. -/
  version : Nat
  createdAt : Int
  lastSeen : Int

namespace Pattern

def languageMark : String := "lang:"

/-- The language a context names, when it is a language tag. -/
def languageOf? (context : String) : Option String :=
  let mark := languageMark.toList
  if mark.isPrefixOf context.toList then some (String.ofList (context.toList.drop mark.length))
  else none

def languages (pattern : Pattern) : List String := pattern.contexts.filterMap languageOf?

def slot (pattern : Pattern) : String := pattern.content.slot

def toJson (p : Pattern) : Json :=
  .object [
    ("pattern_id", .text p.id),
    ("pattern_type", .text p.category.name),
    ("content", p.content.toJson),
    ("frequency", .ofNat p.frequency),
    ("baseline", .ofNat p.baseline),
    ("confidence", .ofReal p.confidence),
    ("contexts", .ofTexts p.contexts),
    ("examples", .list (p.examples.map (·.toJson))),
    ("version", .ofNat p.version),
    ("created_at", .int p.createdAt),
    ("last_seen", .int p.lastSeen)]

def ofJson? (value : Json) : Option Pattern := do
  let fields ← value.record? [
    ("pattern_id", .required), ("pattern_type", .required), ("content", .required),
    ("frequency", .required), ("baseline", .defaulted), ("confidence", .required),
    ("contexts", .required), ("examples", .required), ("version", .required),
    ("created_at", .required), ("last_seen", .required)]
  match fields with
  | [id, category, content, frequency, baseline, confidence, contexts, examples, version,
      createdAt, lastSeen] =>
    some {
      id := ← Json.need? Json.asText? id
      category := ← Json.need? (fun v => v.asChoice?.bind Category.ofName?) category
      content := ← Json.need? PatternContent.ofJson? content
      frequency := ← Json.need? Json.asWord64? frequency
      baseline := ← Json.orElse? 0 Json.asWord64? baseline
      confidence := ← Json.need? Json.asReal? confidence
      contexts := ← Json.need? (Json.asList? Json.asText?) contexts
      examples := ← Json.need? (Json.asList? PatternExample.ofJson?) examples
      version := ← Json.need? Json.asWord64? version
      createdAt := ← Json.need? Json.asInt? createdAt
      lastSeen := ← Json.need? Json.asInt? lastSeen }
  | _ => none

/-- The same number. A NaN is not the same as itself, and the zeros are not told apart. -/
def sameConfidence (a b : Float) : Bool := a == b

/-- Whether all that is derived from evidence is the same. -/
def sameDerived (a b : Pattern) : Bool :=
  a.frequency == b.frequency && a.baseline == b.baseline &&
    sameConfidence a.confidence b.confidence && a.contexts == b.contexts &&
    a.examples == b.examples && a.lastSeen == b.lastSeen

/-- Equality in every field. -/
def same (a b : Pattern) : Bool :=
  a.id == b.id && a.category == b.category && a.content == b.content && sameDerived a b &&
    a.version == b.version && a.createdAt == b.createdAt

end Pattern

end HouseStyle
