import HouseStyle.Extraction.Observation
import HouseStyle.Json.Lookup

/-!
# The written form of extractions and observations
-/

namespace HouseStyle

namespace Concept

def toJson (concept : Concept) : Json :=
  .object [
    ("name", .text concept.name),
    ("kind", .text concept.kind.name),
    ("confidence", .ofReal concept.confidence),
    ("location", .object [
      ("line_start", .ofNat concept.lineStart), ("line_end", .ofNat concept.lineEnd)])]

def ofJson (value : Json) : Concept :=
  let location := value.objectAt "location"
  ⟨value.textAt "name", ConceptKind.ofName (value.textAt "kind"), value.realAt "confidence",
    location.wordAt "line_start", location.wordAt "line_end"⟩

end Concept

namespace Extraction

def toJson (extraction : Extraction) : Json :=
  .object [
    ("concepts", .list (extraction.concepts.map (·.toJson))),
    ("degraded", .bool extraction.degraded)]

def ofJson (value : Json) : Extraction :=
  ⟨(value.listAt "concepts").map Concept.ofJson, value.boolAt "degraded"⟩

end Extraction

namespace Observation

def toJson (o : Observation) : Json :=
  .object [
    ("content", o.content.toJson),
    ("line", .ofNat o.line),
    ("snippet", .text o.snippet),
    ("subject", .ofOption .text o.subject)]

def ofJson? (value : Json) : Option Observation := do
  let content ← (value.field? "content").bind PatternContent.ofJson?
  some ⟨content, value.wordAt "line", value.textAt "snippet", value.optionalTextAt "subject"⟩

end Observation

end HouseStyle
