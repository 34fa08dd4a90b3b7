import HouseStyle.Learning.Delta
import HouseStyle.Pattern.Basic

/-!
# The stored form of a pattern

A pattern's row holds its content, contexts and examples as JSON texts and its counts
as signed words. The category is not read back from the row: it is the content's.
-/

namespace HouseStyle.Pattern

def toRow (p : Pattern) : PatternRow where
  patternId := p.id
  patternType := p.category.name
  slot := p.slot
  content := p.content.toJson.render
  frequency := storedWord p.frequency
  baseline := storedWord p.baseline
  confidence := p.confidence
  contexts := (Json.ofTexts p.contexts).render
  examples := (Json.list (p.examples.map (·.toJson))).render
  version := storedWord p.version
  createdAt := p.createdAt
  lastSeen := p.lastSeen

/-- The content written in a stored text. -/
def readContent (source : String) : Except StorageError PatternContent :=
  match (Json.parse? source).bind PatternContent.ofJson? with
  | some content => .ok content
  | none => .error (.serialization "pattern content" none)

def readExamples (source : String) : Except StorageError (List PatternExample) :=
  match (Json.parse? source).bind (Json.asList? PatternExample.ofJson?) with
  | some examples => .ok examples
  | none => .error (.serialization "pattern examples" none)

def ofRow (row : PatternRow) : Except StorageError Pattern := do
  let content ← readContent row.content
  let contexts ← readTexts "pattern contexts" row.contexts
  let examples ← readExamples row.examples
  return {
    id := row.patternId
    category := content.category
    content
    frequency := readWord row.frequency
    baseline := readWord row.baseline
    confidence := row.confidence
    contexts
    examples
    version := readWord row.version
    createdAt := row.createdAt
    lastSeen := row.lastSeen }

end HouseStyle.Pattern
