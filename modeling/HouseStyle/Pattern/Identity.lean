import HouseStyle.Digest.Xxh3
import HouseStyle.Pattern.Content

/-!
# Pattern identity

The same rule has the same identity in every project: a digest of its category
and its canonical text, kept apart by a NUL character.
-/

namespace HouseStyle.PatternContent

/-- The text whose digest identifies the rule. -/
def identityText (content : PatternContent) : String :=
  content.category.name ++ "\x00" ++ content.canonicalText

def id (content : PatternContent) : String := Digest.ofText content.identityText

end HouseStyle.PatternContent
