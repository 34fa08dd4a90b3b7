/-!
# Case styles

The five ways of writing an identifier of several words.
-/

namespace HouseStyle

inductive CaseStyle where
  | camel
  | pascal
  | snake
  | screamingSnake
  | kebab
  deriving DecidableEq, Repr, Inhabited

namespace CaseStyle

def all : List CaseStyle := [camel, pascal, snake, screamingSnake, kebab]

def name : CaseStyle → String
  | camel => "camelCase"
  | pascal => "PascalCase"
  | snake => "snake_case"
  | screamingSnake => "SCREAMING_SNAKE_CASE"
  | kebab => "kebab-case"

def ofName? (text : String) : Option CaseStyle := all.find? (·.name == text)

end CaseStyle

end HouseStyle
