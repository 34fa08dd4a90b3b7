import HouseStyle.Extraction.Observation

/-!
# Suggested fixes

A name that breaks a naming rule can be written in the expected style; so can the
name of a file. No other rule has a mechanical fix.
-/

namespace HouseStyle

inductive FixStrategy where
  | rename
  | renameFile
  deriving DecidableEq, Repr, Inhabited

namespace FixStrategy

def all : List FixStrategy := [rename, renameFile]

def name : FixStrategy → String
  | rename => "rename"
  | renameFile => "rename_file"

def ofName? (text : String) : Option FixStrategy := all.find? (·.name == text)

end FixStrategy

structure SuggestedFix where
  strategy : FixStrategy
  description : String
  replacement : Option String
  deriving DecidableEq, Repr, Inhabited

namespace SuggestedFix

private def renamed (subject : String) (style : CaseStyle) : SuggestedFix :=
  let name := Naming.convert subject style
  ⟨.rename, "Rename '" ++ subject ++ "' to '" ++ name ++ "' (" ++ style.name ++ ")", some name⟩

/-- A file keeps what follows its stem. -/
private def renamedFile (stem file : String) (style : CaseStyle) : SuggestedFix :=
  let newStem := Naming.convert stem style
  let name :=
    if stem.toList.isPrefixOf file.toList then
      newStem ++ String.ofList (file.toList.drop stem.toList.length)
    else newStem
  ⟨.renameFile,
    "Rename file '" ++ file ++ "' to '" ++ name ++ "' (" ++ style.name ++ ")", some name⟩

/-- The fix that brings an observation in line with an expected rule, when there is one. -/
def suggest? (observation : Observation) (expected : PatternContent) : Option SuggestedFix :=
  observation.subject.bind fun subject =>
    match expected with
    | .naming _ style =>
      if Naming.convert subject style = subject then none else some (renamed subject style)
    | .fileNaming style =>
      if Naming.convert subject style = subject then none
      else some (renamedFile subject observation.snippet style)
    | _ => none

def toJson (fix : SuggestedFix) : Json :=
  .object [
    ("strategy", .text fix.strategy.name),
    ("description", .text fix.description),
    ("replacement", .ofOption .text fix.replacement)]

def ofJson? (value : Json) : Option SuggestedFix := do
  let fields ← value.record? [("strategy", .required), ("description", .required),
    ("replacement", .optional)]
  match fields with
  | [strategy, description, replacement] =>
    some {
      strategy := ← Json.need? (fun v => v.asChoice?.bind FixStrategy.ofName?) strategy
      description := ← Json.need? Json.asText? description
      replacement := ← Json.orElse? none (Json.asOption? Json.asText?) replacement }
  | _ => none

end SuggestedFix

end HouseStyle
