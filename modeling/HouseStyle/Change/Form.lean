import HouseStyle.Change
import HouseStyle.Json.Decode

/-!
# The written form of file changes
-/

namespace HouseStyle

namespace FileChange

def toJson (change : FileChange) : Json :=
  .object [
    ("path", .text change.path),
    ("kind", .text change.kind.name),
    ("previous_path", .ofOption .text change.previousPath),
    ("revision", .ofOption .text change.revision)]

def ofJson? (value : Json) : Option FileChange := do
  let fields ← value.record? [("path", .required), ("kind", .required),
    ("previous_path", .defaulted), ("revision", .defaulted)]
  match fields with
  | [path, kind, previousPath, revision] =>
    some {
      path := ← Json.need? Json.asText? path
      kind := ← Json.need? (fun v => v.asChoice?.bind ChangeKind.ofName?) kind
      previousPath := ← Json.orElse? none (Json.asOption? Json.asText?) previousPath
      revision := ← Json.orElse? none (Json.asOption? Json.asText?) revision }
  | _ => none

end FileChange

def Trigger.ofJson? (value : Json) : Option Trigger := value.asChoice?.bind Trigger.ofName?

end HouseStyle
