/-!
The format of the tool's debugging log.
-/

namespace ProtoLayout

inductive LogFormat where
  | text
  /-- Lines indented by the nesting of what they report on. -/
  | tree
  | json
deriving DecidableEq, Repr

def LogFormat.name : LogFormat → String
  | .text => "Text"
  | .tree => "Tree"
  | .json => "Json"

/-- The format a setting names, in any case; flat lines for anything else. -/
def LogFormat.parse (setting : String) : LogFormat :=
  match String.ofList (setting.toList.map Char.toLower) with
  | "tree" => .tree
  | "json" => .json
  | _ => .text

end ProtoLayout
