import PropFlow.Syntax.Kind

namespace PropFlow.Syntax.Node

-- The slots of an array pattern, read token by token. `pending` is what stands in the slot that
-- is not closed yet. A comma closes a slot, the final bracket only one that holds something.
def slotsFrom (pending : Option Node) : List Node → List (Option Node)
  | [] => []
  | token :: rest =>
    if token.kind = "[" ∨ token.isComment then slotsFrom pending rest
    else if token.kind = "," then pending :: slotsFrom none rest
    else if token.kind = "]" then
      match pending with
      | some _ => pending :: slotsFrom pending rest
      | none => slotsFrom none rest
    else slotsFrom (some token) rest

-- The slots of an array pattern; a hole such as the first in `[, b]` is `none`.
def arraySlots (pattern : Node) : List (Option Node) :=
  slotsFrom none pattern.children

-- The key that one part of an object pattern takes out of the object. A rest element is written
-- with three dots in front.
def destructuredKey? (part : Node) : Option String :=
  match part.kind with
  | "shorthand_property_identifier_pattern" => some part.text
  | "object_assignment_pattern" =>
    ((part.child? .left).filter (·.kind == "shorthand_property_identifier_pattern")).map (·.text)
  | "pair_pattern" =>
    ((part.child? .key).filter (·.kind == "property_identifier")).map (·.text)
  | "rest_pattern" =>
    (part.firstPart?.filter (·.kind == "identifier")).map ("..." ++ ·.text)
  | _ => none

def objectKeys (pattern : Node) : List String :=
  pattern.parts.filterMap destructuredKey?

end PropFlow.Syntax.Node
