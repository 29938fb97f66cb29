import PropFlow.Syntax.Kind

namespace PropFlow.Syntax.Node

def tagName? (tag : Node) : Option Node :=
  tag.child? .name

-- Name and value of one plain attribute; spread attributes are none.
def attribute? (part : Node) : Option (Node × Option Node) :=
  if part.kind = "jsx_attribute" then
    match part.parts with
    | name :: rest => some (name, rest.head?)
    | [] => none
  else
    none

def attributes (tag : Node) : List (Node × Option Node) :=
  tag.parts.filterMap attribute?

-- The expression in the braces of an attribute value.
def embedded? (value : Node) : Option Node :=
  if value.kind = "jsx_expression" then value.firstPart? else none

end PropFlow.Syntax.Node
