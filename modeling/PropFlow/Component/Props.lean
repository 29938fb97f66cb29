import PropFlow.Syntax.Declaration
import PropFlow.Syntax.Pattern
import PropFlow.Syntax.Walk
import PropFlow.Trace

namespace PropFlow

open Syntax

-- Where a function component's props can be read off: from a pattern in place of its first
-- parameter, or from the uses of a first parameter called `props`.
inductive PropSource where
  | absent
  | destructured (keys : List String)
  | used (names : List String)
deriving DecidableEq, Repr

namespace PropSource

-- The `x` of `props.x`.
def usedProp? (n : Node) : Option String := do
  guard (n.kind = "member_expression")
  let object ← n.child? .object
  let property ← n.child? .property
  guard (object.kind = "identifier" ∧ object.text = "props" ∧ property.kind = "property_identifier")
  return property.text

def usesIn (body : Node) : List String :=
  ((Site.top body).walk.filterMap fun site => usedProp? site.node).eraseDups

def ofFunction (func : Node) : PropSource :=
  match func.params with
  | [] => absent
  | param :: _ =>
    let first := param.boundPattern
    if first.kind = "object_pattern" then destructured first.objectKeys
    else if first.kind = "identifier" ∧ first.text = "props" then
      used ((func.body?.map usesIn).getD [])
    else absent

def names : PropSource → List String
  | absent => []
  | destructured keys => keys
  | used names => names

def steps : PropSource → List Note
  | absent => []
  | destructured keys => keys.map .propDestructured
  | used names => .propsParameter :: names.map .propUsed

def notes (s : PropSource) (component : String) : List Note :=
  .propsEntered component :: s.steps ++ [.propsDone component s.names]

end PropSource

end PropFlow
