import PropFlow.Syntax.Kind

namespace PropFlow.Syntax.Node

-- The function that `const X = () => ...` or `const X = function () {}` binds.
def declaratorFunction? (n : Node) : Option Node :=
  if n.kind = "variable_declarator" then
    (n.child? .value).filter (·.isFunctionExpression)
  else
    none

-- The name a declarator binds, when it is a plain identifier and not a pattern.
def declaratorName? (n : Node) : Option String :=
  ((n.child? .name).filter (·.kind == "identifier")).map (·.text)

def declaredName? (n : Node) : Option String :=
  (n.child? .name).map (·.text)

-- The declared name of a node that has one with at least one character.
def nonemptyName? (n : Node) : Option String :=
  n.declaredName?.filter (· ≠ "")

def body? (n : Node) : Option Node :=
  n.child? .body

-- An arrow function may have one bare parameter in place of a list.
def params (n : Node) : List Node :=
  match n.child? .parameter with
  | some single => [single]
  | none =>
    match n.child? .parameters with
    | some list => list.parts
    | none => []

-- The pattern that a parameter binds, without its type annotation and default value.
def boundPattern (param : Node) : Node :=
  let plain :=
    if param.kind = "required_parameter" ∨ param.kind = "optional_parameter" then
      (param.child? .pattern).getD param
    else
      param
  if plain.kind = "assignment_pattern" then (plain.child? .left).getD plain else plain

-- Functions and classes declared inside a body: what stands in them is theirs.
def isNestedDeclaration (n : Node) : Bool :=
  n.isFunctionDeclaration || n.isClass || n.declaratorFunction?.isSome

end PropFlow.Syntax.Node
