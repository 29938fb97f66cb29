import PropFlow.Syntax.Node

namespace PropFlow.Syntax.Node

def isFunctionDeclaration (n : Node) : Bool :=
  n.kind ∈ ["function_declaration", "generator_function_declaration"]

def isFunctionExpression (n : Node) : Bool :=
  n.kind ∈ ["arrow_function", "function_expression", "function", "generator_function"]

def isFunction (n : Node) : Bool :=
  n.isFunctionDeclaration || n.isFunctionExpression || n.kind == "method_definition"

def isClassDeclaration (n : Node) : Bool :=
  n.kind ∈ ["class_declaration", "abstract_class_declaration"]

def isClass (n : Node) : Bool :=
  n.isClassDeclaration || n.kind == "class"

def isJsx (n : Node) : Bool :=
  n.kind ∈ ["jsx_element", "jsx_self_closing_element", "jsx_fragment"]

-- The tags that carry attributes.
def isJsxTag (n : Node) : Bool :=
  n.kind ∈ ["jsx_opening_element", "jsx_self_closing_element"]

end PropFlow.Syntax.Node
