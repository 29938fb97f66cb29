import PropFlow.Syntax.Kind

namespace PropFlow.Syntax

-- Takes off a pair of equal quotes around a text, if there is one.
def unquote (text : String) : String :=
  match text.toList with
  | q :: rest =>
    if q ∈ ['\x27', '\x22', '\x60'] ∧ rest.getLast? = some q then String.ofList rest.dropLast else text
  | [] => text

namespace Node

-- The text between the quotes of a string literal; escapes are left as they are written.
def stringValue? (n : Node) : Option String :=
  if n.kind = "string" then some (unquote n.text) else none

-- Object and property of `object.property`, in expressions and in JSX tag names. A tag name may
-- come without field names, and then its first and last part stand for the two.
def memberParts (n : Node) : Option Node × Option Node :=
  if n.kind = "member_expression" ∨ n.kind = "nested_identifier" then
    match n.child? .object, n.child? .property with
    | some object, some property => (some object, some property)
    | object, property =>
      match n.parts with
      | first :: second :: rest => (some first, some ((second :: rest).getLast (by simp)))
      | _ => (object, property)
  else
    (none, none)

-- The name of the called function: `useState` both in `useState()` and in `React.useState()`.
def calleeName? (call : Node) : Option String := do
  let callee ← call.child? .function
  match callee.kind with
  | "identifier" => some callee.text
  | "member_expression" => (callee.child? .property).map (·.text)
  | _ => none

-- The context that `X.Provider` provides; an `X` that is no plain identifier is called `Context`.
def providedContext? (target : Node) : Option String :=
  match target.memberParts with
  | (_, none) => none
  | (object, some property) =>
    if property.text = "Provider" then
      match object.filter (·.kind == "identifier") with
      | some object => some object.text
      | none => some "Context"
    else
      none

-- The expression inside any number of parentheses.
def unparenthesized? (n : Node) : Option Node :=
  if n.kind = "parenthesized_expression" then
    match _h : n.firstPart? with
    | some inner => inner.unparenthesized?
    | none => none
  else
    some n
termination_by n.size
decreasing_by exact size_lt_of_firstPart? _h

end Node

end PropFlow.Syntax
