import PropFlow.Syntax.Declaration
import PropFlow.Syntax.Expression
import PropFlow.Syntax.Walk
import PropFlow.Trace

namespace PropFlow

open Syntax

-- Why something is or is not a component.
inductive Reason where
  | extendsComponent
  | plainClass
  | smallLetter
  | returnsJsx
  | returnsParenthesized
  | returnsConditional
  | returnsLogical
  | containsJsx
  | returnsOnly
  | noJsx
  | anonymousWithoutJsx
deriving DecidableEq, Repr, Inhabited

def Reason.text : Reason → String
  | extendsComponent => "extends Component"
  | plainClass => "does not extend Component"
  | smallLetter => "doesn't start with uppercase"
  | returnsJsx => "returns JSX directly"
  | returnsParenthesized => "returns JSX in parentheses"
  | returnsConditional => "returns JSX conditionally"
  | returnsLogical => "returns JSX in logical expression"
  | containsJsx => "contains JSX"
  | returnsOnly => "uppercase name with return statements"
  | noJsx => "no JSX found"
  | anonymousWithoutJsx => "anonymous function without JSX"

-- Whether a function or class is a component, with what was seen in its body.
structure Verdict where
  accepted : Bool
  reason : Reason
  hasJsx : Bool
  returns : Nat
deriving DecidableEq, Repr, Inhabited

namespace Verdict

def startsUppercase (name : String) : Bool :=
  match name.toList with
  | c :: _ => decide ('A' ≤ c ∧ c ≤ 'Z')
  | [] => false

-- The class that a class extends; TypeScript wraps it in a clause of its own.
def superclassOfHeritage? : List Node → Option Node
  | [] => none
  | part :: rest =>
    if part.kind = "extends_clause" then (part.child? .value).or part.firstPart?
    else if part.kind = "implements_clause" then superclassOfHeritage? rest
    else some part

-- The heritage clauses are looked through until one of them names a class.
def superclassOfParts? : List Node → Option Node
  | [] => none
  | part :: rest =>
    if part.kind = "class_heritage" then
      if part.parts.all (·.kind == "implements_clause") then superclassOfParts? rest
      else superclassOfHeritage? part.parts
    else superclassOfParts? rest

def superclass? (node : Node) : Option Node :=
  superclassOfParts? node.parts

-- A class is a component when it extends `Component` or `X.Component`.
def extendsComponent (node : Node) : Bool :=
  match superclass? node with
  | none => false
  | some parent =>
    match parent.kind with
    | "identifier" => parent.text == "Component"
    | "member_expression" => (parent.child? .property).any (·.text == "Component")
    | _ => false

def ofClass (node : Node) : Verdict :=
  if extendsComponent node then ⟨true, .extendsComponent, false, 0⟩
  else ⟨false, .plainClass, false, 0⟩

def isJsxBelow (n : Option Node) : Bool :=
  (n.bind (·.unparenthesized?)).any (·.isJsx)

-- What the argument of a `return` says, parentheses taken off.
def plainSignal? (argument : Node) : Option Reason :=
  if argument.kind = "ternary_expression" then
    if isJsxBelow (argument.child? .consequence) || isJsxBelow (argument.child? .alternative) then
      some .returnsConditional
    else
      none
  else if argument.kind = "binary_expression" then
    if (argument.child? .operator).any (fun op => op.text ∈ ["&&", "||", "??"])
        && isJsxBelow (argument.child? .right) then
      some .returnsLogical
    else
      none
  else
    none

-- How the argument of a `return` is JSX, if it is.
def returnSignal? (argument : Node) : Option Reason :=
  if argument.isJsx then some .returnsJsx
  else if argument.kind = "parenthesized_expression" then
    match argument.unparenthesized? with
    | none => none
    | some inner => if inner.isJsx then some .returnsParenthesized else plainSignal? inner
  else
    plainSignal? argument

-- What a node of a body says for its function being a component.
def signal? (n : Node) : Option Reason :=
  if n.kind = "return_statement" then n.firstPart?.bind returnSignal?
  else if n.isJsx then some .containsJsx
  else none

-- The nodes of a body that belong to the function itself.
def ownNodes (body : Node) : List Node :=
  ((Site.top body).walkPruned (·.isNestedDeclaration)).map (·.node)

-- The first sign of JSX in a function's body and the number of its `return` statements. A body
-- that is JSX has none.
def scan (func : Node) : Option Reason × Nat :=
  match func.body? with
  | none => (none, 0)
  | some body =>
    if body.isJsx then (some .returnsJsx, 0)
    else
      let nodes := ownNodes body
      (nodes.findSome? signal?, nodes.countP (·.kind == "return_statement"))

-- A function is a component when its name, if it has one, starts with a capital and its body has
-- JSX in it; under such a name a `return` will do as well. An empty name is none.
def ofFunction (func : Node) (name : Option String) : Verdict :=
  let name := name.filter (· ≠ "")
  if name.any (!startsUppercase ·) then ⟨false, .smallLetter, false, 0⟩
  else
    match scan func with
    | (some reason, returns) => ⟨true, reason, true, returns⟩
    | (none, returns) =>
      if name.isSome && returns > 0 then ⟨true, .returnsOnly, false, returns⟩
      else ⟨false, if name.isSome then .noJsx else .anonymousWithoutJsx, false, returns⟩

def outcome (v : Verdict) (label : String) : Note :=
  if v.accepted then .accepted label v.reason.text else .rejected label v.reason.text

def functionNotes (v : Verdict) (name : Option String) : List Note :=
  let label := (name.filter (· ≠ "")).getD "anonymous function"
  let seen :=
    if v.reason = .smallLetter then Note.misnamed label v.reason.text
    else Note.scanned label v.hasJsx v.returns
  [seen, v.outcome label]

def classNotes (v : Verdict) (name : String) : List Note :=
  [.classDeclared name, v.outcome name]

end Verdict

end PropFlow
