import PropFlow.Component.Collect
import PropFlow.Component.Registry
import PropFlow.Flow.Basic
import PropFlow.ModuleLink

namespace PropFlow.Flow

open Syntax

-- The name under which a node declares something that may be a component. An exported function
-- expression without a name goes under the default name.
def declaredAs? (n : Node) (parent : Option Node) : Option String :=
  if n.isFunctionDeclaration || n.isClass then n.declaredName?
  else if n.declaratorFunction?.isSome then n.declaratorName?
  else if n.isFunctionExpression && Finding.isExport parent then
    some (n.nonemptyName?.getD defaultName)
  else none

-- The nearest of the nodes above a place that declares a known component.
def enclosing? (registry : Registry) (file : String) : List Node → Option Component
  | [] => none
  | n :: above =>
    ((declaredAs? n above.head?).bind (registry.get? · file)).or (enclosing? registry file above)

-- The parent's item that an attribute value passes on: by its name, or as the last name of
-- `object.name`.
def passedItem? (parent : Component) (value : Option Node) : Option Item := do
  let expression ← value.bind (·.embedded?)
  match expression.kind with
  | "identifier" => parent.findItem? expression.text none
  | "member_expression" =>
    let property ← (expression.child? .property).filter (·.kind == "property_identifier")
    parent.findItem? property.text none
  | _ => none

-- A flow with the note on it.
def ofAttribute? (parent child : Component) (attr : Node × Option Node) : Option (Flow × Note) := do
  let prop := attr.1.text
  let target ← child.findItem? prop (some [.prop, .propFunction])
  let source ← passedItem? parent attr.2
  return (
    { id := Item.flowOf prop
      source := source.id
      target := target.id
      type := (FlowType.between (some source.kind) (some target.kind)).label
      sourceFile := parent.file
      targetFile := child.file },
    .flowFound parent.name source.name child.name prop)

-- The component that a tag renders and the one it is rendered by.
def rendering? (registry : Registry) (file : String) (links : Links) (site : Site) :
    Option (Component × Component) := do
  guard site.node.isJsxTag
  let tag ← site.node.tagName?.filter (·.kind == "identifier")
  guard (Verdict.startsUppercase tag.text)
  let child ← registry.lookupTag? tag.text file ((links.get? tag.text).map (·.text))
  let parent ← enclosing? registry file site.above
  return (parent, child)

structure Inferred where
  flows : List Flow
  notes : List Note
deriving DecidableEq, Repr

def atSite (registry : Registry) (file : String) (links : Links) (site : Site) : Inferred :=
  match rendering? registry file links site with
  | none => ⟨[], []⟩
  | some (parent, child) =>
    let found := site.node.attributes.filterMap (ofAttribute? parent child)
    ⟨found.map (·.1), .rendered parent.name child.name :: found.map (·.2)⟩

-- The flows that the tags of a module show.
def ofModule (registry : Registry) (m : Module) (links : Links) : Inferred :=
  let found := (Site.top m.root).walk.map (atSite registry m.path.text links)
  ⟨found.flatMap (·.flows), found.flatMap (·.notes)⟩

def infer (registry : Registry) (modules : List (Module × Links)) : Inferred :=
  let found := modules.map fun (m, links) => ofModule registry m links
  ⟨found.flatMap (·.flows), found.flatMap (·.notes)⟩

end PropFlow.Flow
