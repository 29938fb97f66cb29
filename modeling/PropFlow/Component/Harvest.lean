import PropFlow.Component.Basic
import PropFlow.Component.Props
import PropFlow.Syntax.Expression
import PropFlow.Syntax.Jsx

namespace PropFlow

open Syntax

-- The items of one component as they are gathered. `placeholders` counts the names made up for
-- slots that hold no identifier.
structure Harvest where
  items : List Item
  placeholders : Nat
  notes : List Note
deriving DecidableEq, Repr

namespace Harvest

def empty : Harvest :=
  ⟨[], 0, []⟩

def note (h : Harvest) (n : Note) : Harvest :=
  { h with notes := h.notes ++ [n] }

-- An item that is already there is not taken a second time.
def add (h : Harvest) (item : Item) : Harvest :=
  if item ∈ h.items then h else { h with items := h.items ++ [item] }

-- The name in a slot, or a made-up one that starts with `stem`.
def slotName (h : Harvest) (slot : Option Node) (stem : String) : String × Harvest :=
  match slot.filter (·.kind == "identifier") with
  | some n => (n.text, h)
  | none => (stem ++ toString h.placeholders, { h with placeholders := h.placeholders + 1 })

-- What the setter slot of a state hook's result is called when it has no name.
def setterStem? : String → Option String
  | "useState" => some "setter"
  | "useReducer" => some "dispatch"
  | _ => none

-- What a call's value is bound to, when the call initialises a variable.
def binding? (site : Site) : Option Node := do
  let declarator ← site.parent?
  guard (declarator.kind = "variable_declarator")
  let value ← declarator.child? .value
  guard (value.same site.node)
  declarator.child? .name

def statePair (component stem : String) (slots : List (Option Node)) (h : Harvest) : Harvest :=
  match slots with
  | first :: second :: _ =>
    let (state, h) := h.slotName first "state"
    let (setter, h) := h.slotName second stem
    ((h.note (.statePair state setter)).add
      (Item.create component state .state (Item.flowOf state) none)).add
      (Item.create component setter .setter (Item.flowOf state) none)
  | _ => h

def hookCall (component : String) (site : Site) (hook : String) (h : Harvest) : Harvest :=
  match setterStem? hook with
  | some stem =>
    let h := h.note (.hookFound hook component)
    match (binding? site).filter (·.kind == "array_pattern") with
    | some pattern => statePair component stem pattern.arraySlots h
    | none => h
  | none =>
    if hook = "useContext" then
      let h := h.note (.hookFound hook component)
      match (binding? site).filter (·.kind == "identifier") with
      | some n =>
        h.add (Item.create component n.text .contextConsumer (Item.contextOf n.text)
          (some (n.text ++ "()")))
      | none => h
    else
      h

def provider (component context : String) (h : Harvest) : Harvest :=
  h.add (Item.create component (context ++ "Provider") .contextProvider (Item.contextOf context) none)

def localFunction (component name : String) (h : Harvest) : Harvest :=
  h.add (Item.create component name .function (Item.flowOf name) none)

def call (component : String) (site : Site) (h : Harvest) : Harvest :=
  let h := match site.node.calleeName? with
    | some hook => hookCall component site hook h
    | none => h
  match (site.node.child? .function).bind (·.providedContext?) with
  | some context => provider component context (h.note (.providerCalled context))
  | none => h

-- What one node of a function component's body adds.
def visit (component : String) (h : Harvest) (site : Site) : Harvest :=
  let n := site.node
  if n.kind = "call_expression" then call component site h
  else if n.isJsxTag then
    match n.tagName?.bind (·.providedContext?) with
    | some context => provider component context (h.note (.providerRendered context))
    | none => h
  else if n.isFunctionDeclaration then
    match n.nonemptyName?.filter (· ≠ component) with
    | some name => localFunction component name (h.note (.functionFound name))
    | none => h
  else if n.kind = "variable_declarator" then
    match n.declaratorName?.filter (· ≠ ""), (n.child? .value).filter (·.kind == "arrow_function") with
    | some name, some _ => localFunction component name (h.note (.arrowFound name))
    | _, _ => h
  else h

-- The items of a function component: what its body brings, in document order, and then its props.
def ofFunction (func : Node) (component : String) : Harvest :=
  let start := empty.note (.componentEntered component)
  let body := match func.body? with
    | some body => (Site.walk ⟨body, [func]⟩).foldl (visit component) start
    | none => start
  let props := PropSource.ofFunction func
  let all := props.names.foldl
    (fun h key => h.add (Item.create component key .prop (Item.flowOf key) none))
    { body with notes := body.notes ++ props.notes component }
  all.note (.componentDone component all.items.length)

-- The methods of a class that count as its functions.
def method? (n : Node) : Option String := do
  guard (n.kind = "method_definition")
  let key ← n.child? .name
  guard (key.kind = "property_identifier" ∧ key.text ≠ "render" ∧ key.text ≠ "constructor")
  return key.text

def ofClass (node : Node) (component : String) : Harvest :=
  let methods := match node.body? with
    | some body => (Site.top body).walk.filterMap fun (site : Site) => method? site.node
    | none => []
  methods.foldl (fun h name => localFunction component name (h.note (.methodFound name)))
    (empty.note (.classEntered component))

end Harvest

end PropFlow
