import PropFlow.Component.Harvest
import PropFlow.Source
import PropFlow.Verdict

namespace PropFlow

open Syntax

-- What a place in a module may declare: a function that may be a component, a class that may be
-- one, or only a name that is declared elsewhere.
inductive Finding where
  | function (note : Note) (func : Node) (name : Option String)
  | klass (node : Node) (name : String)
  | mention (note : Note)
deriving Repr

-- The name of a component that is exported without one.
def defaultName : String := "DefaultExport"

namespace Finding

def isExport (n : Option Node) : Bool :=
  n.any (·.kind == "export_statement")

-- A function bound to a name by one declarator.
def ofDeclarator (note : String → Note) (declarator : Node) : Option Finding :=
  match declarator.declaratorFunction?, declarator.declaratorName?.filter (· ≠ "") with
  | some func, some name => some (.function (note name) func (some name))
  | _, _ => none

def ofDeclaration (declaration : Node) : List Finding :=
  if declaration.isFunctionDeclaration then
    match declaration.nonemptyName? with
    | some name => [.function (.functionExported name) declaration (some name)]
    | none => []
  else if declaration.kind = "lexical_declaration" ∨ declaration.kind = "variable_declaration" then
    declaration.parts.filterMap (ofDeclarator .variableExported)
  else []

def ofExportedValue (value : Node) : List Finding :=
  if value.isFunctionExpression then
    match value.nonemptyName? with
    | some name => [.function (.functionExported name) value (some name)]
    | none => [.function .anonymousExported value none]
  else if value.kind = "identifier" then [.mention (.nameExported value.text)]
  else []

def ofExport (statement : Node) : List Finding :=
  match statement.child? .declaration with
  | some declaration => ofDeclaration declaration
  | none =>
    match statement.child? .value with
    | some value => ofExportedValue value
    | none => []

-- What stands at a place. Functions that an export statement declares are found at that
-- statement and not again at their own place.
def atSite (site : Site) : List Finding :=
  let n := site.node
  if n.kind = "export_statement" then ofExport n
  else if n.isFunctionDeclaration then
    if isExport site.parent? then []
    else match n.nonemptyName? with
      | some name => [.function (.functionDeclared name) n (some name)]
      | none => []
  else if n.kind = "variable_declarator" then
    if isExport (site.above.drop 1).head? then []
    else (ofDeclarator .variableDeclared n).toList
  else if n.isClassDeclaration then
    match n.nonemptyName? with
    | some name => [.klass n name]
    | none => []
  else []

def verdict? : Finding → Option Verdict
  | .function _ func name => some (Verdict.ofFunction func name)
  | .klass node _ => some (Verdict.ofClass node)
  | .mention _ => none

def harvest? : Finding → Option (String × Harvest)
  | .function _ func name => some (name.getD defaultName, Harvest.ofFunction func (name.getD defaultName))
  | .klass node name => some (name, Harvest.ofClass node name)
  | .mention _ => none

-- What is said before the items of a component are gathered.
def openingNotes : Finding → List Note
  | .function note func name => note :: (Verdict.ofFunction func name).functionNotes name
  | .klass node name => (Verdict.ofClass node).classNotes name
  | .mention note => [note]

def accepted (f : Finding) : Bool :=
  f.verdict?.any (·.accepted)

def component? (file : String) (f : Finding) : Option Component :=
  if f.accepted then f.harvest?.map fun (name, harvest) => Component.build name file harvest.items
  else none

def notes (f : Finding) : List Note :=
  if f.accepted then f.openingNotes ++ (f.harvest?.map (·.2.notes)).getD []
  else f.openingNotes

end Finding

namespace Module

-- What may be a component in a module, in document order.
def findings (m : Module) : List Finding :=
  (Site.top m.root).walk.flatMap Finding.atSite

def components (m : Module) : List Component :=
  m.findings.filterMap (Finding.component? m.path.text)

def componentNotes (m : Module) : List Note :=
  m.findings.flatMap Finding.notes

end Module

end PropFlow
