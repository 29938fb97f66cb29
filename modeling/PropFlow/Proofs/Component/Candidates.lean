import PropFlow.Component.Collect
import PropFlow.Proofs.Syntax.Sites

namespace PropFlow

open Syntax

-- What is looked at as a component: a function with the name it goes under, if it has one, or a
-- class with its name.
inductive Candidate where
  | function (func : Node) (bound : Option String)
  | klass (node : Node) (bound : String)

namespace Candidate

def name : Candidate → String
  | function _ bound => bound.getD defaultName
  | klass _ bound => bound

def verdict : Candidate → Verdict
  | function func bound => .ofFunction func bound
  | klass node _ => .ofClass node

def harvest (c : Candidate) : Harvest :=
  match c with
  | function func _ => .ofFunction func c.name
  | klass node _ => .ofClass node c.name

-- The component of a candidate that is accepted.
def component? (file : String) (c : Candidate) : Option Component :=
  if c.verdict.accepted then some (.build c.name file c.harvest.items) else none

theorem component?_eq_some {file : String} {c : Candidate} {built : Component}
    (h : c.component? file = some built) : built.name = c.name ∧ built.file = file := by
  unfold component? at h
  split at h
  · cases h
    exact ⟨rfl, rfl⟩
  · cases h

end Candidate

namespace Syntax.Node

def declaredFunction? (n : Node) : Option Candidate :=
  if n.isFunctionDeclaration then n.nonemptyName?.map fun name => .function n (some name) else none

-- The function that a declarator binds to a name.
def boundFunction? (n : Node) : Option Candidate :=
  n.declaratorFunction?.bind fun func =>
    (n.declaratorName?.filter (· ≠ "")).map fun name => .function func (some name)

-- The function that is the value of an export statement without a declaration.
def exportedFunction? (n : Node) : Option Candidate :=
  if n.kind = "export_statement" ∧ (n.child? .declaration).isNone then
    ((n.child? .value).filter (·.isFunctionExpression)).map fun value => .function value value.nonemptyName?
  else none

def declaredClass? (n : Node) : Option Candidate :=
  if n.isClassDeclaration then n.nonemptyName?.map (.klass n) else none

-- Declarations of variables, which hold the declarators.
def isVariableDeclaration (n : Node) : Bool :=
  n.kind ∈ ["lexical_declaration", "variable_declaration"]

-- The functions that a declaration brings when it is exported.
def declaredFunctions (n : Node) : List Candidate :=
  n.declaredFunction?.toList ++
    if n.isVariableDeclaration then n.parts.filterMap boundFunction? else []

-- The functions in the declaration of an export statement.
def exportedDeclarations (n : Node) : List Candidate :=
  if n.kind = "export_statement" then (n.child? .declaration).toList.flatMap declaredFunctions else []

section Families

variable {n : Node}

-- Function declarations are of no other kind that is looked for.
theorem kind_of_isFunctionDeclaration (h : n.isFunctionDeclaration = true) :
    n.kind ≠ "variable_declarator" ∧ n.kind ≠ "export_statement" ∧
      n.isClass = false ∧ n.isVariableDeclaration = false := by
  have hkinds : n.kind = "function_declaration" ∨ n.kind = "generator_function_declaration" := by
    simpa [isFunctionDeclaration] using h
  rcases hkinds with hkind | hkind <;> simp [hkind, isClass, isClassDeclaration, isVariableDeclaration]

theorem declaredFunction?_eq_none (h : n.isFunctionDeclaration = false) : n.declaredFunction? = none := by
  simp [declaredFunction?, h]

theorem boundFunction?_eq_none (h : n.kind ≠ "variable_declarator") : n.boundFunction? = none := by
  simp [boundFunction?, declaratorFunction?, h]

theorem exportedFunction?_eq_none (h : n.kind ≠ "export_statement") : n.exportedFunction? = none := by
  simp [exportedFunction?, h]

theorem declaredClass?_eq_none (h : n.isClassDeclaration = false) : n.declaredClass? = none := by
  simp [declaredClass?, h]

theorem exportedDeclarations_eq_nil (h : n.kind ≠ "export_statement") : n.exportedDeclarations = [] := by
  simp [exportedDeclarations, h]

end Families

end Syntax.Node

namespace Finding

def candidate? : Finding → Option Candidate
  | .function _ func bound => some (.function func bound)
  | .klass node bound => some (.klass node bound)
  | .mention _ => none

theorem component?_eq (file : String) (f : Finding) :
    f.component? file = f.candidate?.bind (Candidate.component? file) := by
  cases f <;> rfl

theorem candidate?_ofDeclarator (note : String → Note) (declarator : Node) :
    (ofDeclarator note declarator).bind candidate? = declarator.boundFunction? := by
  unfold ofDeclarator Node.boundFunction?
  split
  · rename_i func name hfunc hname
    rw [hfunc, Option.bind_some, hname]
    rfl
  · rename_i hnone
    cases hfunc : declarator.declaratorFunction? with
    | none => rfl
    | some func =>
        cases hname : declarator.declaratorName?.filter (· ≠ "") with
        | none => rfl
        | some name => exact absurd hname (hnone func name hfunc)

theorem candidates_ofDeclaration (declaration : Node) :
    (ofDeclaration declaration).filterMap candidate? = declaration.declaredFunctions := by
  unfold ofDeclaration Node.declaredFunctions
  split
  · rename_i hfunction
    obtain ⟨-, -, -, hvariable⟩ := Node.kind_of_isFunctionDeclaration hfunction
    cases hname : declaration.nonemptyName? <;>
      simp [Node.declaredFunction?, hfunction, hvariable, hname, candidate?]
  · rename_i hfunction
    rw [Node.declaredFunction?_eq_none (Bool.eq_false_iff.mpr hfunction)]
    by_cases hvariable : declaration.isVariableDeclaration
    · have hkinds : declaration.kind = "lexical_declaration" ∨ declaration.kind = "variable_declaration" := by
        simpa [Node.isVariableDeclaration] using hvariable
      rw [if_pos hkinds, if_pos hvariable, List.filterMap_filterMap]
      simp [candidate?_ofDeclarator]
    · have hkinds : ¬(declaration.kind = "lexical_declaration" ∨
          declaration.kind = "variable_declaration") := by
        simpa [Node.isVariableDeclaration] using hvariable
      simp [hkinds, hvariable]

theorem candidates_ofExport {statement : Node} (h : statement.kind = "export_statement") :
    (ofExport statement).filterMap candidate? =
      statement.exportedDeclarations ++ statement.exportedFunction?.toList := by
  unfold ofExport Node.exportedDeclarations Node.exportedFunction?
  cases hdeclaration : statement.child? .declaration with
  | some declaration => simp [h, candidates_ofDeclaration]
  | none =>
      cases hvalue : statement.child? .value with
      | none => simp
      | some value =>
          cases hfunction : value.isFunctionExpression with
          | true =>
              cases hname : value.nonemptyName? <;>
                simp [h, ofExportedValue, hfunction, hname, candidate?, Option.filter]
          | false =>
              by_cases hname : value.kind = "identifier" <;>
                simp [ofExportedValue, hfunction, hname, candidate?, Option.filter]

-- What is found at a place, by what stands there. Declarations in an export statement are found
-- with the statement.
theorem candidates_atSite (site : Site) :
    (atSite site).filterMap candidate? =
      site.node.exportedDeclarations ++ site.node.exportedFunction?.toList ++
        (if isExport site.parent? then [] else site.node.declaredFunction?.toList) ++
        (if isExport (site.above.drop 1).head? then [] else site.node.boundFunction?.toList) ++
        site.node.declaredClass?.toList := by
  unfold atSite
  dsimp only
  split
  · rename_i hexport
    have hfunction : site.node.isFunctionDeclaration = false := by
      simp [Node.isFunctionDeclaration, hexport]
    have hclass : site.node.isClassDeclaration = false := by simp [Node.isClassDeclaration, hexport]
    have hdeclarator : site.node.kind ≠ "variable_declarator" := by simp [hexport]
    simp [candidates_ofExport hexport, Node.declaredFunction?_eq_none hfunction,
      Node.declaredClass?_eq_none hclass, Node.boundFunction?_eq_none hdeclarator]
  · rename_i hexport
    rw [Node.exportedDeclarations_eq_nil hexport, Node.exportedFunction?_eq_none hexport]
    split
    · rename_i hfunction
      obtain ⟨hdeclarator, -, hclass, -⟩ := Node.kind_of_isFunctionDeclaration hfunction
      rw [Node.declaredClass?_eq_none (Bool.or_eq_false_iff.mp hclass).1,
        Node.boundFunction?_eq_none hdeclarator]
      by_cases hparent : isExport site.parent?
      · simp [hparent]
      · cases hname : site.node.nonemptyName? <;>
          simp [hparent, Node.declaredFunction?, hfunction, hname, candidate?]
    · rename_i hfunction
      rw [Node.declaredFunction?_eq_none (Bool.eq_false_iff.mpr hfunction)]
      split
      · rename_i hdeclarator
        have hclass : site.node.isClassDeclaration = false := by
          simp [Node.isClassDeclaration, hdeclarator]
        rw [Node.declaredClass?_eq_none hclass]
        by_cases hexported : isExport (site.above.drop 1).head?
        · rw [if_pos hexported, if_pos hexported]
          simp
        · rw [if_neg hexported, if_neg hexported, ← candidate?_ofDeclarator .variableDeclared]
          cases hfound : ofDeclarator .variableDeclared site.node with
          | none => simp
          | some f => cases hf : f.candidate? <;> simp [hf]
      · rename_i hdeclarator
        rw [Node.boundFunction?_eq_none hdeclarator]
        split
        · rename_i hclass
          cases hname : site.node.nonemptyName? <;>
            simp [Node.declaredClass?, hclass, hname, candidate?]
        · rename_i hclass
          simp [Node.declaredClass?_eq_none (Bool.eq_false_iff.mpr hclass)]

end Finding

namespace Module

-- The functions and classes that are classified in a module, one after the other.
def classified (m : Module) : List Candidate :=
  m.findings.filterMap Finding.candidate?

theorem classified_eq_flatMap (m : Module) : m.classified =
    (Site.top m.root).walk.flatMap fun site => (Finding.atSite site).filterMap Finding.candidate? := by
  rw [classified, findings, List.filterMap_flatMap]

theorem components_eq (m : Module) :
    m.components = m.classified.filterMap (Candidate.component? m.path.text) := by
  rw [classified, List.filterMap_filterMap, components]
  congr 1
  funext f
  exact f.component?_eq m.path.text

end Module

end PropFlow
