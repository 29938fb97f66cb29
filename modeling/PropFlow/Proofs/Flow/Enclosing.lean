import Mathlib.Data.List.Nodup
import PropFlow.Flow.Infer
import PropFlow.Proofs.Component.Candidates
import PropFlow.Proofs.Component.Registry

namespace PropFlow

open Syntax

namespace Syntax

namespace Node

def namedClass? (n : Node) : Option Candidate :=
  if n.isClass then n.nonemptyName?.map (.klass n) else none

theorem ne_empty_of_nonemptyName? {n : Node} {name : String} (h : n.nonemptyName? = some name) :
    name ≠ "" := by
  have hfilter := (Option.filter_eq_some_iff.mp h).2
  simpa using hfilter

theorem kind_of_isClass {n : Node} (h : n.isClass = true) :
    n.isFunctionDeclaration = false ∧ n.kind ≠ "variable_declarator" ∧ n.isFunctionExpression = false := by
  have hkinds : (n.kind = "class_declaration" ∨ n.kind = "abstract_class_declaration") ∨
      n.kind = "class" := by
    simpa [isClass, isClassDeclaration] using h
  rcases hkinds with (hkind | hkind) | hkind <;>
    simp [hkind, isFunctionDeclaration, isFunctionExpression]

theorem kind_of_isFunctionExpression {n : Node} (h : n.isFunctionExpression = true) :
    n.isFunctionDeclaration = false ∧ n.isClass = false ∧ n.kind ≠ "variable_declarator" := by
  have hkinds : n.kind = "arrow_function" ∨ n.kind = "function_expression" ∨ n.kind = "function" ∨
      n.kind = "generator_function" := by
    simpa [isFunctionExpression] using h
  rcases hkinds with hkind | hkind | hkind | hkind <;>
    simp [hkind, isFunctionDeclaration, isClass, isClassDeclaration]

end Node

namespace Site

-- A function expression that is the value of an export statement.
def exportedValue? (site : Site) : Option Candidate :=
  if site.node.isFunctionExpression ∧ site.node.field = some .value ∧ Finding.isExport site.parent? then
    some (.function site.node site.node.nonemptyName?)
  else none

-- The declaration at a place: a function declaration, a named class, a function bound to a name or
-- an exported function expression.
def declaration? (site : Site) : Option Candidate :=
  site.node.declaredFunction?.or
    (site.node.namedClass?.or (site.node.boundFunction?.or site.exportedValue?))

-- The name that encloses what stands below a place is that of the declaration there.
theorem filter_declaredAs? {site : Site}
    (hvalue : site.node.isFunctionExpression = true → Finding.isExport site.parent? = true →
      site.node.field = some .value) :
    (Flow.declaredAs? site.node site.parent?).filter (· ≠ "") = site.declaration?.map Candidate.name := by
  unfold Flow.declaredAs? declaration?
  by_cases hexpression : site.node.isFunctionExpression
  · obtain ⟨hfunction, hclass, hdeclarator⟩ := Node.kind_of_isFunctionExpression hexpression
    by_cases hexport : Finding.isExport site.parent?
    · have hnonempty : site.node.nonemptyName?.getD defaultName ≠ "" := by
        cases hname : site.node.nonemptyName? with
        | none => decide
        | some name => exact Node.ne_empty_of_nonemptyName? hname
      simp [hfunction, hclass, hexpression, hexport, hvalue hexpression hexport, hnonempty,
        exportedValue?, Node.declaratorFunction?, hdeclarator, Node.declaredFunction?, Node.namedClass?,
        Node.boundFunction?, Candidate.name]
    · simp [hfunction, hclass, hexport, exportedValue?, Node.declaratorFunction?, hdeclarator,
        Node.declaredFunction?, Node.namedClass?, Node.boundFunction?]
  · have hvalueless : site.exportedValue? = none := by simp [exportedValue?, hexpression]
    rw [hvalueless, Option.or_none]
    by_cases hfunction : site.node.isFunctionDeclaration
    · obtain ⟨hdeclarator, -, hclass, -⟩ := Node.kind_of_isFunctionDeclaration hfunction
      rw [if_pos (by simp [hfunction])]
      change site.node.nonemptyName? = _
      cases hname : site.node.nonemptyName? <;>
        simp [Node.declaredFunction?, hfunction, hname, Candidate.name, Node.namedClass?, hclass,
          Node.boundFunction?_eq_none hdeclarator]
    · rw [Node.declaredFunction?_eq_none (Bool.eq_false_iff.mpr hfunction), Option.none_or]
      by_cases hclass : site.node.isClass
      · obtain ⟨-, hdeclarator, -⟩ := Node.kind_of_isClass hclass
        rw [if_pos (by simp [hclass])]
        change site.node.nonemptyName? = _
        cases hname : site.node.nonemptyName? <;>
          simp [Node.namedClass?, hclass, hname, Candidate.name, Node.boundFunction?_eq_none hdeclarator]
      · rw [if_neg (by simp [hfunction, hclass]), Node.namedClass?, if_neg hclass, Option.none_or,
          Node.boundFunction?]
        cases hbound : site.node.declaratorFunction? with
        | none => simp [hexpression]
        | some func =>
            rw [Option.isSome_some, if_pos rfl, Option.bind_some, Option.map_map]
            exact (congrFun Option.map_id _).symm

theorem declaration?_of_declaredFunction? {site : Site} {d : Candidate}
    (h : site.node.declaredFunction? = some d) : site.declaration? = some d := by
  rw [declaration?, h, Option.some_or]

theorem declaration?_of_boundFunction? {site : Site} {d : Candidate}
    (h : site.node.boundFunction? = some d) : site.declaration? = some d := by
  have hkind : site.node.kind = "variable_declarator" := by
    by_cases hkind : site.node.kind = "variable_declarator"
    · exact hkind
    · rw [Node.boundFunction?_eq_none hkind] at h
      cases h
  have hfunction : site.node.declaredFunction? = none :=
    Node.declaredFunction?_eq_none (by simp [Node.isFunctionDeclaration, hkind])
  have hclass : site.node.namedClass? = none := by
    simp [Node.namedClass?, Node.isClass, Node.isClassDeclaration, hkind]
  rw [declaration?, hfunction, hclass, h, Option.none_or, Option.none_or, Option.some_or]

theorem declaration?_of_declaredClass? {site : Site} {d : Candidate}
    (h : site.node.declaredClass? = some d) : site.declaration? = some d := by
  unfold Node.declaredClass? at h
  split at h
  · rename_i hdeclaration
    have hclass : site.node.isClass = true := by simp [Node.isClass, hdeclaration]
    have hfunction := Node.declaredFunction?_eq_none (Node.kind_of_isClass hclass).1
    rw [declaration?, hfunction, Node.namedClass?, if_pos hclass, h, Option.none_or, Option.some_or]
  · cases h

theorem declaration?_of_exportedValue? {site : Site} {d : Candidate}
    (h : site.exportedValue? = some d) : site.declaration? = some d := by
  have hexpression : site.node.isFunctionExpression = true := by
    by_cases hexpression : site.node.isFunctionExpression
    · exact hexpression
    · simp [exportedValue?, hexpression] at h
  obtain ⟨hfunction, hclass, hdeclarator⟩ := Node.kind_of_isFunctionExpression hexpression
  have hunnamed : site.node.namedClass? = none := by simp [Node.namedClass?, hclass]
  rw [declaration?, Node.declaredFunction?_eq_none hfunction, hunnamed,
    Node.boundFunction?_eq_none hdeclarator, h, Option.none_or, Option.none_or, Option.none_or]

theorem exists_declaration_of_exportedFunction? {site : Site} {d : Candidate}
    (h : site.node.exportedFunction? = some d) : ∃ s ∈ site.sites, s.declaration? = some d := by
  unfold Node.exportedFunction? at h
  split at h
  · rename_i hexport
    obtain ⟨value, hvalue, rfl⟩ := Option.map_eq_some_iff.mp h
    obtain ⟨hfound, hexpression⟩ := Option.filter_eq_some_iff.mp hvalue
    have hchild : ⟨value, site.node :: site.above⟩ ∈ site.below :=
      mem_below.mpr ⟨List.mem_of_find?_eq_some hfound, rfl⟩
    have hfield : value.field = some .value := by simpa using List.find?_some hfound
    refine ⟨_, mem_sites_of_mem_below (self_mem_sites site) hchild, declaration?_of_exportedValue? ?_⟩
    simp [exportedValue?, hexpression, hfield, parent?, Finding.isExport, hexport.1]
  · cases h

theorem exists_declaration_of_exportedDeclarations {site : Site} {d : Candidate}
    (h : d ∈ site.node.exportedDeclarations) : ∃ s ∈ site.sites, s.declaration? = some d := by
  unfold Node.exportedDeclarations at h
  split at h
  · obtain ⟨declaration, hdeclaration, hd⟩ := List.mem_flatMap.mp h
    have hfound : site.node.child? .declaration = some declaration := by simpa using hdeclaration
    have hchild : ⟨declaration, site.node :: site.above⟩ ∈ site.below :=
      mem_below.mpr ⟨List.mem_of_find?_eq_some hfound, rfl⟩
    have hsite := mem_sites_of_mem_below (self_mem_sites site) hchild
    rcases List.mem_append.mp hd with hd | hd
    · exact ⟨_, hsite, declaration?_of_declaredFunction? (by simpa using hd)⟩
    · split at hd
      · obtain ⟨declarator, hpart, hbound⟩ := List.mem_filterMap.mp hd
        have hmem := Node.mem_children_of_mem_namedChildren (Node.mem_namedChildren_of_mem_parts hpart)
        have hbelow : ⟨declarator, declaration :: site.node :: site.above⟩ ∈
            Site.below ⟨declaration, site.node :: site.above⟩ := mem_below.mpr ⟨hmem, rfl⟩
        exact ⟨_, mem_sites_of_mem_below hsite hbelow, declaration?_of_boundFunction? hbound⟩
      · cases hd
  · cases h

-- Whatever is found at a place is declared there or below.
theorem exists_declaration_of_mem_atSite {site : Site} {d : Candidate}
    (h : d ∈ (Finding.atSite site).filterMap Finding.candidate?) :
    ∃ s ∈ site.sites, s.declaration? = some d := by
  rw [Finding.candidates_atSite] at h
  simp only [List.mem_append] at h
  rcases h with (((h | h) | h) | h) | h
  · exact exists_declaration_of_exportedDeclarations h
  · exact exists_declaration_of_exportedFunction? (by simpa using h)
  · split at h
    · cases h
    · exact ⟨site, self_mem_sites site, declaration?_of_declaredFunction? (by simpa using h)⟩
  · split at h
    · cases h
    · exact ⟨site, self_mem_sites site, declaration?_of_boundFunction? (by simpa using h)⟩
  · exact ⟨site, self_mem_sites site, declaration?_of_declaredClass? (by simpa using h)⟩

end Site

end Syntax

namespace Module

-- Whatever is classified in a module is a declaration somewhere in its tree.
theorem exists_declaration_of_mem_classified {m : Module} {d : Candidate} (h : d ∈ m.classified) :
    ∃ site ∈ (Site.top m.root).sites, site.declaration? = some d := by
  rw [classified_eq_flatMap] at h
  obtain ⟨site, hsite, hd⟩ := List.mem_flatMap.mp h
  obtain ⟨s, hs, hdeclaration⟩ := Site.exists_declaration_of_mem_atSite hd
  exact ⟨s, Site.sites_subset (Site.walk_subset_sites _ hsite) hs, hdeclaration⟩

-- The declarations of a module's tree, in document order.
def declarations (m : Module) : List Candidate :=
  (Site.top m.root).sites.filterMap Site.declaration?

-- The component that a module has from the declaration at a place.
def Builds (m : Module) (site : Site) (c : Component) : Prop :=
  ∃ d ∈ m.classified, site.declaration? = some d ∧ d.component? m.path.text = some c

-- No function expression stands directly under an export statement but as its value.
def ExportsAsValues (m : Module) : Prop :=
  ∀ site ∈ (Site.top m.root).sites, site.node.isFunctionExpression = true →
    Finding.isExport site.parent? = true → site.node.field = some .value

instance (m : Module) : Decidable m.ExportsAsValues :=
  inferInstanceAs (Decidable (∀ site ∈ _, _ → _ → _))

theorem mem_declarations {m : Module} {site : Site} {d : Candidate}
    (hsite : site ∈ (Site.top m.root).sites) (h : site.declaration? = some d) : d ∈ m.declarations :=
  List.mem_filterMap.mpr ⟨site, hsite, h⟩

theorem mem_components_iff {m : Module} {c : Component} :
    c ∈ m.components ↔ ∃ d ∈ m.classified, d.component? m.path.text = some c := by
  rw [components_eq, List.mem_filterMap]

end Module

section Registered

variable {m : Module} {registered : List Component}

theorem mem_components_of_get? (hregistered : registered.filter (·.file == m.path.text) = m.components)
    {name : String} {c : Component}
    (h : (registered.foldl Registry.register .empty).get? name m.path.text = some c) :
    c ∈ m.components ∧ c.name = name := by
  rw [Registry.get?_foldl_register] at h
  have hkey : c.key = (name, m.path.text) := by simpa using List.find?_some h
  obtain ⟨hname, hfile⟩ := Prod.mk.inj hkey
  have hmem := List.mem_reverse.mp (List.mem_of_find?_eq_some h)
  rw [← hregistered]
  exact ⟨List.mem_filter.mpr ⟨hmem, by simp [hfile]⟩, hname⟩

theorem exists_get?_of_mem_components
    (hregistered : registered.filter (·.file == m.path.text) = m.components) {c : Component}
    (h : c ∈ m.components) :
    ∃ found, (registered.foldl Registry.register .empty).get? c.name m.path.text = some found := by
  rw [← hregistered] at h
  obtain ⟨hmem, hfile⟩ := List.mem_filter.mp h
  rw [Registry.get?_foldl_register]
  have hsome : (registered.reverse.find? (·.key == (c.name, m.path.text))).isSome = true := by
    rw [List.find?_isSome]
    exact ⟨c, List.mem_reverse.mpr hmem, by simpa [Component.key] using hfile⟩
  exact Option.isSome_iff_exists.mp hsome

-- A place declares a known component just when the module has that component from there.
theorem builds_iff_get? (hnames : (m.declarations.map Candidate.name).Nodup)
    (hvalues : m.ExportsAsValues)
    (hregistered : registered.filter (·.file == m.path.text) = m.components) {site : Site}
    (hsite : site ∈ (Site.top m.root).sites) (c : Component) :
    m.Builds site c ↔ (Flow.declaredAs? site.node site.parent?).bind
      ((registered.foldl Registry.register .empty).get? · m.path.text) = some c := by
  have hunique : ∀ d ∈ m.classified, ∀ e ∈ m.declarations, d.name = e.name → d = e := by
    intro d hd e he
    obtain ⟨s, hs, hdeclared⟩ := m.exists_declaration_of_mem_classified hd
    exact List.inj_on_of_nodup_map hnames (m.mem_declarations hs hdeclared) he
  constructor
  · rintro ⟨d, hd, hdeclared, hc⟩
    have hname := Site.filter_declaredAs? (hvalues site hsite)
    rw [hdeclared] at hname
    obtain ⟨hname, -⟩ := Option.filter_eq_some_iff.mp hname
    rw [hname, Option.bind_some]
    have hmem := Module.mem_components_iff.mpr ⟨d, hd, hc⟩
    obtain ⟨found, hfound⟩ := exists_get?_of_mem_components hregistered hmem
    rw [(Candidate.component?_eq_some hc).1] at hfound
    obtain ⟨hfoundMem, hfoundName⟩ := mem_components_of_get? hregistered hfound
    obtain ⟨e, he, hefound⟩ := Module.mem_components_iff.mp hfoundMem
    have hsame : e = d := by
      apply hunique e he d (m.mem_declarations hsite hdeclared)
      rw [← hfoundName, (Candidate.component?_eq_some hefound).1]
    rw [hfound, ← hefound, hsame, hc]
  · intro h
    obtain ⟨name, hname, hget⟩ := Option.bind_eq_some_iff.mp h
    obtain ⟨hmem, hcname⟩ := mem_components_of_get? hregistered hget
    obtain ⟨d, hd, hc⟩ := Module.mem_components_iff.mp hmem
    have hdname : d.name = name := by rw [← hcname, (Candidate.component?_eq_some hc).1]
    have hnonempty : name ≠ "" := by
      obtain ⟨s, hs, hdeclared⟩ := m.exists_declaration_of_mem_classified hd
      have hsname := Site.filter_declaredAs? (hvalues s hs)
      rw [hdeclared] at hsname
      rw [← hdname]
      simpa using (Option.filter_eq_some_iff.mp hsname).2
    have hhere := Site.filter_declaredAs? (hvalues site hsite)
    rw [hname, Option.filter_some, if_pos (by simpa using hnonempty)] at hhere
    obtain ⟨e, he, hename⟩ := Option.map_eq_some_iff.mp hhere.symm
    obtain rfl := hunique d hd e (m.mem_declarations hsite he) (hdname.trans hename.symm)
    exact ⟨d, hd, he, hc⟩

end Registered

namespace Flow

theorem enclosing?_eq_findSome? (registry : Registry) (file : String) (above : List Node) :
    enclosing? registry file above = (Site.ancestorsFrom above).findSome? fun a =>
      (declaredAs? a.node a.parent?).bind (registry.get? · file) := by
  induction above with
  | nil => rfl
  | cons n rest ih =>
      rw [enclosing?, Site.ancestorsFrom, List.findSome?_cons, ih]
      cases hhere : (declaredAs? n rest.head?).bind (registry.get? · file) with
      | none => simp [Site.parent?, hhere]
      | some c => simp [Site.parent?, hhere]

-- What encloses a place is the component of the innermost declaration above it that has one.
theorem enclosing?_iff_innermost {m : Module} {registered : List Component}
    (hnames : (m.declarations.map Candidate.name).Nodup) (hvalues : m.ExportsAsValues)
    (hregistered : registered.filter (·.file == m.path.text) = m.components) {site : Site}
    (hsite : site ∈ (Site.top m.root).sites) :
    (∀ c, enclosing? (registered.foldl Registry.register .empty) m.path.text site.above = some c ↔
      ∃ inner a outer, site.ancestors = inner ++ a :: outer ∧ m.Builds a c ∧
        ∀ b ∈ inner, ∀ other, ¬m.Builds b other) ∧
    (enclosing? (registered.foldl Registry.register .empty) m.path.text site.above = none ↔
      ∀ a ∈ site.ancestors, ∀ c, ¬m.Builds a c) := by
  have hbuilds := fun a (ha : a ∈ site.ancestors) =>
    builds_iff_get? hnames hvalues hregistered (Site.mem_sites_of_mem_ancestors hsite ha)
  have hnone : ∀ a ∈ site.ancestors, (∀ c, ¬m.Builds a c) ↔ (declaredAs? a.node a.parent?).bind
      ((registered.foldl Registry.register .empty).get? · m.path.text) = none := by
    intro a ha
    simp only [hbuilds a ha, Option.eq_none_iff_forall_ne_some]
  have hmem : ∀ {inner a outer}, site.ancestors = inner ++ a :: outer →
      a ∈ site.ancestors ∧ ∀ b ∈ inner, b ∈ site.ancestors := by
    intro inner a outer hsplit
    rw [hsplit]
    exact ⟨List.mem_append_right _ List.mem_cons_self, fun b hb => List.mem_append_left _ hb⟩
  rw [enclosing?_eq_findSome?]
  constructor
  · intro c
    rw [List.findSome?_eq_some_iff]
    constructor
    · rintro ⟨inner, a, outer, hsplit, hc, hinner⟩
      obtain ⟨ha, hb⟩ := hmem hsplit
      exact ⟨inner, a, outer, hsplit, (hbuilds a ha c).mpr hc,
        fun b hinside => (hnone b (hb b hinside)).mpr (hinner b hinside)⟩
    · rintro ⟨inner, a, outer, hsplit, hc, hinner⟩
      obtain ⟨ha, hb⟩ := hmem hsplit
      exact ⟨inner, a, outer, hsplit, (hbuilds a ha c).mp hc,
        fun b hinside => (hnone b (hb b hinside)).mp (hinner b hinside)⟩
  · rw [List.findSome?_eq_none_iff]
    exact forall₂_congr fun a ha => (hnone a ha).symm

-- A tag in a function that is no component, inside an exported one without a name.
namespace Nested

open Node

def tag : Node :=
  leaf "jsx_self_closing_element" "<Child/>" (some .body)

def helper : Node :=
  branch "arrow_function" (some .value) [tag]

def declarator : Node :=
  branch "variable_declarator" none [leaf "identifier" "helper" (some .name), helper]

def declaration : Node :=
  branch "lexical_declaration" none [declarator]

def block : Node :=
  branch "statement_block" (some .body)
    [declaration, branch "return_statement" none [leaf "jsx_fragment" "<></>" none]]

def value : Node :=
  branch "arrow_function" (some .value) [block]

def statement : Node :=
  branch "export_statement" none [value]

def root : Node :=
  branch "program" none [statement]

def file : Module :=
  ⟨.absolute ["a.js"], .javascript, "", root⟩

def site : Site :=
  ⟨tag, [helper, declarator, declaration, block, value, statement, root]⟩

-- Another file has a component of the same name.
def registered : List Component :=
  .build defaultName "/b.js" [] :: file.components

theorem site_mem_sites : site ∈ (Site.top root).sites := by
  have hstatement : ⟨statement, [root]⟩ ∈ (Site.top root).sites :=
    Site.mem_sites_of_mem_below (Site.self_mem_sites _) List.mem_cons_self
  have hvalue := Site.mem_sites_of_mem_below hstatement List.mem_cons_self
  have hblock := Site.mem_sites_of_mem_below hvalue List.mem_cons_self
  have hdeclaration := Site.mem_sites_of_mem_below hblock List.mem_cons_self
  have hdeclarator := Site.mem_sites_of_mem_below hdeclaration List.mem_cons_self
  have hhelper := Site.mem_sites_of_mem_below hdeclarator (.tail _ (.head _))
  exact Site.mem_sites_of_mem_below hhelper List.mem_cons_self

end Nested

theorem enclosing?_iff_innermost_nested :
    (Nested.file.declarations.map Candidate.name).Nodup ∧ Nested.file.ExportsAsValues ∧
    Nested.registered.filter (·.file == Nested.file.path.text) = Nested.file.components ∧
    Nested.site ∈ (Site.top Nested.root).sites ∧
    Nested.file.components.map (·.name) = [defaultName] ∧
    (∀ c, enclosing? (Nested.registered.foldl Registry.register .empty) "/a.js" Nested.site.above = some c ↔
      ∃ inner a outer, Nested.site.ancestors = inner ++ a :: outer ∧ Nested.file.Builds a c ∧
        ∀ b ∈ inner, ∀ other, ¬Nested.file.Builds b other) ∧
    (enclosing? (Nested.registered.foldl Registry.register .empty) "/a.js" Nested.site.above = none ↔
      ∀ a ∈ Nested.site.ancestors, ∀ c, ¬Nested.file.Builds a c) := by
  have hnames : (Nested.file.declarations.map Candidate.name).Nodup := by decide +kernel
  have hvalues : Nested.file.ExportsAsValues := by decide +kernel
  have hregistered : Nested.registered.filter (·.file == Nested.file.path.text) =
      Nested.file.components := by decide +kernel
  exact ⟨hnames, hvalues, hregistered, Nested.site_mem_sites, by decide +kernel,
    enclosing?_iff_innermost hnames hvalues hregistered Nested.site_mem_sites⟩

end Flow

end PropFlow
