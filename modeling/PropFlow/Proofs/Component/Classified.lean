import Mathlib.Algebra.Order.Group.Multiset
import PropFlow.Proofs.Component.Candidates

-- When all that is kept is the first element that is marked, filtering is finding.
theorem List.filter_eq_filter_find? {α : Type} {keep mark : α → Bool} {xs : List α}
    (h : ∀ i : Fin xs.length, keep xs[i] = true → xs.findIdx mark = i) :
    xs.filter keep = (xs.find? mark).toList.filter keep := by
  induction xs with
  | nil => rfl
  | cons x rest ih =>
      have hhead : keep x = true → (x :: rest).findIdx mark = 0 := fun hkeep => h ⟨0, by simp⟩ hkeep
      have htail : ∀ i : Fin rest.length, keep rest[i] = true → (x :: rest).findIdx mark = i + 1 :=
        fun i hkeep => h i.succ hkeep
      rw [findIdx_cons] at hhead htail
      cases hmark : mark x with
      | true =>
          rw [hmark] at htail
          have hnone : rest.filter keep = [] := by
            rw [filter_eq_nil_iff]
            intro y hy hkeep
            obtain ⟨i, hi, rfl⟩ := getElem_of_mem hy
            cases htail ⟨i, hi⟩ hkeep
          rw [find?_cons_of_pos hmark, Option.toList_some, filter_cons, filter_cons, hnone, filter_nil]
      | false =>
          rw [hmark] at hhead htail
          have hkeep : ¬keep x = true := fun hkeep => Nat.succ_ne_zero _ (hhead hkeep)
          rw [filter_cons_of_neg hkeep, find?_cons_of_neg (by simp [hmark])]
          exact ih fun i hi => Nat.succ.inj (htail i hi)

namespace PropFlow

open Syntax

namespace Syntax

namespace Node

-- What is to be classified at a node, whatever stands around it.
def candidates (n : Node) : List Candidate :=
  n.exportedFunction?.toList ++ n.declaredFunction?.toList ++ n.boundFunction?.toList ++
    n.declaredClass?.toList

-- The declarations of functions and variables, which a statement can export.
def isExportable (n : Node) : Bool :=
  n.isFunctionDeclaration || n.isVariableDeclaration

theorem declaredFunctions_eq_nil {n : Node} (h : n.isExportable = false) : n.declaredFunctions = [] := by
  obtain ⟨hfunction, hvariable⟩ := Bool.or_eq_false_iff.mp h
  simp [declaredFunctions, declaredFunction?_eq_none hfunction, hvariable]

end Node

-- What a grammar promises of the places in its trees: only named nodes have children;
-- declarations and declarators are named; a declaration of a function or of variables right under an
-- export statement is what the statement has as its declaration; a declarator stands in a declaration
-- of variables.
structure Site.Regular (site : Site) : Prop where
  childless : site.node.named = false → site.node.children = []
  named : site.node.isFunctionDeclaration ∨ site.node.isClassDeclaration ∨
    site.node.kind = "variable_declarator" → site.node.named = true
  exported : site.node.kind = "export_statement" → ∀ i : Fin site.node.children.length,
    site.node.children[i].isExportable = true →
      site.node.children.findIdx (·.field == some .declaration) = i
  declarator : site.node.kind = "variable_declarator" → site.parent?.all (·.isVariableDeclaration) = true

instance (site : Site) : Decidable site.Regular :=
  decidable_of_iff (_ ∧ _ ∧ _ ∧ _)
    ⟨fun ⟨h₁, h₂, h₃, h₄⟩ => ⟨h₁, h₂, h₃, h₄⟩, fun ⟨h₁, h₂, h₃, h₄⟩ => ⟨h₁, h₂, h₃, h₄⟩⟩

namespace Site

-- The candidates at or right below a place that are found with an export statement above it.
def owed (site : Site) : List Candidate :=
  (if Finding.isExport site.parent? then site.node.declaredFunctions else []) ++
    if Finding.isExport (site.above.drop 1).head? then site.node.boundFunction?.toList else []

section Regular

variable {site : Site} (hregular : ∀ s ∈ site.sites, s.Regular)
include hregular

theorem boundFunction?_eq_none_of_mem_children (hvariable : site.node.isVariableDeclaration = false)
    {child : Node} (hchild : child ∈ site.node.children) : child.boundFunction? = none := by
  apply Node.boundFunction?_eq_none
  intro hkind
  have hbelow : ⟨child, site.node :: site.above⟩ ∈ site.below := mem_below.mpr ⟨hchild, rfl⟩
  have hsite := hregular _ (mem_sites_of_mem_below (self_mem_sites site) hbelow)
  have hparent : site.node.isVariableDeclaration = true := hsite.declarator hkind
  rw [hvariable] at hparent
  cases hparent

theorem filterMap_boundFunction?_children :
    site.node.children.filterMap Node.boundFunction? =
      if site.node.isVariableDeclaration then site.node.parts.filterMap Node.boundFunction? else [] := by
  cases hvariable : site.node.isVariableDeclaration with
  | false =>
      rw [if_neg Bool.false_ne_true, List.filterMap_eq_nil_iff]
      intro child hchild
      exact boundFunction?_eq_none_of_mem_children hregular hvariable hchild
  | true =>
      rw [if_pos rfl, Node.parts, Node.namedChildren, List.filterMap_filter, List.filterMap_filter]
      apply List.filterMap_congr
      intro child hchild
      by_cases hkind : child.kind = "variable_declarator"
      · have hbelow : ⟨child, site.node :: site.above⟩ ∈ site.below := mem_below.mpr ⟨hchild, rfl⟩
        have hsite := hregular _ (mem_sites_of_mem_below (self_mem_sites site) hbelow)
        have hnamed : child.named = true := hsite.named (.inr (.inr hkind))
        simp [hnamed, Node.isComment, hkind]
      · simp [Node.boundFunction?_eq_none hkind]

theorem flatMap_declaredFunctions_children (hexport : site.node.kind = "export_statement") :
    site.node.children.flatMap Node.declaredFunctions = site.node.exportedDeclarations := by
  rw [Node.exportedDeclarations, if_pos hexport]
  have hnothing : ∀ ns : List Node, (ns.filter (·.isExportable)).flatMap Node.declaredFunctions =
      ns.flatMap Node.declaredFunctions :=
    fun ns => List.flatMap_filter_of_nil fun n _ hn => Node.declaredFunctions_eq_nil hn
  have hself := hregular site (self_mem_sites site)
  rw [← hnothing, List.filter_eq_filter_find? (hself.exported hexport), hnothing, Node.child?]

-- What is owed below a place is what an export statement there exports, or the declarators of a
-- declaration there that is exported itself.
theorem flatMap_owed_below :
    site.below.flatMap owed = site.node.exportedDeclarations ++
      if Finding.isExport site.parent? then site.node.children.filterMap Node.boundFunction? else [] := by
  unfold below owed
  rw [List.flatMap_map]
  by_cases hexport : site.node.kind = "export_statement"
  · have hvariable : site.node.isVariableDeclaration = false := by
      simp [Node.isVariableDeclaration, hexport]
    have hnone : site.node.children.filterMap Node.boundFunction? = [] := by
      rw [filterMap_boundFunction?_children hregular, hvariable, if_neg Bool.false_ne_true]
    rw [hnone, ite_self, List.append_nil, ← flatMap_declaredFunctions_children hregular hexport]
    apply List.flatMap_congr
    intro child hchild
    have hbound := boundFunction?_eq_none_of_mem_children hregular hvariable hchild
    simp [parent?, Finding.isExport, hexport, hbound]
  · rw [Node.exportedDeclarations_eq_nil hexport, List.nil_append]
    have hnot : Finding.isExport (some site.node) = false := by simp [Finding.isExport, hexport]
    by_cases hparent : Finding.isExport site.parent?
    · rw [if_pos hparent, List.filterMap_eq_flatMap_toList]
      apply List.flatMap_congr
      intro child _
      change (if Finding.isExport (some site.node) then _ else _) ++
        (if Finding.isExport site.parent? then _ else _) = _
      rw [hnot, if_neg Bool.false_ne_true, if_pos hparent, List.nil_append]
    · rw [if_neg hparent, List.flatMap_eq_nil_iff]
      intro child _
      change (if Finding.isExport (some site.node) then _ else _) ++
        (if Finding.isExport site.parent? then _ else _) = _
      rw [hnot, if_neg Bool.false_ne_true, if_neg hparent, List.nil_append]

theorem atSite_append_owed_perm :
    ((Finding.atSite site).filterMap Finding.candidate? ++ site.owed).Perm
      (site.node.candidates ++ site.below.flatMap owed) := by
  rw [flatMap_owed_below hregular, filterMap_boundFunction?_children hregular, Finding.candidates_atSite,
    owed, Node.candidates, Node.declaredFunctions]
  rw [← Multiset.coe_eq_coe]
  simp only [← Multiset.coe_add]
  -- Whichever of the nodes above are export statements, each part stands on both sides.
  cases Finding.isExport site.parent? <;> cases Finding.isExport (site.above.drop 1).head? <;>
    simp only [Bool.false_eq_true, if_true, if_false, ← Multiset.coe_add, Multiset.coe_nil, add_zero,
      zero_add] <;>
    ac_rfl

end Regular

theorem flatMap_atSite_append_owed_perm (site : Site) (hregular : ∀ s ∈ site.sites, s.Regular) :
    (site.sites.flatMap (fun s => (Finding.atSite s).filterMap Finding.candidate?) ++ site.owed).Perm
      (site.sites.flatMap fun s => s.node.candidates) := by
  induction site using Site.induction with
  | step site ih =>
      have hbelow : ∀ child ∈ site.below, ∀ s ∈ child.sites, s.Regular :=
        fun child hchild s hs => hregular s
          (sites_subset (mem_sites_of_mem_below (self_mem_sites site) hchild) hs)
      have hchildren := List.Perm.flatMap_left site.below fun child hchild =>
        ih child hchild (hbelow child hchild)
      have hsplit := (List.flatMap_append_perm site.below _ _).trans hchildren
      have hhere := atSite_append_owed_perm hregular
      rw [sites_eq, List.flatMap_cons, List.flatMap_cons, List.flatMap_assoc, List.flatMap_assoc]
      rw [← Multiset.coe_eq_coe] at hsplit hhere ⊢
      simp only [← Multiset.coe_add] at hsplit hhere ⊢
      rw [← hsplit, add_right_comm, hhere]
      ac_rfl

theorem Regular.candidates_atSite_eq_nil {site : Site} (h : site.Regular)
    (hunnamed : site.node.named = false) : (Finding.atSite site).filterMap Finding.candidate? = [] := by
  have hnot : ¬(site.node.isFunctionDeclaration ∨ site.node.isClassDeclaration ∨
      site.node.kind = "variable_declarator") := fun hkind => by simp [h.named hkind] at hunnamed
  obtain ⟨hfunction, hclass, hdeclarator⟩ : site.node.isFunctionDeclaration = false ∧
      site.node.isClassDeclaration = false ∧ site.node.kind ≠ "variable_declarator" := by
    simpa using hnot
  have hchild : ∀ field, site.node.child? field = none := by
    simp [Node.child?, h.childless hunnamed]
  simp [Finding.candidates_atSite, Node.exportedDeclarations, Node.exportedFunction?, hchild,
    Node.declaredFunction?_eq_none hfunction, Node.declaredClass?_eq_none hclass,
    Node.boundFunction?_eq_none hdeclarator]

end Site

end Syntax

namespace Module

theorem filterMap_verdict?_findings (m : Module) :
    m.findings.filterMap Finding.verdict? = m.classified.map Candidate.verdict := by
  rw [classified, List.map_filterMap]
  congr 1
  funext f
  cases f <;> rfl

theorem components_eq_map_build (m : Module) :
    m.components = (m.classified.filter (·.verdict.accepted)).map fun c =>
      .build c.name m.path.text c.harvest.items := by
  rw [components_eq, ← List.filterMap_eq_map, List.filterMap_filter]
  rfl

-- Every function and class that is to be classified is classified once, and each that is accepted
-- gives one component.
theorem classified_perm_candidates {m : Module}
    (hregular : ∀ site ∈ (Site.top m.root).sites, site.Regular) :
    m.classified.Perm ((Site.top m.root).sites.flatMap fun site => site.node.candidates) ∧
    m.findings.filterMap Finding.verdict? = m.classified.map Candidate.verdict ∧
    m.components = (m.classified.filter (·.verdict.accepted)).map fun c =>
      .build c.name m.path.text c.harvest.items := by
  refine ⟨?_, m.filterMap_verdict?_findings, m.components_eq_map_build⟩
  have hwalk : m.classified = (Site.top m.root).sites.flatMap fun site =>
      (Finding.atSite site).filterMap Finding.candidate? := by
    rw [classified_eq_flatMap]
    refine Site.flatMap_walk _ _ fun site hsite hunnamed => ?_
    have hself := hregular site hsite
    exact ⟨hself.childless hunnamed, hself.candidates_atSite_eq_nil hunnamed⟩
  have hperm := Site.flatMap_atSite_append_owed_perm (Site.top m.root) hregular
  have hnothing : (Site.top m.root).owed = [] := by rfl
  rwa [hnothing, List.append_nil, ← hwalk] at hperm

-- Exported declarations of two variables and of a function, with another function inside, an
-- exported value and a class.
namespace Exports

open Node

def function (name : String) (field : Option Field) : Node :=
  branch "function_declaration" field [leaf "identifier" name (some .name)]

def arrow (inner : List Node) : Node :=
  branch "arrow_function" (some .value) [branch "statement_block" (some .body) inner]

def declarator (name : String) (inner : List Node) : Node :=
  branch "variable_declarator" none [leaf "identifier" name (some .name), arrow inner]

def root : Node :=
  branch "program" none
    [branch "export_statement" none [token "export", branch "lexical_declaration" (some .declaration)
        [declarator "First" [function "Inner" none, leaf "jsx_fragment" "<></>" none],
          declarator "second" []]],
      branch "export_statement" none [token "export", function "Third" (some .declaration)],
      branch "export_statement" none [arrow [leaf "jsx_fragment" "<></>" none]],
      branch "class_declaration" none [leaf "identifier" "Fourth" (some .name)]]

def file : Module :=
  ⟨.absolute ["a.js"], .javascript, "", root⟩

end Exports

theorem classified_perm_candidates_exports :
    (∀ site ∈ (Site.top Exports.file.root).sites, site.Regular) ∧
    Exports.file.classified.map Candidate.name =
      ["First", "second", "Inner", "Third", "DefaultExport", "Fourth"] ∧
    Exports.file.components.map (·.name) = ["First", "DefaultExport"] ∧
    Exports.file.classified.Perm
      ((Site.top Exports.file.root).sites.flatMap fun site => site.node.candidates) ∧
    Exports.file.findings.filterMap Finding.verdict? = Exports.file.classified.map Candidate.verdict ∧
    Exports.file.components = (Exports.file.classified.filter (·.verdict.accepted)).map fun c =>
      .build c.name Exports.file.path.text c.harvest.items := by
  have hregular : ∀ site ∈ (Site.top Exports.file.root).sites, site.Regular := by decide +kernel
  exact ⟨hregular, by decide +kernel, by decide +kernel, classified_perm_candidates hregular⟩

end Module

end PropFlow
