import PropFlow.Proofs.Analysis.History
import PropFlow.Proofs.Flow.Endpoints
import PropFlow.Proofs.Syntax.Sites

namespace PropFlow

theorem made_of_mem_componentsAt {grammar : Grammar} {disk : Disk} {path : Path} {c : Component}
    (h : c ∈ componentsAt grammar disk path) : ∀ item ∈ c.items, item.Made c.name := by
  obtain ⟨f, file, hf⟩ := exists_component?_of_mem_componentsAt h
  exact f.made_of_component? hf

theorem explore_made {grammar : Grammar} {disk : Disk} {root : String} {run : Run}
    (h : explore grammar disk root = .ok run) :
    ∀ c ∈ run.components, ∀ item ∈ c.items, item.Made c.name := by
  obtain ⟨-, -, hcomponents, -⟩ := explore_history h
  intro c hc
  rw [hcomponents] at hc
  obtain ⟨path, -, hpath⟩ := List.mem_flatMap.mp hc
  exact made_of_mem_componentsAt hpath

-- The flows of a result are those inferred, each once; every one joins an item to a prop.
theorem analyze_flows_within {grammar : Grammar} {disk : Disk} {root : String} {result : Result}
    (h : analyze grammar disk root = .ok result) :
    (∃ run, explore grammar disk root = .ok run ∧
      result.flows = (Flow.infer run.registry run.modules).flows.eraseDups) ∧
    result.flows.Nodup ∧
    ∀ f ∈ result.flows, f.Within result.components ∧
      f.type ≠ "setter-to-prop" ∧ f.type ≠ "function-to-prop" := by
  obtain ⟨run, hrun, rfl⟩ := Except.map_eq_ok.mp h
  have hwithin : ∀ f ∈ (Flow.infer run.registry run.modules).flows, f.Within run.components :=
    fun f hf => Flow.within_of_mem_infer (explore_made hrun) hf
  have hflows : run.result.flows = (Flow.infer run.registry run.modules).flows.eraseDups :=
    Flow.finalize_eq_eraseDups hwithin
  refine ⟨⟨run, hrun, hflows⟩, ?_, ?_⟩
  · rw [hflows]
    exact List.nodup_eraseDups _
  · intro f hf
    rw [hflows, List.mem_eraseDups] at hf
    refine ⟨(hwithin f hf).arrange, ?_⟩
    obtain ⟨_, _, _, _, _, _, _, _, hjoins⟩ := hwithin f hf
    exact hjoins.type_ne

-- Two components, one of which passes a prop of its own on to the other.
namespace Passing

open Syntax Node

def tag : Node :=
  branch "jsx_self_closing_element" (some .body)
    [leaf "identifier" "Child" (some .name), branch "jsx_attribute" none
      [leaf "property_identifier" "value" none,
        branch "jsx_expression" none [leaf "identifier" "value" none]]]

def function (shown : Node) : Node :=
  branch "arrow_function" (some .value)
    [branch "formal_parameters" (some .parameters)
      [branch "object_pattern" none [leaf "shorthand_property_identifier_pattern" "value" none]], shown]

def declarator (name : String) (shown : Node) : Node :=
  branch "variable_declarator" none [leaf "identifier" name (some .name), function shown]

def declaration (name : String) (shown : Node) : Node :=
  branch "lexical_declaration" none [declarator name shown]

def root : Node :=
  branch "program" none [declaration "Parent" tag, declaration "Child" (leaf "jsx_fragment" "" (some .body))]

def path : Path :=
  .absolute ["a.js"]

def disk : Disk :=
  ⟨.dir .full [("a.js", .file (some []))], [], []⟩

def grammar : Grammar := fun _ _ => root

def flow : Flow where
  id := "value-flow"
  source := "Parent-value"
  target := "Child-value"
  type := "prop-to-prop"
  sourceFile := "/a.js"
  targetFile := "/a.js"

def component (name : String) : Component :=
  .build name "/a.js" [.create name "value" .prop "value-flow" none]

def registry : Registry :=
  [component "Parent", component "Child"].foldl .register .empty

theorem get?_registry : registry.get? "Parent" "/a.js" = some (component "Parent") ∧
    registry.get? "Child" "/a.js" = some (component "Child") := by
  simp only [registry, Registry.get?_foldl_register]
  decide +kernel

theorem flow_mem_infer :
    flow ∈ (Flow.infer registry [(⟨path, .javascript, "", root⟩, .empty)]).flows := by
  have hdeclaration : ⟨declaration "Parent" tag, [root]⟩ ∈ (Site.top root).walk :=
    Site.mem_walk_of_mem_below (Site.self_mem_walk _) List.mem_cons_self rfl
  have hdeclarator := Site.mem_walk_of_mem_below hdeclaration List.mem_cons_self rfl
  have hfunction := Site.mem_walk_of_mem_below hdeclarator (.tail _ (.head _)) rfl
  have htag := Site.mem_walk_of_mem_below hfunction (.tail _ (.head _)) rfl
  have hnone : Flow.declaredAs? (function tag) (some (declarator "Parent" tag)) = none := by
    decide +kernel
  have hname : Flow.declaredAs? (declarator "Parent" tag) (some (declaration "Parent" tag)) =
      some "Parent" := by decide +kernel
  refine Flow.mem_flows_infer_iff.mpr ⟨_, _, List.mem_cons_self, _, htag, component "Parent",
    component "Child", ?_, _, List.mem_cons_self, .flowFound "Parent" "value" "Child" "value", ?_⟩
  · refine Flow.rendering?_eq_some_iff.mpr ⟨by decide, _, rfl, rfl, by decide, ?_, ?_⟩
    · exact Option.or_eq_some_iff.mpr (.inl get?_registry.2)
    · have hparent := get?_registry.1
      simp only [Flow.enclosing?, List.head?_cons, hnone, hname, Option.bind_none, Option.none_or,
        Option.bind_some]
      exact Option.or_eq_some_iff.mpr (.inl hparent)
  · decide +kernel

theorem explored : (explore grammar disk "/a.js").toOption.map (fun run => (run.visited, run.components)) =
    some ([path], [component "Parent", component "Child"]) := by
  decide +kernel

theorem opened?_path : opened? grammar disk path = some (⟨path, .javascript, "", root⟩, .empty) := by
  rfl

end Passing

theorem analyze_flows_within_passing :
    ∃ result, analyze Passing.grammar Passing.disk "/a.js" = .ok result ∧ Passing.flow ∈ result.flows ∧
      (∃ run, explore Passing.grammar Passing.disk "/a.js" = .ok run ∧
        result.flows = (Flow.infer run.registry run.modules).flows.eraseDups) ∧
      result.flows.Nodup ∧
      ∀ f ∈ result.flows, f.Within result.components ∧
        f.type ≠ "setter-to-prop" ∧ f.type ≠ "function-to-prop" := by
  have hexplored := Passing.explored
  cases hrun : explore Passing.grammar Passing.disk "/a.js" with
  | error e =>
      rw [hrun] at hexplored
      cases hexplored
  | ok run =>
      rw [hrun] at hexplored
      obtain ⟨hvisited, hcomponents⟩ := Prod.mk.inj (Option.some.inj hexplored)
      have hmodules : run.modules = [(⟨Passing.path, .javascript, "", Passing.root⟩, .empty)] := by
        rw [(explore_history hrun).2.1, hvisited]
        simp [Passing.opened?_path]
      have hanalyze : analyze Passing.grammar Passing.disk "/a.js" = .ok run.result :=
        Except.map_eq_ok.mpr ⟨run, hrun, rfl⟩
      have hwithin := analyze_flows_within hanalyze
      refine ⟨run.result, hanalyze, ?_, hrun ▸ hwithin⟩
      obtain ⟨⟨_, hsame, hflows⟩, -⟩ := hwithin
      cases hrun.symm.trans hsame
      rw [hflows, List.mem_eraseDups, Run.registry, hcomponents, hmodules]
      exact Passing.flow_mem_infer

end PropFlow
