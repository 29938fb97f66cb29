import PropFlow.Analysis
import PropFlow.Proofs.Component.Registry
import PropFlow.Proofs.Conflict
import PropFlow.Proofs.Flow.Endpoints
import PropFlow.Proofs.Syntax.Sites

namespace List

variable {α β : Type}

-- Where at most one element gives anything, their order does not matter.
theorem findSome?_eq_of_perm {f : α → Option β} {xs ys : List α} (h : xs.Perm ys)
    (hone : xs.Pairwise fun a b => f a = none ∨ f b = none) : xs.findSome? f = ys.findSome? f := by
  induction h with
  | nil => rfl
  | cons x _ ih => rw [findSome?_cons, findSome?_cons, ih (pairwise_cons.mp hone).2]
  | swap x y rest =>
      have hxy := (pairwise_cons.mp hone).1 x mem_cons_self
      rw [findSome?_cons, findSome?_cons, findSome?_cons, findSome?_cons]
      rcases hxy with hnone | hnone
      · rw [hnone]
      · rw [hnone]
  | trans hfirst _ ihFirst ihSecond =>
      rw [ihFirst hone, ihSecond ((hfirst.pairwise_iff Or.symm).mp hone)]

-- When what is looked for is found in one block at most, the blocks can be in any order.
theorem find?_flatMap_eq_of_perm {f : α → List β} {p : β → Bool} {xs ys : List α} (h : xs.Perm ys)
    (hone : xs.Pairwise fun a b => ∀ u ∈ f a, ∀ v ∈ f b, ¬(p u = true ∧ p v = true)) :
    (xs.flatMap f).find? p = (ys.flatMap f).find? p := by
  rw [find?_flatMap, find?_flatMap]
  refine findSome?_eq_of_perm h (hone.imp ?_)
  intro a b hab
  by_contra hboth
  rw [not_or, ← ne_eq, ← ne_eq, Option.ne_none_iff_exists', Option.ne_none_iff_exists'] at hboth
  obtain ⟨⟨u, hu⟩, v, hv⟩ := hboth
  exact hab u (mem_of_find?_eq_some hu) v (mem_of_find?_eq_some hv) ⟨find?_some hu, find?_some hv⟩

theorem find?_reverse_flatMap_eq_of_perm {f : α → List β} {p : β → Bool} {xs ys : List α}
    (h : xs.Perm ys)
    (hone : xs.Pairwise fun a b => ∀ u ∈ f a, ∀ v ∈ f b, ¬(p u = true ∧ p v = true)) :
    (xs.flatMap f).reverse.find? p = (ys.flatMap f).reverse.find? p := by
  have hperm : xs.reverse.Perm ys.reverse :=
    (reverse_perm xs).trans (h.trans (reverse_perm ys).symm)
  rw [reverse_flatMap, reverse_flatMap]
  refine find?_flatMap_eq_of_perm hperm (pairwise_reverse.mpr (hone.imp ?_))
  intro a b hab u hu v hv hboth
  exact hab v (mem_reverse.mp hv) u (mem_reverse.mp hu) hboth.symm

end List

namespace PropFlow

namespace Registry

-- Two registries that give the same answers.
structure Agrees (r r' : Registry) : Prop where
  get? : ∀ name file, r.get? name file = r'.get? name file
  latest? : ∀ name, r.latest? name = r'.latest? name

theorem Agrees.lookupTag? {r r' : Registry} (h : r.Agrees r') (name file : String)
    (importedFrom : Option String) :
    r.lookupTag? name file importedFrom = r'.lookupTag? name file importedFrom := by
  simp only [Registry.lookupTag?, h.get?, h.latest?]

end Registry

namespace Flow

theorem enclosing?_congr {r r' : Registry} (h : r.Agrees r') (file : String)
    (above : List Syntax.Node) : enclosing? r file above = enclosing? r' file above := by
  induction above with
  | nil => rfl
  | cons n rest ih => simp only [enclosing?, h.get?, ih]

theorem rendering?_congr {r r' : Registry} (h : r.Agrees r') (file : String) (links : Links)
    (site : Syntax.Site) : rendering? r file links site = rendering? r' file links site := by
  simp only [rendering?, h.lookupTag?, enclosing?_congr h]

-- What a module shows depends on the answers of the registry alone.
theorem ofModule_congr {r r' : Registry} (h : r.Agrees r') (m : Module) (links : Links) :
    ofModule r m links = ofModule r' m links := by
  have hsite : atSite r m.path.text links = atSite r' m.path.text links := by
    funext site
    simp only [atSite, rendering?_congr h]
  simp only [ofModule, hsite]

theorem flows_infer_perm {r r' : Registry} (h : r.Agrees r') {modules modules' : List (Module × Links)}
    (hperm : modules.Perm modules') : (infer r modules).flows.Perm (infer r' modules').flows := by
  simp only [infer, ofModule_congr h]
  exact (hperm.map _).flatMap_right _

theorem finalize_perm {flows flows' : List Flow} {components components' : List Component}
    (hflows : flows.Perm flows') (hcomponents : components.Perm components') :
    (finalize flows components).Perm (finalize flows' components') := by
  have hknown : isBetween (knownEnds components) = isBetween (knownEnds components') := by
    funext f
    rw [Bool.eq_iff_iff]
    exact ⟨isBetween_mono (knownEnds_subset hcomponents.subset),
      isBetween_mono (knownEnds_subset hcomponents.symm.subset)⟩
  rw [finalize_eq, finalize_eq, hknown]
  exact (hflows.filter _).eraseDups

end Flow

namespace Run

-- A run that takes in modules one after the other.
def ofModules (modules : List (Module × Links)) : Run :=
  modules.foldl (fun run entry => run.take entry.1 entry.2 []) .empty

theorem foldl_take (modules : List (Module × Links)) (run : Run) :
    (modules.foldl (fun run entry => run.take entry.1 entry.2 []) run).modules =
        run.modules ++ modules ∧
      (modules.foldl (fun run entry => run.take entry.1 entry.2 []) run).components =
        run.components ++ modules.flatMap (·.1.components) := by
  induction modules generalizing run with
  | nil => simp
  | cons entry rest ih =>
      obtain ⟨hmodules, hcomponents⟩ := ih (run.take entry.1 entry.2 [])
      rw [List.foldl_cons, hmodules, hcomponents]
      simp [take]

@[simp] theorem modules_ofModules (modules : List (Module × Links)) :
    (ofModules modules).modules = modules :=
  (foldl_take modules .empty).1

@[simp] theorem components_ofModules (modules : List (Module × Links)) :
    (ofModules modules).components = modules.flatMap (·.1.components) :=
  (foldl_take modules .empty).2

section Order

variable {modules modules' : List (Module × Links)}

-- No name is declared in two of the modules.
def NamesApart (modules : List (Module × Links)) : Prop :=
  modules.Pairwise fun a b => ∀ c ∈ a.1.components, ∀ d ∈ b.1.components, c.name ≠ d.name

instance (modules : List (Module × Links)) : Decidable (NamesApart modules) :=
  inferInstanceAs (Decidable (List.Pairwise _ _))

-- The last component of a name stands in one module, wherever that module comes.
theorem registry_agrees (hperm : modules.Perm modules') (hapart : NamesApart modules) :
    (ofModules modules).registry.Agrees (ofModules modules').registry := by
  constructor
  · intro name file
    rw [registry, registry, Registry.get?_foldl_register, Registry.get?_foldl_register,
      components_ofModules, components_ofModules]
    refine List.find?_reverse_flatMap_eq_of_perm hperm (hapart.imp ?_)
    intro a b hab c hc d hd hboth
    obtain ⟨hckey, hdkey⟩ : c.key = (name, file) ∧ d.key = (name, file) := by simpa using hboth
    exact hab c hc d hd (congrArg Prod.fst (hckey.trans hdkey.symm))
  · intro name
    rw [registry, registry, Registry.latest?_foldl_register, Registry.latest?_foldl_register,
      components_ofModules, components_ofModules]
    refine List.find?_reverse_flatMap_eq_of_perm hperm (hapart.imp ?_)
    intro a b hab c hc d hd hboth
    obtain ⟨hcname, hdname⟩ : c.name = name ∧ d.name = name := by simpa using hboth
    exact hab c hc d hd (hcname.trans hdname.symm)

-- The first conflict of an id stands in one module too, since the id tells the component's name.
theorem conflicts_perm (hperm : modules.Perm modules') (hapart : NamesApart modules)
    (hdash : ∀ entry ∈ modules, ∀ c ∈ entry.1.components, '-' ∉ c.name.toList) :
    (Conflict.detect (modules.flatMap (·.1.components))).Perm
      (Conflict.detect (modules'.flatMap (·.1.components))) := by
  rw [List.perm_ext_iff_of_nodup (Conflict.nodup_detect _) (Conflict.nodup_detect _)]
  intro conflict
  rw [Conflict.mem_detect_iff, Conflict.mem_detect_iff, List.flatMap_assoc, List.flatMap_assoc]
  rw [List.find?_flatMap_eq_of_perm hperm]
  refine hapart.imp_of_mem ?_
  intro a b ha hb hab u hu v hv hboth
  obtain ⟨c, hc, huc⟩ := List.mem_flatMap.mp hu
  obtain ⟨d, hd, hvd⟩ := List.mem_flatMap.mp hv
  obtain ⟨huid, hvid⟩ : u.id = conflict.id ∧ v.id = conflict.id := by simpa using hboth
  exact hab c hc d hd
    (Conflict.name_eq_of_id_eq (hdash a ha c hc) (hdash b hb d hd) huc hvd (huid.trans hvid.symm))

-- Modules that declare no name twice can be taken in in any order: the same flows and conflicts
-- are found, though they may be listed in another order.
theorem result_perm_of_modules_perm (hperm : modules.Perm modules') (hapart : NamesApart modules)
    (hdash : ∀ entry ∈ modules, ∀ c ∈ entry.1.components, '-' ∉ c.name.toList) :
    (ofModules modules).result.flows.Perm (ofModules modules').result.flows ∧
      (ofModules modules).result.conflicts.Perm (ofModules modules').result.conflicts := by
  have hcomponents : (ofModules modules).components.Perm (ofModules modules').components := by
    rw [components_ofModules, components_ofModules]
    exact hperm.flatMap_right _
  have hinferred := Flow.flows_infer_perm (registry_agrees hperm hapart) hperm
  constructor
  · simp only [result, modules_ofModules]
    exact Flow.finalize_perm hinferred hcomponents
  · simp only [result, components_ofModules]
    exact conflicts_perm hperm hapart hdash

-- Two files, each with a component that renders the other one's and reads a context value under
-- the name of its prop.
namespace Swapped

open Syntax Node

def tag (name : String) : Node :=
  branch "jsx_self_closing_element" none
    [leaf "identifier" name (some .name), branch "jsx_attribute" none
      [leaf "property_identifier" "user" none,
        branch "jsx_expression" none [leaf "identifier" "user" none]]]

def consumer : Node :=
  branch "variable_declarator" none
    [leaf "identifier" "user" (some .name),
      branch "call_expression" (some .value) [leaf "identifier" "useContext" (some .function)]]

def function (name rendered : String) : Node :=
  branch "function_declaration" none
    [leaf "identifier" name (some .name),
      branch "formal_parameters" (some .parameters)
        [branch "object_pattern" none [leaf "shorthand_property_identifier_pattern" "user" none]],
      branch "statement_block" (some .body)
        [branch "lexical_declaration" none [consumer], tag rendered]]

def entry (file name rendered : String) : Module × Links :=
  (⟨.absolute [file], .javascript, "", branch "program" none [function name rendered]⟩, .empty)

def first : Module × Links := entry "a.js" "First" "Second"

def second : Module × Links := entry "b.js" "Second" "First"

end Swapped

theorem result_perm_of_modules_perm_swapped :
    [Swapped.first, Swapped.second].Perm [Swapped.second, Swapped.first] ∧
    NamesApart [Swapped.first, Swapped.second] ∧
    (∀ entry ∈ [Swapped.first, Swapped.second], ∀ c ∈ entry.1.components, '-' ∉ c.name.toList) ∧
    (ofModules [Swapped.first, Swapped.second]).result.conflicts.map (·.id) =
      ["First-user-conflict", "Second-user-conflict"] ∧
    (ofModules [Swapped.second, Swapped.first]).result.conflicts.map (·.id) =
      ["Second-user-conflict", "First-user-conflict"] ∧
    (ofModules [Swapped.first, Swapped.second]).result.flows.Perm
      (ofModules [Swapped.second, Swapped.first]).result.flows ∧
    (ofModules [Swapped.first, Swapped.second]).result.conflicts.Perm
      (ofModules [Swapped.second, Swapped.first]).result.conflicts := by
  have hperm : [Swapped.first, Swapped.second].Perm [Swapped.second, Swapped.first] := .swap _ _ _
  have hapart : NamesApart [Swapped.first, Swapped.second] := by decide +kernel
  have hdash : ∀ entry ∈ [Swapped.first, Swapped.second], ∀ c ∈ entry.1.components,
      '-' ∉ c.name.toList := by decide +kernel
  exact ⟨hperm, hapart, hdash, by decide +kernel, by decide +kernel,
    result_perm_of_modules_perm hperm hapart hdash⟩

end Order

end Run

end PropFlow
