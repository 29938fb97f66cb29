import Mathlib.Data.Option.Basic
import PropFlow.Component.Collect
import PropFlow.Proofs.Syntax.Comments

namespace PropFlow

open Syntax Node

namespace PropSource

theorem usedProp?_withoutComments {n : Node} (h : n.BareComments) :
    usedProp? n.withoutComments = usedProp? n := by
  unfold usedProp?
  rw [kind_withoutComments, child?_withoutComments h, child?_withoutComments h]
  cases n.child? .object <;> cases n.child? .property <;> simp

theorem usedProp?_eq_none {n : Node} (h : n.isComment = true) : usedProp? n = none := by
  have hkind : n.kind = "comment" := beq_iff_eq.mp h
  simp [usedProp?, hkind]

theorem usesIn_withoutComments {body : Node} (h : body.BareComments) :
    usesIn body.withoutComments = usesIn body := by
  unfold usesIn
  rw [List.filterMap_eq_flatMap_toList, List.filterMap_eq_flatMap_toList]
  congr 1
  refine Site.flatMap_walk_withoutComments h ?_ ?_
  · intro s hs
    rw [usedProp?_eq_none hs, Option.toList_none]
  · intro s hs
    rw [Site.node_withoutComments, usedProp?_withoutComments hs.node]

theorem ofFunction_withoutComments {func : Node} (h : func.BareComments) :
    ofFunction func.withoutComments = ofFunction func := by
  have huses : ((func.withoutComments.body?.map usesIn).getD []) = (func.body?.map usesIn).getD [] := by
    rw [body?, child?_withoutComments h, body?]
    cases hbody : func.child? .body with
    | none => rfl
    | some body => simpa using usesIn_withoutComments (h.of_child? hbody)
  unfold ofFunction
  rw [params_withoutComments h, huses]
  cases hparams : func.params with
  | nil => rfl
  | cons param rest =>
      have hparam : param.BareComments := bareComments_of_mem_params h (by simp [hparams])
      obtain ⟨hpattern, hbare⟩ := boundPattern_withoutComments hparam
      simp only [List.map_cons, hpattern, kind_withoutComments, text_withoutComments,
        objectKeys_withoutComments hbare]

end PropSource

namespace Harvest

section Slots

variable (h : Harvest)

theorem slotName_withoutComments (slot : Option Node) (stem : String) :
    h.slotName (slot.map withoutComments) stem = h.slotName slot stem := by
  unfold slotName
  rw [Option.filter_map]
  simp only [Function.comp_def, kind_withoutComments]
  cases slot.filter fun n => n.kind == "identifier" <;> simp

theorem statePair_withoutComments (component stem : String) (slots : List (Option Node)) :
    statePair component stem (slots.map (·.map withoutComments)) h = statePair component stem slots h := by
  match slots with
  | [] => rfl
  | [only] => rfl
  | first :: second :: rest => simp [statePair, slotName_withoutComments]

end Slots

section Visit

variable {site : Site}

theorem binding?_withoutComments (h : site.BareComments) :
    binding? site.withoutComments = (binding? site).map withoutComments := by
  unfold binding?
  rw [Site.parent?, Site.withoutComments, List.head?_map, Site.parent?]
  cases hparent : site.above.head? with
  | none => rfl
  | some declarator =>
      have hdeclarator := h.above declarator (List.mem_of_mem_head? hparent)
      have hvalue := child?_withoutComments hdeclarator .value
      have hname := child?_withoutComments hdeclarator .name
      cases hv : declarator.child? .value <;> simp [hvalue, hv, hname, Node.same]

theorem hookCall_withoutComments (h : site.BareComments) (component hook : String) (harvest : Harvest) :
    hookCall component site.withoutComments hook harvest = hookCall component site hook harvest := by
  unfold hookCall
  simp only [binding?_withoutComments h, Option.filter_map, Function.comp_def, kind_withoutComments]
  split
  · cases (binding? site).filter fun n => n.kind == "array_pattern" with
    | none => rfl
    | some pattern => simp [arraySlots_withoutComments, statePair_withoutComments]
  · cases (binding? site).filter fun n => n.kind == "identifier" <;> simp

theorem call_withoutComments (h : site.BareComments) (component : String) (harvest : Harvest) :
    call component site.withoutComments harvest = call component site harvest := by
  have hprovided : (site.node.withoutComments.child? .function).bind (·.providedContext?) =
      (site.node.child? .function).bind (·.providedContext?) := by
    rw [child?_withoutComments h.node]
    cases hcallee : site.node.child? .function with
    | none => rfl
    | some callee => exact providedContext?_withoutComments (h.node.of_child? hcallee)
  unfold call
  simp only [hookCall_withoutComments h]
  rw [Site.withoutComments, calleeName?_withoutComments h.node, hprovided]

theorem visit_withoutComments (h : site.BareComments) (component : String) (harvest : Harvest) :
    visit component harvest site.withoutComments = visit component harvest site := by
  have hprovided : site.node.withoutComments.tagName?.bind (·.providedContext?) =
      site.node.tagName?.bind (·.providedContext?) := by
    rw [tagName?, child?_withoutComments h.node, tagName?]
    cases hname : site.node.child? .name with
    | none => rfl
    | some name => exact providedContext?_withoutComments (h.node.of_child? hname)
  unfold visit
  simp only [call_withoutComments h]
  simp only [Site.withoutComments, kind_withoutComments, isJsxTag_withoutComments,
    isFunctionDeclaration_withoutComments, hprovided, nonemptyName?_withoutComments h.node,
    declaratorName?_withoutComments h.node, child?_withoutComments h.node, Option.filter_map,
    Function.comp_def]
  cases (site.node.child? .value).filter fun n => n.kind == "arrow_function" with
  | none => rfl
  | some _ => cases site.node.declaratorName?.filter (· ≠ "") <;> rfl

theorem visit_eq_self (component : String) (harvest : Harvest) (hcomment : site.node.isComment = true) :
    visit component harvest site = harvest := by
  have hkind : site.node.kind = "comment" := beq_iff_eq.mp hcomment
  simp [visit, hkind, isJsxTag, isFunctionDeclaration]

end Visit

theorem ofFunction_withoutComments {func : Node} (h : func.BareComments) (component : String) :
    ofFunction func.withoutComments component = ofFunction func component := by
  unfold ofFunction
  rw [body?, child?_withoutComments h, PropSource.ofFunction_withoutComments h, body?]
  cases hbody : func.child? .body with
  | none => rfl
  | some body =>
      have hsite : Site.BareComments ⟨body, [func]⟩ := ⟨h.of_child? hbody, by simpa using h⟩
      have hwalk : ∀ start, (Site.walk ⟨body.withoutComments, [func.withoutComments]⟩).foldl
          (visit component) start = (Site.walk ⟨body, [func]⟩).foldl (visit component) start :=
        Site.foldl_walkPruned_withoutComments (fun _ _ => rfl) hsite
          (fun harvest s hs => visit_eq_self component harvest hs)
          (fun harvest s hs => visit_withoutComments hs component harvest)
      simp only [Option.map_some, hwalk]

theorem method?_withoutComments {n : Node} (h : n.BareComments) :
    method? n.withoutComments = method? n := by
  unfold method?
  rw [kind_withoutComments, child?_withoutComments h]
  cases n.child? .name <;> simp

theorem method?_eq_none {n : Node} (h : n.isComment = true) : method? n = none := by
  have hkind : n.kind = "comment" := beq_iff_eq.mp h
  simp [method?, hkind]

theorem ofClass_withoutComments {node : Node} (h : node.BareComments) (component : String) :
    ofClass node.withoutComments component = ofClass node component := by
  unfold ofClass
  rw [body?, child?_withoutComments h, body?]
  cases hbody : node.child? .body with
  | none => rfl
  | some body =>
      have hmethods : (Site.top body.withoutComments).walk.filterMap (fun s => method? s.node) =
          (Site.top body).walk.filterMap (fun s => method? s.node) := by
        rw [List.filterMap_eq_flatMap_toList, List.filterMap_eq_flatMap_toList]
        refine Site.flatMap_walk_withoutComments (h.of_child? hbody) ?_ ?_
        · intro s hs
          rw [method?_eq_none hs, Option.toList_none]
        · intro s hs
          rw [Site.node_withoutComments, method?_withoutComments hs.node]
      simp only [Option.map_some, hmethods]

end Harvest

namespace Verdict

section Class

theorem superclassOfHeritage?_withoutComments {parts : List Node} (h : ∀ part ∈ parts, part.BareComments) :
    superclassOfHeritage? (parts.map withoutComments) =
      (superclassOfHeritage? parts).map withoutComments := by
  induction parts with
  | nil => rfl
  | cons part rest ih =>
      obtain ⟨hpart, hrest⟩ := List.forall_mem_cons.mp h
      simp only [List.map_cons, superclassOfHeritage?, kind_withoutComments, ih hrest,
        child?_withoutComments hpart, firstPart?_withoutComments]
      split
      · cases part.child? .value <;> rfl
      · split <;> rfl

theorem superclassOfParts?_withoutComments {parts : List Node} (h : ∀ part ∈ parts, part.BareComments) :
    superclassOfParts? (parts.map withoutComments) =
      (superclassOfParts? parts).map withoutComments := by
  induction parts with
  | nil => rfl
  | cons part rest ih =>
      obtain ⟨hpart, hrest⟩ := List.forall_mem_cons.mp h
      have hheritage := superclassOfHeritage?_withoutComments fun n hn => hpart.of_mem_parts hn
      simp only [List.map_cons, superclassOfParts?, kind_withoutComments, parts_withoutComments,
        List.all_map, Function.comp_def, hheritage, ih hrest]
      split
      · split <;> rfl
      · rfl

theorem bareComments_of_superclassOfHeritage? {parts : List Node} {c : Node}
    (h : ∀ part ∈ parts, part.BareComments) (hc : superclassOfHeritage? parts = some c) :
    c.BareComments := by
  induction parts with
  | nil => cases hc
  | cons part rest ih =>
      obtain ⟨hpart, hrest⟩ := List.forall_mem_cons.mp h
      unfold superclassOfHeritage? at hc
      split at hc
      · rcases Option.or_eq_some_iff.mp hc with hvalue | ⟨-, hfirst⟩
        · exact hpart.of_child? hvalue
        · exact hpart.of_firstPart? hfirst
      · split at hc
        · exact ih hrest hc
        · cases hc
          exact hpart

theorem bareComments_of_superclassOfParts? {parts : List Node} {c : Node}
    (h : ∀ part ∈ parts, part.BareComments) (hc : superclassOfParts? parts = some c) :
    c.BareComments := by
  induction parts with
  | nil => cases hc
  | cons part rest ih =>
      obtain ⟨hpart, hrest⟩ := List.forall_mem_cons.mp h
      unfold superclassOfParts? at hc
      split at hc
      · split at hc
        · exact ih hrest hc
        · exact bareComments_of_superclassOfHeritage? (fun n hn => hpart.of_mem_parts hn) hc
      · exact ih hrest hc

theorem ofClass_withoutComments {node : Node} (h : node.BareComments) :
    ofClass node.withoutComments = ofClass node := by
  have hextends : extendsComponent node.withoutComments = extendsComponent node := by
    unfold extendsComponent superclass?
    rw [parts_withoutComments, superclassOfParts?_withoutComments fun n hn => h.of_mem_parts hn]
    cases hparent : superclassOfParts? node.parts with
    | none => rfl
    | some parent =>
        have hbare := bareComments_of_superclassOfParts? (fun n hn => h.of_mem_parts hn) hparent
        simp [child?_withoutComments hbare, Option.any_map]
  rw [ofClass, hextends, ofClass]

end Class

section Function

theorem isJsxBelow_withoutComments (n : Option Node) :
    isJsxBelow (n.map withoutComments) = isJsxBelow n := by
  cases n with
  | none => rfl
  | some n => simp [isJsxBelow, unparenthesized?_withoutComments, Option.any_map]

theorem plainSignal?_withoutComments {n : Node} (h : n.BareComments) :
    plainSignal? n.withoutComments = plainSignal? n := by
  simp [plainSignal?, child?_withoutComments h, isJsxBelow_withoutComments, Option.any_map]

theorem returnSignal?_withoutComments {n : Node} (h : n.BareComments) :
    returnSignal? n.withoutComments = returnSignal? n := by
  unfold returnSignal?
  rw [unparenthesized?_withoutComments, plainSignal?_withoutComments h]
  cases hinner : n.unparenthesized? with
  | none => simp
  | some inner => simp [plainSignal?_withoutComments (h.of_unparenthesized? hinner)]

theorem signal?_withoutComments {n : Node} (h : n.BareComments) :
    signal? n.withoutComments = signal? n := by
  unfold signal?
  rw [firstPart?_withoutComments]
  cases hfirst : n.firstPart? with
  | none => simp
  | some first => simp [returnSignal?_withoutComments (h.of_firstPart? hfirst)]

theorem signal?_eq_none {n : Node} (h : n.isComment = true) : signal? n = none := by
  have hkind : n.kind = "comment" := beq_iff_eq.mp h
  simp [signal?, hkind, isJsx]

theorem findSome?_signal?_withoutComments {body : Node} (h : body.BareComments) :
    (ownNodes body.withoutComments).findSome? signal? = (ownNodes body).findSome? signal? := by
  unfold ownNodes
  rw [← List.head?_filterMap, ← List.head?_filterMap, List.filterMap_map, List.filterMap_map,
    List.filterMap_eq_flatMap_toList, List.filterMap_eq_flatMap_toList]
  congr 1
  refine Site.flatMap_walkPruned_withoutComments (fun n hn => isNestedDeclaration_withoutComments hn)
    (Site.bareComments_top h) ?_ ?_
  · intro s hs
    rw [Function.comp_apply, signal?_eq_none hs, Option.toList_none]
  · intro s hs
    rw [Function.comp_apply, Site.node_withoutComments, signal?_withoutComments hs.node,
      Function.comp_apply]

theorem countP_return_withoutComments {body : Node} (h : body.BareComments)
    (hbody : body.isComment = false) :
    (ownNodes body.withoutComments).countP (·.kind == "return_statement") =
      (ownNodes body).countP (·.kind == "return_statement") := by
  have hwalk : (Site.top body.withoutComments).walkPruned isNestedDeclaration =
      ((Site.top body).walkPruned isNestedDeclaration).filterMap Site.uncommented? :=
    Site.walkPruned_withoutComments (fun n hn => isNestedDeclaration_withoutComments hn)
      (Site.bareComments_top h) hbody
  unfold ownNodes
  rw [List.countP_map, List.countP_map, hwalk, List.countP_filterMap]
  apply List.countP_congr
  intro s _
  cases hcomment : s.node.isComment with
  | true =>
      have hkind : s.node.kind = "comment" := beq_iff_eq.mp hcomment
      simp [Site.uncommented?, hcomment, hkind]
  | false => simp [Site.uncommented?, hcomment, Site.withoutComments]

theorem scan_withoutComments {func : Node} (h : func.BareComments) :
    scan func.withoutComments = scan func := by
  unfold scan
  rw [body?, child?_withoutComments h, body?]
  cases hbody : func.child? .body with
  | none => rfl
  | some body =>
      have hbare := h.of_child? hbody
      have hnode := h.isComment_of_child? hbody
      simp only [Option.map_some, isJsx_withoutComments, findSome?_signal?_withoutComments hbare,
        countP_return_withoutComments hbare hnode]

theorem ofFunction_withoutComments {func : Node} (h : func.BareComments) (name : Option String) :
    ofFunction func.withoutComments name = ofFunction func name := by
  rw [ofFunction, scan_withoutComments h, ofFunction]

end Function

end Verdict

namespace Finding

-- What is found in a tree without comments.
def withoutComments : Finding → Finding
  | .function note func name => .function note func.withoutComments name
  | .klass node name => .klass node.withoutComments name
  | .mention note => .mention note

def BareComments : Finding → Prop
  | .function _ func _ => func.BareComments
  | .klass node _ => node.BareComments
  | .mention _ => True

section Read

variable {f : Finding} (h : f.BareComments)
include h

theorem verdict?_withoutComments : f.withoutComments.verdict? = f.verdict? := by
  cases f with
  | function note func name => exact congrArg some (Verdict.ofFunction_withoutComments h name)
  | klass node name => exact congrArg some (Verdict.ofClass_withoutComments h)
  | mention note => rfl

theorem harvest?_withoutComments : f.withoutComments.harvest? = f.harvest? := by
  cases f with
  | function note func name => simp [harvest?, withoutComments, Harvest.ofFunction_withoutComments h]
  | klass node name => simp [harvest?, withoutComments, Harvest.ofClass_withoutComments h]
  | mention note => rfl

theorem openingNotes_withoutComments : f.withoutComments.openingNotes = f.openingNotes := by
  cases f with
  | function note func name => simp [openingNotes, withoutComments, Verdict.ofFunction_withoutComments h]
  | klass node name => simp [openingNotes, withoutComments, Verdict.ofClass_withoutComments h]
  | mention note => rfl

theorem component?_withoutComments (file : String) :
    f.withoutComments.component? file = f.component? file := by
  rw [component?, accepted, verdict?_withoutComments h, harvest?_withoutComments h, component?, accepted]

theorem notes_withoutComments : f.withoutComments.notes = f.notes := by
  rw [notes, accepted, verdict?_withoutComments h, openingNotes_withoutComments h,
    harvest?_withoutComments h, notes, accepted]

end Read

-- Findings in a tree, and the same ones in the tree without its comments.
structure Agree (found bare : List Finding) : Prop where
  eq_map : bare = found.map withoutComments
  bareComments : ∀ f ∈ found, f.BareComments

namespace Agree

theorem nil : Agree [] [] :=
  ⟨rfl, by simp⟩

theorem single {f : Finding} (h : f.BareComments) : Agree [f] [f.withoutComments] :=
  ⟨rfl, by simpa using h⟩

theorem flatMap {α : Type} {xs : List α} {find find' : α → List Finding}
    (h : ∀ x ∈ xs, Agree (find x) (find' x)) : Agree (xs.flatMap find) (xs.flatMap find') := by
  constructor
  · rw [List.map_flatMap]
    exact List.flatMap_congr fun x hx => (h x hx).eq_map
  · intro f hf
    obtain ⟨x, hx, hfind⟩ := List.mem_flatMap.mp hf
    exact (h x hx).bareComments f hfind

theorem components_eq {found bare : List Finding} (h : Agree found bare) (file : String) :
    bare.filterMap (component? file) = found.filterMap (component? file) := by
  rw [h.eq_map, List.filterMap_map]
  exact List.filterMap_congr fun f hf => component?_withoutComments (h.bareComments f hf) file

theorem notes_eq {found bare : List Finding} (h : Agree found bare) :
    bare.flatMap notes = found.flatMap notes := by
  rw [h.eq_map, List.flatMap_map]
  exact List.flatMap_congr fun f hf => notes_withoutComments (h.bareComments f hf)

end Agree

section Found

variable {n : Node}

theorem ofDeclarator_agree (h : n.BareComments) (note : String → Note) :
    Agree (ofDeclarator note n).toList (ofDeclarator note n.withoutComments).toList := by
  unfold ofDeclarator
  rw [declaratorFunction?_withoutComments h, declaratorName?_withoutComments h]
  cases hfunc : n.declaratorFunction? with
  | none => exact .nil
  | some func =>
      have hbare : func.BareComments := by
        unfold declaratorFunction? at hfunc
        split at hfunc
        · exact h.of_child? (Option.filter_eq_some_iff.mp hfunc).1
        · cases hfunc
      cases n.declaratorName?.filter (· ≠ "") with
      | none => exact .nil
      | some name => exact .single hbare

theorem ofDeclaration_agree (h : n.BareComments) :
    Agree (ofDeclaration n) (ofDeclaration n.withoutComments) := by
  unfold ofDeclaration
  rw [isFunctionDeclaration_withoutComments, kind_withoutComments, nonemptyName?_withoutComments h,
    parts_withoutComments]
  split
  · cases n.nonemptyName? with
    | none => exact .nil
    | some name => exact .single h
  · split
    · rw [List.filterMap_eq_flatMap_toList, List.filterMap_eq_flatMap_toList, List.flatMap_map]
      exact .flatMap fun part hpart => ofDeclarator_agree (h.of_mem_parts hpart) _
    · exact .nil

theorem ofExportedValue_agree (h : n.BareComments) :
    Agree (ofExportedValue n) (ofExportedValue n.withoutComments) := by
  unfold ofExportedValue
  rw [isFunctionExpression_withoutComments, kind_withoutComments, nonemptyName?_withoutComments h,
    text_withoutComments]
  split
  · cases n.nonemptyName? with
    | none => exact .single h
    | some name => exact .single h
  · split
    · exact .single trivial
    · exact .nil

theorem ofExport_agree (h : n.BareComments) : Agree (ofExport n) (ofExport n.withoutComments) := by
  unfold ofExport
  rw [child?_withoutComments h, child?_withoutComments h]
  cases hdeclaration : n.child? .declaration with
  | some declaration => exact ofDeclaration_agree (h.of_child? hdeclaration)
  | none =>
      cases hvalue : n.child? .value with
      | some value => exact ofExportedValue_agree (h.of_child? hvalue)
      | none => exact .nil

theorem isExport_withoutComments (n : Option Node) :
    isExport (n.map Node.withoutComments) = isExport n := by
  simp [isExport, Option.any_map]

theorem atSite_agree {site : Site} (h : site.BareComments) :
    Agree (atSite site) (atSite site.withoutComments) := by
  have hparent : isExport site.withoutComments.parent? = isExport site.parent? := by
    rw [Site.parent?, Site.withoutComments, List.head?_map, isExport_withoutComments, Site.parent?]
  have habove : isExport (site.withoutComments.above.drop 1).head? =
      isExport (site.above.drop 1).head? := by
    rw [Site.withoutComments, ← List.map_drop, List.head?_map, isExport_withoutComments]
  unfold atSite
  dsimp only
  rw [hparent, habove, Site.node_withoutComments, kind_withoutComments,
    isFunctionDeclaration_withoutComments, isClassDeclaration_withoutComments,
    nonemptyName?_withoutComments h.node]
  split
  · exact ofExport_agree h.node
  · split
    · split
      · exact .nil
      · cases site.node.nonemptyName? with
        | none => exact .nil
        | some name => exact .single h.node
    · split
      · split
        · exact .nil
        · exact ofDeclarator_agree h.node _
      · split
        · cases site.node.nonemptyName? with
          | none => exact .nil
          | some name => exact .single h.node
        · exact .nil

theorem atSite_eq_nil {site : Site} (h : site.node.isComment = true) : atSite site = [] := by
  have hkind : site.node.kind = "comment" := beq_iff_eq.mp h
  simp [atSite, hkind, isFunctionDeclaration, isClassDeclaration]

end Found

end Finding

-- The module with a tree without comments; its text is the same.
def Module.withoutComments (m : Module) : Module :=
  { m with root := m.root.withoutComments }

namespace Module

variable {m : Module} (h : m.root.BareComments)
include h

-- Whatever is read off the findings of a module is read off them without comments.
theorem flatMap_read_withoutComments {α : Type} {read : List Finding → List α} (hnil : read [] = [])
    (hread : ∀ found bare, Finding.Agree found bare → read bare = read found) :
    (Site.top m.root.withoutComments).walk.flatMap (fun s => read (Finding.atSite s)) =
      (Site.top m.root).walk.flatMap fun s => read (Finding.atSite s) := by
  refine Site.flatMap_walk_withoutComments h ?_ ?_
  · intro s hs
    rw [Finding.atSite_eq_nil hs, hnil]
  · intro s hs
    exact hread _ _ (Finding.atSite_agree hs)

theorem components_withoutComments : m.withoutComments.components = m.components := by
  unfold components findings
  rw [List.filterMap_flatMap, List.filterMap_flatMap]
  exact flatMap_read_withoutComments h rfl fun _ _ hagree => hagree.components_eq _

theorem componentNotes_withoutComments : m.withoutComments.componentNotes = m.componentNotes := by
  unfold componentNotes findings
  rw [List.flatMap_assoc, List.flatMap_assoc]
  exact flatMap_read_withoutComments h rfl fun _ _ hagree => hagree.notes_eq

end Module

end PropFlow
