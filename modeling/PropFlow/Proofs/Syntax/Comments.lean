import Mathlib.Data.List.Basic
import PropFlow.Proofs.Syntax.Sites
import PropFlow.Syntax.Declaration
import PropFlow.Syntax.Expression
import PropFlow.Syntax.Jsx
import PropFlow.Syntax.Pattern

theorem List.find?_filter_of_imp {α : Type} {keep p : α → Bool} {xs : List α}
    (h : ∀ x ∈ xs, p x = true → keep x = true) : (xs.filter keep).find? p = xs.find? p := by
  induction xs with
  | nil => rfl
  | cons x rest ih =>
      obtain ⟨hx, hrest⟩ := forall_mem_cons.mp h
      cases hkeep : keep x with
      | true => rw [filter_cons_of_pos hkeep, find?_cons, find?_cons, ih hrest]
      | false =>
          have hp : p x = false := by
            cases hp : p x with
            | true => rw [hx hp] at hkeep; cases hkeep
            | false => rfl
          rw [filter_cons_of_neg (by simp [hkeep]), find?_cons_of_neg (by simp [hp]), ih hrest]

namespace PropFlow.Syntax

namespace Node

mutual
-- A tree without its comments. All other nodes stay as they are.
def withoutComments : Node → Node
  | ⟨kind, text, start, stop, named, missing, hasError, field, children⟩ =>
    ⟨kind, text, start, stop, named, missing, hasError, field, withoutCommentsAll children⟩

def withoutCommentsAll : List Node → List Node
  | [] => []
  | n :: rest =>
    if n.isComment then withoutCommentsAll rest else n.withoutComments :: withoutCommentsAll rest
end

mutual
-- Whether the comments of a tree are leaves that play no role in their parents.
def hasBareComments : Node → Bool
  | ⟨kind, _, _, _, _, _, _, field, children⟩ =>
    (kind != "comment" || children.isEmpty && field.isNone) && haveBareComments children

def haveBareComments : List Node → Bool
  | [] => true
  | n :: rest => n.hasBareComments && haveBareComments rest
end

def BareComments (n : Node) : Prop :=
  n.hasBareComments = true

instance (n : Node) : Decidable n.BareComments :=
  inferInstanceAs (Decidable (_ = true))

section Fields

variable (n : Node)

@[simp] theorem kind_withoutComments : n.withoutComments.kind = n.kind := by
  cases n
  rfl

@[simp] theorem text_withoutComments : n.withoutComments.text = n.text := by
  cases n
  rfl

@[simp] theorem start_withoutComments : n.withoutComments.start = n.start := by
  cases n
  rfl

@[simp] theorem stop_withoutComments : n.withoutComments.stop = n.stop := by
  cases n
  rfl

@[simp] theorem named_withoutComments : n.withoutComments.named = n.named := by
  cases n
  rfl

@[simp] theorem field_withoutComments : n.withoutComments.field = n.field := by
  cases n
  rfl

end Fields

theorem withoutCommentsAll_eq (ns : List Node) :
    withoutCommentsAll ns = (ns.filter (!·.isComment)).map withoutComments := by
  induction ns with
  | nil => rfl
  | cons n rest ih => cases h : n.isComment <;> simp [withoutCommentsAll, h, ih]

theorem children_withoutComments (n : Node) :
    n.withoutComments.children = (n.children.filter (!·.isComment)).map withoutComments := by
  cases n
  exact withoutCommentsAll_eq _

theorem haveBareComments_iff {ns : List Node} :
    haveBareComments ns = true ↔ ∀ n ∈ ns, n.BareComments := by
  induction ns with
  | nil => simp [haveBareComments]
  | cons n rest ih => simp [haveBareComments, ih, BareComments]

theorem bareComments_iff {n : Node} : n.BareComments ↔
    (n.isComment = true → n.children = [] ∧ n.field = none) ∧ ∀ child ∈ n.children, child.BareComments := by
  cases n with
  | mk kind text start stop named missing hasError field children =>
      rw [← haveBareComments_iff]
      by_cases hkind : kind = "comment" <;> simp [BareComments, hasBareComments, isComment, hkind]

namespace BareComments

variable {n c : Node}

theorem of_mem (h : n.BareComments) (hc : c ∈ n.children) : c.BareComments :=
  (bareComments_iff.mp h).2 c hc

theorem of_child? (h : n.BareComments) {field : Field} (hc : n.child? field = some c) :
    c.BareComments :=
  h.of_mem (List.mem_of_find?_eq_some hc)

theorem of_mem_parts (h : n.BareComments) (hc : c ∈ n.parts) : c.BareComments :=
  h.of_mem (mem_children_of_mem_namedChildren (mem_namedChildren_of_mem_parts hc))

theorem of_firstPart? (h : n.BareComments) (hc : n.firstPart? = some c) : c.BareComments :=
  h.of_mem_parts (List.mem_of_mem_head? hc)

theorem children_eq_nil (h : n.BareComments) (hcomment : n.isComment = true) : n.children = [] :=
  ((bareComments_iff.mp h).1 hcomment).1

-- What has a role is no comment.
theorem isComment_of_field (h : n.BareComments) {field : Field} (hfield : n.field = some field) :
    n.isComment = false := by
  cases hcomment : n.isComment with
  | false => rfl
  | true =>
      rw [((bareComments_iff.mp h).1 hcomment).2] at hfield
      cases hfield

theorem isComment_of_child? (h : n.BareComments) {field : Field} (hc : n.child? field = some c) :
    c.isComment = false := by
  have hfield := List.find?_some hc
  exact (h.of_child? hc).isComment_of_field (beq_iff_eq.mp hfield)

end BareComments

@[simp] theorem isComment_withoutComments (n : Node) : n.withoutComments.isComment = n.isComment := by
  simp [isComment]

theorem namedChildren_withoutComments (n : Node) :
    n.withoutComments.namedChildren = n.parts.map withoutComments := by
  simp [namedChildren, parts, children_withoutComments, List.filter_map, List.filter_filter,
    Function.comp_def, Bool.and_comm]

@[simp] theorem parts_withoutComments (n : Node) :
    n.withoutComments.parts = n.parts.map withoutComments := by
  simp [parts, namedChildren_withoutComments, List.filter_map, Function.comp_def]

@[simp] theorem firstPart?_withoutComments (n : Node) :
    n.withoutComments.firstPart? = n.firstPart?.map withoutComments := by
  simp [firstPart?]

theorem child?_withoutComments {n : Node} (h : n.BareComments) (field : Field) :
    n.withoutComments.child? field = (n.child? field).map withoutComments := by
  have hrole : ∀ child ∈ n.children, (child.field == some field) = true →
      (!child.isComment) = true := by
    intro child hchild hfield
    rw [(h.of_mem hchild).isComment_of_field (beq_iff_eq.mp hfield)]
    rfl
  rw [child?, children_withoutComments, List.find?_map, child?, ← List.find?_filter_of_imp hrole]
  simp only [Function.comp_def, field_withoutComments]

section Kinds

variable (n : Node)

@[simp] theorem isFunctionDeclaration_withoutComments :
    n.withoutComments.isFunctionDeclaration = n.isFunctionDeclaration := by
  simp [isFunctionDeclaration]

@[simp] theorem isFunctionExpression_withoutComments :
    n.withoutComments.isFunctionExpression = n.isFunctionExpression := by
  simp [isFunctionExpression]

@[simp] theorem isClassDeclaration_withoutComments :
    n.withoutComments.isClassDeclaration = n.isClassDeclaration := by
  simp [isClassDeclaration]

@[simp] theorem isClass_withoutComments : n.withoutComments.isClass = n.isClass := by
  simp [isClass]

@[simp] theorem isJsx_withoutComments : n.withoutComments.isJsx = n.isJsx := by
  simp [isJsx]

@[simp] theorem isJsxTag_withoutComments : n.withoutComments.isJsxTag = n.isJsxTag := by
  simp [isJsxTag]

@[simp] theorem stringValue?_withoutComments : n.withoutComments.stringValue? = n.stringValue? := by
  simp [stringValue?]

end Kinds

section Declaration

variable {n : Node} (h : n.BareComments)
include h

theorem declaratorFunction?_withoutComments :
    n.withoutComments.declaratorFunction? = n.declaratorFunction?.map withoutComments := by
  by_cases hkind : n.kind = "variable_declarator" <;>
    simp [declaratorFunction?, hkind, child?_withoutComments h, Option.filter_map, Function.comp_def]

theorem declaratorName?_withoutComments :
    n.withoutComments.declaratorName? = n.declaratorName? := by
  simp [declaratorName?, child?_withoutComments h, Option.filter_map, Function.comp_def]

theorem declaredName?_withoutComments : n.withoutComments.declaredName? = n.declaredName? := by
  simp [declaredName?, child?_withoutComments h, Function.comp_def]

theorem nonemptyName?_withoutComments : n.withoutComments.nonemptyName? = n.nonemptyName? := by
  rw [nonemptyName?, declaredName?_withoutComments h, nonemptyName?]

theorem params_withoutComments : n.withoutComments.params = n.params.map withoutComments := by
  unfold params
  rw [child?_withoutComments h, child?_withoutComments h]
  cases n.child? .parameter with
  | some single => rfl
  | none => cases n.child? .parameters <;> simp

theorem bareComments_of_mem_params {param : Node} (hparam : param ∈ n.params) : param.BareComments := by
  unfold params at hparam
  split at hparam
  · rename_i single hsingle
    rw [List.mem_singleton.mp hparam]
    exact h.of_child? hsingle
  · split at hparam
    · rename_i list hlist
      exact (h.of_child? hlist).of_mem_parts hparam
    · cases hparam

theorem getD_child?_withoutComments (field : Field) :
    (n.withoutComments.child? field).getD n.withoutComments =
      ((n.child? field).getD n).withoutComments := by
  rw [child?_withoutComments h]
  cases n.child? field <;> rfl

theorem bareComments_getD_child? (field : Field) : ((n.child? field).getD n).BareComments := by
  cases hc : n.child? field with
  | none => exact h
  | some c => exact h.of_child? hc

theorem boundPattern_withoutComments :
    n.withoutComments.boundPattern = n.boundPattern.withoutComments ∧ n.boundPattern.BareComments := by
  have hleft : ∀ plain : Node, plain.BareComments →
      (if plain.withoutComments.kind = "assignment_pattern" then
          (plain.withoutComments.child? .left).getD plain.withoutComments else plain.withoutComments) =
        (if plain.kind = "assignment_pattern" then (plain.child? .left).getD plain
          else plain).withoutComments ∧
      (if plain.kind = "assignment_pattern" then (plain.child? .left).getD plain
        else plain).BareComments := by
    intro plain hplain
    rw [kind_withoutComments, getD_child?_withoutComments hplain]
    split
    · exact ⟨rfl, bareComments_getD_child? hplain _⟩
    · exact ⟨rfl, hplain⟩
  unfold boundPattern
  rw [kind_withoutComments, getD_child?_withoutComments h]
  split
  · exact hleft _ (bareComments_getD_child? h _)
  · exact hleft n h

theorem isNestedDeclaration_withoutComments :
    n.withoutComments.isNestedDeclaration = n.isNestedDeclaration := by
  simp [isNestedDeclaration, declaratorFunction?_withoutComments h]

end Declaration

section Expression

variable {n : Node}

theorem memberParts_withoutComments (h : n.BareComments) : n.withoutComments.memberParts =
    (n.memberParts.1.map withoutComments, n.memberParts.2.map withoutComments) := by
  have hlast : ∀ (second : Node) (rest : List Node),
      ((second :: rest).map withoutComments).getLast (by simp) =
        ((second :: rest).getLast (by simp)).withoutComments :=
    fun second rest => List.getLast_map (by simp)
  unfold memberParts
  rw [kind_withoutComments, child?_withoutComments h, child?_withoutComments h, parts_withoutComments]
  split
  · cases n.child? .object with
    | none =>
        match n.parts with
        | [] => rfl
        | [only] => rfl
        | first :: second :: rest => exact Prod.ext rfl (congrArg some (hlast second rest))
    | some object =>
        cases n.child? .property with
        | some property => rfl
        | none =>
            match n.parts with
            | [] => rfl
            | [only] => rfl
            | first :: second :: rest => exact Prod.ext rfl (congrArg some (hlast second rest))
  · rfl

theorem calleeName?_withoutComments (h : n.BareComments) :
    n.withoutComments.calleeName? = n.calleeName? := by
  unfold calleeName?
  rw [child?_withoutComments h]
  cases hcallee : n.child? .function with
  | none => rfl
  | some callee =>
      have hproperty := child?_withoutComments (h.of_child? hcallee) .property
      simp [hproperty, Function.comp_def]

theorem providedContext?_withoutComments (h : n.BareComments) :
    n.withoutComments.providedContext? = n.providedContext? := by
  unfold providedContext?
  rw [memberParts_withoutComments h]
  obtain ⟨object, property⟩ := n.memberParts
  cases property with
  | none => rfl
  | some property =>
      simp only [Option.map_some, text_withoutComments, Option.filter_map, Function.comp_def,
        kind_withoutComments]
      cases object.filter fun o => o.kind == "identifier" <;> simp

theorem unparenthesized?_withoutComments (n : Node) :
    n.withoutComments.unparenthesized? = n.unparenthesized?.map withoutComments := by
  fun_induction unparenthesized? n with
  | case1 n hkind inner hinner ih =>
      rw [unparenthesized?, kind_withoutComments, if_pos hkind, ← ih]
      split
      · rename_i inner' hinner'
        rw [firstPart?_withoutComments, hinner] at hinner'
        cases hinner'
        rfl
      · rename_i hnone
        rw [firstPart?_withoutComments, hinner] at hnone
        cases hnone
  | case2 n hkind hnone =>
      rw [unparenthesized?, kind_withoutComments, if_pos hkind]
      split
      · rename_i inner' hinner'
        rw [firstPart?_withoutComments, hnone] at hinner'
        cases hinner'
      · rfl
  | case3 n hkind => rw [unparenthesized?, kind_withoutComments, if_neg hkind, Option.map_some]

theorem BareComments.of_unparenthesized? {inner : Node} (h : n.BareComments)
    (hinner : n.unparenthesized? = some inner) : inner.BareComments := by
  fun_induction unparenthesized? n with
  | case1 n hkind next hnext ih => exact ih (h.of_firstPart? hnext) hinner
  | case2 n hkind hnone => cases hinner
  | case3 n hkind =>
      cases hinner
      exact h

end Expression

section Jsx

variable (n : Node)

theorem attribute?_withoutComments : n.withoutComments.attribute? =
    n.attribute?.map fun attr => (attr.1.withoutComments, attr.2.map withoutComments) := by
  unfold attribute?
  rw [kind_withoutComments, parts_withoutComments]
  split
  · cases n.parts <;> simp
  · rfl

theorem attributes_withoutComments : n.withoutComments.attributes =
    n.attributes.map fun attr => (attr.1.withoutComments, attr.2.map withoutComments) := by
  simp [attributes, List.filterMap_map, List.map_filterMap, attribute?_withoutComments]

theorem embedded?_withoutComments :
    n.withoutComments.embedded? = n.embedded?.map withoutComments := by
  unfold embedded?
  rw [kind_withoutComments, firstPart?_withoutComments]
  split <;> rfl

theorem BareComments.of_embedded? {n inner : Node} (h : n.BareComments)
    (hinner : n.embedded? = some inner) : inner.BareComments := by
  unfold embedded? at hinner
  split at hinner
  · exact h.of_firstPart? hinner
  · cases hinner

-- The value of an attribute is a part of a part of the tag.
theorem BareComments.of_mem_attributes {tag value : Node} {attr : Node × Option Node}
    (h : tag.BareComments) (hattr : attr ∈ tag.attributes) (hvalue : value ∈ attr.2) :
    value.BareComments := by
  obtain ⟨part, hpart, hattribute⟩ := List.mem_filterMap.mp hattr
  have hbare := h.of_mem_parts hpart
  unfold attribute? at hattribute
  split at hattribute
  · split at hattribute
    · rename_i name rest hparts
      cases hattribute
      exact hbare.of_mem_parts (hparts ▸ List.mem_cons_of_mem _ (List.mem_of_mem_head? hvalue))
    · cases hattribute
  · cases hattribute

end Jsx

section Pattern

theorem slotsFrom_withoutComments (pending : Option Node) (tokens : List Node) :
    slotsFrom (pending.map withoutComments) (withoutCommentsAll tokens) =
      (slotsFrom pending tokens).map (·.map withoutComments) := by
  induction tokens generalizing pending with
  | nil => rfl
  | cons token rest ih =>
      cases hcomment : token.isComment with
      | true => simp [withoutCommentsAll, slotsFrom, hcomment, ih]
      | false =>
          have hnext := ih (some token)
          have hopen := ih none
          simp only [withoutCommentsAll, slotsFrom, hcomment, isComment_withoutComments,
            kind_withoutComments, Bool.false_eq_true, or_false, if_false]
          split
          · exact ih pending
          · split
            · simpa using hopen
            · split
              · cases pending with
                | none => exact hopen
                | some held => simpa using ih (some held)
              · exact hnext

theorem arraySlots_withoutComments (n : Node) :
    n.withoutComments.arraySlots = n.arraySlots.map (·.map withoutComments) := by
  rw [arraySlots, children_withoutComments, ← withoutCommentsAll_eq]
  exact slotsFrom_withoutComments none n.children

theorem destructuredKey?_withoutComments {n : Node} (h : n.BareComments) :
    n.withoutComments.destructuredKey? = n.destructuredKey? := by
  unfold destructuredKey?
  simp [child?_withoutComments h, Option.filter_map, Function.comp_def]

theorem objectKeys_withoutComments {n : Node} (h : n.BareComments) :
    n.withoutComments.objectKeys = n.objectKeys := by
  rw [objectKeys, parts_withoutComments, List.filterMap_map, objectKeys]
  apply List.filterMap_congr
  intro part hpart
  exact destructuredKey?_withoutComments (h.of_mem_parts hpart)

end Pattern

end Node

namespace Site

def withoutComments (site : Site) : Site :=
  ⟨site.node.withoutComments, site.above.map Node.withoutComments⟩

theorem node_withoutComments (site : Site) :
    site.withoutComments.node = site.node.withoutComments := rfl

-- The place as it is found in a tree without comments, if it is found there.
def uncommented? (site : Site) : Option Site :=
  if site.node.isComment then none else some site.withoutComments

structure BareComments (site : Site) : Prop where
  node : site.node.BareComments
  above : ∀ n ∈ site.above, n.BareComments

section Walk

variable {skip : Node → Bool} {site child : Site}

theorem BareComments.of_mem_enter (h : site.BareComments) (hchild : child ∈ site.enter skip) :
    child.BareComments := by
  obtain ⟨n, hn, rfl⟩ := List.mem_map.mp hchild
  have hnamed := Node.mem_children_of_mem_namedChildren (List.mem_filter.mp hn).1
  exact ⟨h.node.of_mem hnamed, List.forall_mem_cons.mpr ⟨h.node, h.above⟩⟩

theorem enter_eq_nil (h : site.BareComments) (hcomment : site.node.isComment = true) :
    site.enter skip = [] := by
  simp [enter, Node.namedChildren, h.node.children_eq_nil hcomment]

theorem bareComments_of_mem_visit {pending : List Site} (h : ∀ s ∈ pending, s.BareComments) :
    ∀ s ∈ visit skip pending, s.BareComments := by
  fun_induction visit skip pending with
  | case1 => simp
  | case2 site pending ih =>
      obtain ⟨hsite, hpending⟩ := List.forall_mem_cons.mp h
      exact List.forall_mem_cons.mpr ⟨hsite,
        ih (List.forall_mem_append.mpr ⟨fun s hs => hsite.of_mem_enter hs, hpending⟩)⟩

theorem BareComments.of_mem_walkPruned (h : site.BareComments) (hchild : child ∈ site.walkPruned skip) :
    child.BareComments :=
  bareComments_of_mem_visit (List.forall_mem_singleton.mpr h) child hchild

variable (hskip : ∀ n : Node, n.BareComments → skip n.withoutComments = skip n)
include hskip

theorem enter_withoutComments (h : site.BareComments) :
    site.withoutComments.enter skip = (site.enter skip).filterMap uncommented? := by
  have hnamed : ∀ n ∈ site.node.namedChildren, n.BareComments :=
    fun n hn => h.node.of_mem (Node.mem_children_of_mem_namedChildren hn)
  simp only [enter, withoutComments, Node.namedChildren_withoutComments, Node.parts]
  generalize site.node.namedChildren = named at hnamed ⊢
  induction named with
  | nil => rfl
  | cons n rest ih =>
      obtain ⟨hn, hrest⟩ := List.forall_mem_cons.mp hnamed
      cases hcomment : n.isComment <;> cases hs : skip n <;>
        simp [hcomment, hs, hskip n hn, uncommented?, withoutComments, ih hrest]

theorem visit_uncommented {pending : List Site} (h : ∀ s ∈ pending, s.BareComments) :
    visit skip (pending.filterMap uncommented?) = (visit skip pending).filterMap uncommented? := by
  fun_induction visit skip pending with
  | case1 => simp [visit]
  | case2 site pending ih =>
      obtain ⟨hsite, hpending⟩ := List.forall_mem_cons.mp h
      have hvisit := ih (List.forall_mem_append.mpr ⟨fun s hs => hsite.of_mem_enter hs, hpending⟩)
      cases hcomment : site.node.isComment with
      | true =>
          rw [enter_eq_nil hsite hcomment] at hvisit ⊢
          simpa [uncommented?, hcomment] using hvisit
      | false =>
          rw [List.filterMap_append, ← enter_withoutComments hskip hsite] at hvisit
          simp [uncommented?, hcomment, visit, hvisit]

-- A walk through a tree without comments is a walk through the tree, the comments left out.
theorem walkPruned_withoutComments (h : site.BareComments) (hnode : site.node.isComment = false) :
    site.withoutComments.walkPruned skip = (site.walkPruned skip).filterMap uncommented? := by
  have hvisit := visit_uncommented hskip (List.forall_mem_singleton.mpr h)
  simpa [uncommented?, hnode, walkPruned] using hvisit

-- A walk comes to the same end when its steps do nothing at comments and the same elsewhere.
theorem foldl_walkPruned_withoutComments {α : Type} {step step' : α → Site → α}
    (h : site.BareComments) (hcomment : ∀ a s, s.node.isComment = true → step a s = a)
    (hstep : ∀ a (s : Site), s.BareComments → step' a s.withoutComments = step a s) (a : α) :
    (site.withoutComments.walkPruned skip).foldl step' a = (site.walkPruned skip).foldl step a := by
  cases hnode : site.node.isComment with
  | true =>
      have hnothing := enter_withoutComments hskip h
      rw [enter_eq_nil h hnode, List.filterMap_nil] at hnothing
      simp [walkPruned_eq, hnothing, enter_eq_nil h hnode, hstep a site h]
  | false =>
      have hbare : ∀ s ∈ site.walkPruned skip, s.BareComments := fun s hs => h.of_mem_walkPruned hs
      rw [walkPruned_withoutComments hskip h hnode]
      generalize site.walkPruned skip = walked at hbare ⊢
      induction walked generalizing a with
      | nil => rfl
      | cons s rest ih =>
          obtain ⟨hs, hrest⟩ := List.forall_mem_cons.mp hbare
          cases hkind : s.node.isComment with
          | true => simp [uncommented?, hkind, hcomment a s hkind, ih a hrest]
          | false => simp [uncommented?, hkind, hstep a s hs, ih _ hrest]

theorem flatMap_walkPruned_withoutComments {α : Type} {see : Site → List α} (h : site.BareComments)
    (hcomment : ∀ s, s.node.isComment = true → see s = [])
    (hsee : ∀ s : Site, s.BareComments → see s.withoutComments = see s) :
    (site.withoutComments.walkPruned skip).flatMap see = (site.walkPruned skip).flatMap see := by
  rw [List.flatMap_eq_foldl, List.flatMap_eq_foldl]
  refine foldl_walkPruned_withoutComments hskip h ?_ ?_ []
  · intro seen s hs
    rw [hcomment s hs, List.append_nil]
  · intro seen s hs
    rw [hsee s hs]

end Walk

theorem bareComments_top {n : Node} (h : n.BareComments) : (top n).BareComments :=
  ⟨h, by simp [top]⟩

theorem flatMap_walk_withoutComments {α : Type} {see : Site → List α} {n : Node} (h : n.BareComments)
    (hcomment : ∀ s, s.node.isComment = true → see s = [])
    (hsee : ∀ s : Site, s.BareComments → see s.withoutComments = see s) :
    (top n.withoutComments).walk.flatMap see = (top n).walk.flatMap see :=
  flatMap_walkPruned_withoutComments (fun _ _ => rfl) (bareComments_top h) hcomment hsee

end Site

end PropFlow.Syntax
