import Mathlib.Data.Option.Basic
import PropFlow.Flow.Infer
import PropFlow.Proofs.Component.Items
import PropFlow.Proofs.Component.Layout
import PropFlow.Proofs.Component.Registry
import PropFlow.Proofs.Flow.Ends

namespace PropFlow

open Syntax

theorem Component.findItem?_eq_some {c : Component} {name : String} {kinds : Option (List ItemKind)}
    {item : Item} (h : c.findItem? name kinds = some item) :
    item ∈ c.items ∧ item.name = name ∧ ∀ among, kinds = some among → item.kind ∈ among := by
  have hholds := List.find?_some h
  rw [Bool.and_eq_true, beq_iff_eq] at hholds
  refine ⟨List.mem_of_find?_eq_some h, hholds.1, ?_⟩
  rintro among rfl
  simpa using hholds.2

theorem FlowType.label_between_prop (kind : ItemKind) :
    (FlowType.between (some kind) (some .prop)).label ≠ "setter-to-prop" ∧
      (FlowType.between (some kind) (some .prop)).label ≠ "function-to-prop" := by
  cases kind <;> decide

namespace Flow

-- A flow that leads from an item of one component to a prop of another.
structure Joins (f : Flow) (parent child : Component) (source target : Item) : Prop where
  source_eq : f.source = source.id
  sourceFile_eq : f.sourceFile = parent.file
  target_eq : f.target = target.id
  targetFile_eq : f.targetFile = child.file
  kind_eq : target.kind = .prop
  id_eq : f.id = target.flowId
  flowId_eq : target.flowId = target.name ++ "-flow"
  type_eq : f.type = (FlowType.between (some source.kind) (some target.kind)).label

-- A flow between items of some components.
def Within (components : List Component) (f : Flow) : Prop :=
  ∃ parent ∈ components, ∃ child ∈ components, ∃ source ∈ parent.items, ∃ target ∈ child.items,
    f.Joins parent child source target

theorem Joins.type_ne {f : Flow} {parent child : Component} {source target : Item}
    (h : f.Joins parent child source target) :
    f.type ≠ "setter-to-prop" ∧ f.type ≠ "function-to-prop" := by
  rw [h.type_eq, h.kind_eq]
  exact FlowType.label_between_prop source.kind

theorem Within.arrange {components : List Component} {f : Flow} (h : f.Within components) :
    f.Within (Layout.arrange components) := by
  obtain ⟨parent, hparent, child, hchild, source, hsource, target, htarget, hjoins⟩ := h
  obtain ⟨parent', hparent', hfile, hitems⟩ := Layout.exists_mem_arrange hparent
  obtain ⟨child', hchild', hfile', hitems'⟩ := Layout.exists_mem_arrange hchild
  refine ⟨parent', hparent', child', hchild', source, hitems ▸ hsource, target, hitems' ▸ htarget, ?_⟩
  exact { hjoins with
    sourceFile_eq := hfile ▸ hjoins.sourceFile_eq
    targetFile_eq := hfile' ▸ hjoins.targetFile_eq }

theorem mem_items_of_passedItem? {parent : Component} {value : Option Node} {item : Item}
    (h : passedItem? parent value = some item) : item ∈ parent.items := by
  obtain ⟨expression, -, h⟩ := Option.bind_eq_some_iff.mp h
  split at h
  · exact (Component.findItem?_eq_some h).1
  · obtain ⟨property, -, h⟩ := Option.bind_eq_some_iff.mp h
    exact (Component.findItem?_eq_some h).1
  · cases h

theorem joins_of_ofAttribute? {parent child : Component} {attr : Node × Option Node} {f : Flow}
    {note : Note} (hmade : ∀ item ∈ child.items, item.Made child.name)
    (h : ofAttribute? parent child attr = some (f, note)) :
    ∃ source ∈ parent.items, ∃ target ∈ child.items, f.Joins parent child source target := by
  obtain ⟨target, htarget, h⟩ := Option.bind_eq_some_iff.mp h
  obtain ⟨source, hsource, h⟩ := Option.bind_eq_some_iff.mp h
  cases h
  obtain ⟨hitem, hname, hamong⟩ := Component.findItem?_eq_some htarget
  have htargetMade := hmade target hitem
  have hkind : target.kind = .prop := by
    have hkinds := hamong _ rfl
    simpa [htargetMade.kind_ne_propFunction] using hkinds
  have hflow := htargetMade.flowId_of_prop hkind
  refine ⟨source, mem_items_of_passedItem? hsource, target, hitem, ?_⟩
  exact {
    source_eq := rfl
    sourceFile_eq := rfl
    target_eq := rfl
    targetFile_eq := rfl
    kind_eq := hkind
    id_eq := by rw [hflow, hname]
    flowId_eq := hflow
    type_eq := rfl }

theorem exists_get?_of_enclosing? {registry : Registry} {file : String} {above : List Node}
    {c : Component} (h : enclosing? registry file above = some c) :
    ∃ name, registry.get? name file = some c := by
  induction above with
  | nil => cases h
  | cons n rest ih =>
      rcases Option.or_eq_some_iff.mp h with hhere | ⟨-, habove⟩
      · obtain ⟨name, -, hname⟩ := Option.bind_eq_some_iff.mp hhere
        exact ⟨name, hname⟩
      · exact ih habove

theorem rendering?_eq_some_iff {registry : Registry} {file : String} {links : Links} {site : Site}
    {parent child : Component} : rendering? registry file links site = some (parent, child) ↔
      site.node.isJsxTag = true ∧ ∃ tag, site.node.tagName? = some tag ∧ tag.kind = "identifier" ∧
        Verdict.startsUppercase tag.text = true ∧
        registry.lookupTag? tag.text file ((links.get? tag.text).map (·.text)) = some child ∧
        enclosing? registry file site.above = some parent := by
  simp only [rendering?, bind, pure, Option.bind_eq_some_iff, Option.guard_eq_some',
    Option.filter_eq_some_iff, Option.some.injEq, Prod.mk.injEq]
  constructor
  · rintro ⟨-, htag, tag, ⟨hname, hkind⟩, -, hupper, _, hchild, _, hparent, rfl, rfl⟩
    exact ⟨htag, tag, hname, beq_iff_eq.mp hkind, hupper, hchild, hparent⟩
  · rintro ⟨htag, tag, hname, hkind, hupper, hchild, hparent⟩
    exact ⟨(), htag, tag, ⟨hname, beq_iff_eq.mpr hkind⟩, (), hupper, child, hchild, parent, hparent, rfl, rfl⟩

-- A flow is inferred where an attribute of a rendered tag passes an item on.
theorem mem_flows_infer_iff {registry : Registry} {modules : List (Module × Links)} {f : Flow} :
    f ∈ (infer registry modules).flows ↔ ∃ m links, (m, links) ∈ modules ∧
      ∃ site ∈ (Site.top m.root).walk, ∃ parent child,
        rendering? registry m.path.text links site = some (parent, child) ∧
        ∃ attr ∈ site.node.attributes, ∃ note, ofAttribute? parent child attr = some (f, note) := by
  constructor
  · intro h
    obtain ⟨_, hofModule, hf⟩ := List.mem_flatMap.mp h
    obtain ⟨⟨m, links⟩, hmodule, rfl⟩ := List.mem_map.mp hofModule
    obtain ⟨_, hatSite, hf⟩ := List.mem_flatMap.mp hf
    obtain ⟨site, hsite, rfl⟩ := List.mem_map.mp hatSite
    refine ⟨m, links, hmodule, site, hsite, ?_⟩
    unfold atSite at hf
    split at hf
    · cases hf
    · rename_i parent child hrendering
      obtain ⟨⟨_, note⟩, hfound, rfl⟩ := List.mem_map.mp hf
      obtain ⟨attr, hattr, hflow⟩ := List.mem_filterMap.mp hfound
      exact ⟨parent, child, hrendering, attr, hattr, note, hflow⟩
  · rintro ⟨m, links, hmodule, site, hsite, parent, child, hrendering, attr, hattr, note, hflow⟩
    refine List.mem_flatMap.mpr ⟨_, List.mem_map.mpr ⟨(m, links), hmodule, rfl⟩, ?_⟩
    refine List.mem_flatMap.mpr ⟨_, List.mem_map.mpr ⟨site, hsite, rfl⟩, ?_⟩
    simp only [atSite, hrendering]
    exact List.mem_map.mpr ⟨(f, note), List.mem_filterMap.mpr ⟨attr, hattr, hflow⟩, rfl⟩

section Infer

variable {components : List Component}

-- Both sides of a rendering have been registered.
theorem mem_of_rendering? {file : String} {links : Links} {site : Site} {parent child : Component}
    (h : rendering? (components.foldl Registry.register .empty) file links site = some (parent, child)) :
    parent ∈ components ∧ child ∈ components := by
  obtain ⟨-, tag, -, -, -, hchild, hparent⟩ := rendering?_eq_some_iff.mp h
  obtain ⟨name, hname⟩ := exists_get?_of_enclosing? hparent
  exact ⟨Registry.mem_of_get? hname, Registry.mem_of_lookupTag? hchild⟩

theorem within_of_mem_infer (hmade : ∀ c ∈ components, ∀ item ∈ c.items, item.Made c.name)
    {modules : List (Module × Links)} {f : Flow}
    (h : f ∈ (infer (components.foldl Registry.register .empty) modules).flows) :
    f.Within components := by
  obtain ⟨m, links, -, site, -, parent, child, hrendering, attr, -, note, hattr⟩ :=
    mem_flows_infer_iff.mp h
  obtain ⟨hparent, hchild⟩ := mem_of_rendering? hrendering
  exact ⟨parent, hparent, child, hchild, joins_of_ofAttribute? (hmade child hchild) hattr⟩

end Infer

theorem mem_knownEnds_of_mem {components : List Component} {c : Component} (hc : c ∈ components)
    {item : Item} (hitem : item ∈ c.items) : (item.id, c.file) ∈ knownEnds components := by
  refine mem_knownEnds_iff.mpr ⟨c, hc, ?_⟩
  rw [Component.owns, beq_self_eq_true, Bool.true_or, Bool.true_and]
  exact List.any_eq_true.mpr ⟨item, hitem, beq_self_eq_true _⟩

theorem finalize_eq_eraseDups {components : List Component} {flows : List Flow}
    (h : ∀ f ∈ flows, f.Within components) : finalize flows components = flows.eraseDups := by
  rw [finalize_eq]
  congr 1
  apply List.filter_eq_self.mpr
  intro f hf
  obtain ⟨parent, hparent, child, hchild, source, hsource, target, htarget, hjoins⟩ := h f hf
  rw [isBetween_iff, hjoins.source_eq, hjoins.sourceFile_eq, hjoins.target_eq, hjoins.targetFile_eq]
  exact ⟨mem_knownEnds_of_mem hparent hsource, mem_knownEnds_of_mem hchild htarget⟩

end Flow

end PropFlow
