import PropFlow.Flow.Infer
import PropFlow.Proofs.Component.Comments
import PropFlow.Proofs.Except

namespace PropFlow

open Syntax Node

namespace ModuleLink

variable {n : Node}

theorem specifierName?_withoutComments (h : n.BareComments) :
    specifierName? n.withoutComments = specifierName? n := by
  unfold specifierName?
  rw [child?_withoutComments h, child?_withoutComments h, ← Option.map_or, Option.map_map]
  simp [Function.comp_def]

theorem boundNames_withoutComments (h : n.BareComments) :
    boundNames n.withoutComments = boundNames n := by
  have hnames : ∀ part ∈ n.parts.filter (·.kind == "import_specifier"),
      specifierName? part.withoutComments = specifierName? part :=
    fun part hpart => specifierName?_withoutComments (h.of_mem_parts (List.mem_filter.mp hpart).1)
  unfold boundNames
  rw [kind_withoutComments, text_withoutComments, parts_withoutComments, List.filter_map,
    List.filterMap_map]
  simp only [Function.comp_def, kind_withoutComments]
  rw [List.filterMap_congr fun part hpart => by rw [hnames part hpart]]

theorem importedNames_withoutComments (h : n.BareComments) :
    importedNames n.withoutComments = importedNames n := by
  unfold importedNames
  rw [parts_withoutComments, List.filter_map, List.flatMap_map]
  simp only [Function.comp_def, kind_withoutComments, parts_withoutComments, List.flatMap_map]
  refine List.flatMap_congr fun clause hclause => List.flatMap_congr fun part hpart => ?_
  have hbare := h.of_mem_parts (List.mem_filter.mp hclause).1
  exact boundNames_withoutComments (hbare.of_mem_parts hpart)

theorem exportedNames_withoutComments (h : n.BareComments) :
    exportedNames n.withoutComments = exportedNames n := by
  unfold exportedNames
  rw [parts_withoutComments, List.filter_map, List.filterMap_map]
  simp only [Function.comp_def, kind_withoutComments, text_withoutComments]
  refine List.filterMap_congr fun specifier hspecifier => ?_
  rw [specifierName?_withoutComments (h.of_mem_parts (List.mem_filter.mp hspecifier).1)]

theorem reexportedNames_withoutComments (h : n.BareComments) :
    reexportedNames n.withoutComments = reexportedNames n := by
  unfold reexportedNames
  rw [parts_withoutComments, List.find?_map, ← List.map_reverse, List.find?_map]
  simp only [Function.comp_def, kind_withoutComments]
  cases n.parts.find? fun part => part.kind == "namespace_export" with
  | some namespaced => simp [Function.comp_def]
  | none =>
      cases hclause : n.parts.reverse.find? fun part => part.kind == "export_clause" with
      | none => rfl
      | some clause =>
          have hmem := List.mem_reverse.mp (List.mem_of_find?_eq_some hclause)
          exact exportedNames_withoutComments (h.of_mem_parts hmem)

theorem source_withoutComments (h : n.BareComments) :
    (n.withoutComments.child? .source).bind (·.stringValue?) =
      (n.child? .source).bind (·.stringValue?) := by
  rw [child?_withoutComments h]
  cases n.child? .source <;> simp

theorem ofStatement_withoutComments (h : n.BareComments) (disk : Disk) (importer : Path) :
    ofStatement disk importer n.withoutComments = ofStatement disk importer n := by
  have himport : ofImport disk importer n.withoutComments = ofImport disk importer n := by
    rw [ofImport, source_withoutComments h, importedNames_withoutComments h, ofImport]
  have hexport : ofExport disk importer n.withoutComments = ofExport disk importer n := by
    rw [ofExport, source_withoutComments h, reexportedNames_withoutComments h, ofExport]
  rw [ofStatement, kind_withoutComments, himport, hexport, ofStatement]

end ModuleLink

theorem Module.links_withoutComments {m : Module} (h : m.root.BareComments) (disk : Disk) :
    m.withoutComments.links disk = m.links disk := by
  have hreadings : m.withoutComments.readings disk = m.readings disk := by
    unfold readings withoutComments
    rw [parts_withoutComments]
    apply List.mapM_map_congr
    intro statement hstatement
    exact ModuleLink.ofStatement_withoutComments (h.of_mem_parts hstatement) disk m.path
  rw [links, hreadings, links]

namespace Flow

section Above

theorem declaredAs?_withoutComments {n : Node} (h : n.BareComments) (parent : Option Node) :
    declaredAs? n.withoutComments (parent.map withoutComments) = declaredAs? n parent := by
  unfold declaredAs?
  rw [declaredName?_withoutComments h, declaratorName?_withoutComments h,
    nonemptyName?_withoutComments h, declaratorFunction?_withoutComments h,
    Finding.isExport_withoutComments]
  simp

theorem enclosing?_withoutComments {above : List Node} (h : ∀ n ∈ above, n.BareComments)
    (registry : Registry) (file : String) :
    enclosing? registry file (above.map withoutComments) = enclosing? registry file above := by
  induction above with
  | nil => rfl
  | cons n rest ih =>
      obtain ⟨hn, hrest⟩ := List.forall_mem_cons.mp h
      rw [List.map_cons, enclosing?, List.head?_map, declaredAs?_withoutComments hn, ih hrest,
        enclosing?]

end Above

section Attributes

variable {value : Option Node} (h : ∀ v ∈ value, v.BareComments)
include h

theorem passedItem?_withoutComments (parent : Component) :
    passedItem? parent (value.map withoutComments) = passedItem? parent value := by
  unfold passedItem?
  cases value with
  | none => rfl
  | some v =>
      rw [Option.map_some, Option.bind_some, embedded?_withoutComments, Option.bind_some]
      cases hexpression : v.embedded? with
      | none => rfl
      | some expression =>
          have hproperty := child?_withoutComments ((h v rfl).of_embedded? hexpression) .property
          simp [hproperty, Option.filter_map, Option.bind_map, Function.comp_def]

theorem ofAttribute?_withoutComments (parent child : Component) (name : Node) :
    ofAttribute? parent child (name.withoutComments, value.map withoutComments) =
      ofAttribute? parent child (name, value) := by
  simp only [ofAttribute?, text_withoutComments, passedItem?_withoutComments h]

end Attributes

section Sites

variable {site : Site} (h : site.BareComments)
include h

theorem rendering?_withoutComments (registry : Registry) (file : String) (links : Links) :
    rendering? registry file links site.withoutComments = rendering? registry file links site := by
  unfold rendering?
  rw [Site.node_withoutComments, isJsxTag_withoutComments, tagName?, child?_withoutComments h.node,
    tagName?, Site.withoutComments, enclosing?_withoutComments h.above]
  simp only [Option.filter_map, Function.comp_def, kind_withoutComments]
  cases (site.node.child? .name).filter fun n => n.kind == "identifier" <;> simp

theorem atSite_withoutComments (registry : Registry) (file : String) (links : Links) :
    atSite registry file links site.withoutComments = atSite registry file links site := by
  have hfound : ∀ parent child, site.node.withoutComments.attributes.filterMap (ofAttribute? parent child) =
      site.node.attributes.filterMap (ofAttribute? parent child) := by
    intro parent child
    rw [attributes_withoutComments, List.filterMap_map]
    apply List.filterMap_congr
    intro attr hattr
    exact ofAttribute?_withoutComments (fun v hv => h.node.of_mem_attributes hattr hv) parent child attr.1
  unfold atSite
  rw [rendering?_withoutComments h, Site.node_withoutComments]
  cases rendering? registry file links site with
  | none => rfl
  | some ends => simp only [hfound]

end Sites

theorem atSite_eq_nothing {site : Site} (h : site.node.isComment = true) (registry : Registry)
    (file : String) (links : Links) : atSite registry file links site = ⟨[], []⟩ := by
  have hkind : site.node.kind = "comment" := beq_iff_eq.mp h
  have hnone : rendering? registry file links site = none := by
    simp [rendering?, hkind, isJsxTag]
  rw [atSite, hnone]

theorem ofModule_withoutComments {m : Module} (h : m.root.BareComments) (registry : Registry)
    (links : Links) : ofModule registry m.withoutComments links = ofModule registry m links := by
  have hread : ∀ {α : Type} (read : Inferred → List α), read ⟨[], []⟩ = [] →
      ((Site.top m.root.withoutComments).walk.map (atSite registry m.path.text links)).flatMap read =
        ((Site.top m.root).walk.map (atSite registry m.path.text links)).flatMap read := by
    intro α read hnothing
    rw [List.flatMap_map, List.flatMap_map]
    refine Site.flatMap_walk_withoutComments h ?_ ?_
    · intro s hs
      rw [atSite_eq_nothing hs, hnothing]
    · intro s hs
      rw [atSite_withoutComments hs]
  exact congrArg₂ Inferred.mk (hread (·.flows) rfl) (hread (·.notes) rfl)

theorem infer_withoutComments {modules : List (Module × Links)}
    (h : ∀ entry ∈ modules, entry.1.root.BareComments) (registry : Registry) :
    infer registry (modules.map fun entry => (entry.1.withoutComments, entry.2)) =
      infer registry modules := by
  have hfound : (modules.map fun entry => (entry.1.withoutComments, entry.2)).map
      (fun entry => ofModule registry entry.1 entry.2) =
        modules.map fun entry => ofModule registry entry.1 entry.2 := by
    rw [List.map_map]
    apply List.map_congr_left
    intro entry hentry
    exact ofModule_withoutComments (h entry hentry) registry entry.2
  unfold infer
  dsimp only
  rw [hfound]

end Flow

-- Comments make no difference: neither to the components of a module and what is noted about them,
-- nor to its links, nor to the flows between components.
theorem unchanged_withoutComments {modules : List (Module × Links)}
    (h : ∀ entry ∈ modules, entry.1.root.BareComments) (disk : Disk) (registry : Registry) :
    (∀ entry ∈ modules, entry.1.withoutComments.components = entry.1.components ∧
      entry.1.withoutComments.componentNotes = entry.1.componentNotes ∧
      entry.1.withoutComments.links disk = entry.1.links disk ∧
      Flow.ofModule registry entry.1.withoutComments entry.2 = Flow.ofModule registry entry.1 entry.2) ∧
    Flow.infer registry (modules.map fun entry => (entry.1.withoutComments, entry.2)) =
      Flow.infer registry modules := by
  refine ⟨fun entry hentry => ?_, Flow.infer_withoutComments h registry⟩
  have hbare := h entry hentry
  exact ⟨Module.components_withoutComments hbare, Module.componentNotes_withoutComments hbare,
    Module.links_withoutComments hbare disk, Flow.ofModule_withoutComments hbare registry entry.2⟩

-- A component that passes a prop on, with comments wherever one can stand.
namespace Commented

def remark : Node :=
  leaf "comment" "/* ... */" none

def tag : Node :=
  branch "jsx_self_closing_element" (some .body)
    [remark, leaf "identifier" "Child" (some .name), branch "jsx_attribute" none
      [remark, leaf "property_identifier" "value" none, remark,
        branch "jsx_expression" none [remark, leaf "identifier" "value" none]]]

def function (shown : Node) : Node :=
  branch "arrow_function" (some .value)
    [branch "formal_parameters" (some .parameters)
      [remark, branch "object_pattern" none
        [remark, leaf "shorthand_property_identifier_pattern" "value" none]], remark, shown]

def declaration (name : String) (shown : Node) : Node :=
  branch "lexical_declaration" none [remark, branch "variable_declarator" none
    [leaf "identifier" name (some .name), remark, function shown]]

def root : Node :=
  branch "program" none
    [remark, branch "import_statement" none
      [branch "import_clause" none [remark, leaf "identifier" "Other" none],
        leaf "string" "'./other'" (some .source)],
      declaration "Parent" tag, declaration "Child" (leaf "jsx_self_closing_element" "<i/>" (some .body))]

def file : Module :=
  ⟨.absolute ["a.js"], .javascript, "", root⟩

def disk : Disk :=
  ⟨.dir .full [("a.js", .file (some [])), ("other.js", .file (some []))], [], []⟩

def links : Links :=
  ⟨[("Other", .absolute ["other.js"])]⟩

end Commented

theorem unchanged_withoutComments_commented :
    Commented.root.BareComments ∧ Commented.root.withoutComments.size < Commented.root.size ∧
      Commented.file.components.map (fun c => (c.name, c.items.map (·.name))) =
        [("Parent", ["value"]), ("Child", ["value"])] ∧
      (Commented.file.links Commented.disk).toOption.map (·.1) = some Commented.links ∧
      (∀ entry ∈ [(Commented.file, Commented.links)],
        entry.1.withoutComments.components = entry.1.components ∧
        entry.1.withoutComments.componentNotes = entry.1.componentNotes ∧
        entry.1.withoutComments.links Commented.disk = entry.1.links Commented.disk ∧
        Flow.ofModule (Commented.file.components.foldl Registry.register .empty)
            entry.1.withoutComments entry.2 =
          Flow.ofModule (Commented.file.components.foldl Registry.register .empty) entry.1 entry.2) ∧
      Flow.infer (Commented.file.components.foldl Registry.register .empty)
          [(Commented.file.withoutComments, Commented.links)] =
        Flow.infer (Commented.file.components.foldl Registry.register .empty)
          [(Commented.file, Commented.links)] := by
  have hbare : Commented.root.BareComments := by decide
  exact ⟨hbare, by decide, by decide +kernel, by decide +kernel,
    unchanged_withoutComments (List.forall_mem_singleton.mpr hbare) Commented.disk _⟩

end PropFlow
