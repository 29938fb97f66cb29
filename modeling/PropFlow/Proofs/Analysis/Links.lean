import Mathlib.Data.List.Pairwise
import PropFlow.Proofs.Analysis.Failure
import PropFlow.Proofs.OrderedMap

namespace PropFlow

open Syntax

namespace ModuleLink

-- How a name is written in a specifier: as a string that is not empty, or as it stands.
inductive Spells (n : Node) : String → Prop
  | quoted {name : String} : n.stringValue? = some name → name ≠ "" → Spells n name
  | bare : (∀ name, n.stringValue? = some name → name = "") → Spells n n.text

-- The name of a specifier on the side of the statement; an alias wins.
inductive NamedBy (specifier : Node) : String → Prop
  | aliased {n : Node} {name : String} :
      specifier.child? .alias = some n → Spells n name → NamedBy specifier name
  | own {n : Node} {name : String} : specifier.child? .alias = none →
      specifier.child? .name = some n → Spells n name → NamedBy specifier name

-- The local names that an import binds: the default one, and those in braces.
inductive Binds (statement : Node) : String → Prop
  | default {clause part : Node} : clause ∈ statement.parts → clause.kind = "import_clause" →
      part ∈ clause.parts → part.kind = "identifier" → Binds statement part.text
  | named {clause group specifier : Node} {name : String} :
      clause ∈ statement.parts → clause.kind = "import_clause" →
      group ∈ clause.parts → group.kind = "named_imports" →
      specifier ∈ group.parts → specifier.kind = "import_specifier" →
      NamedBy specifier name → name ≠ "" → Binds statement name

-- The names that a re-export passes on: that of a namespace, those of its last clause, or a star for
-- all there are.
inductive Exports (statement : Node) : String → Prop
  | namespaced {part : Node} : statement.parts.find? (·.kind == "namespace_export") = some part →
      Exports statement ((part.firstPart?.map (·.text)).getD star)
  | listed {clause specifier : Node} {name : String} :
      statement.parts.find? (·.kind == "namespace_export") = none →
      statement.parts.reverse.find? (·.kind == "export_clause") = some clause →
      specifier ∈ clause.parts → specifier.kind = "export_specifier" →
      NamedBy specifier name → name ≠ "" → Exports statement name
  | unnamed {clause specifier : Node} :
      statement.parts.find? (·.kind == "namespace_export") = none →
      statement.parts.reverse.find? (·.kind == "export_clause") = some clause →
      specifier ∈ clause.parts → specifier.kind = "export_specifier" →
      (∀ name, NamedBy specifier name → name = "") → specifier.text ≠ "" →
      Exports statement specifier.text
  | all : statement.parts.find? (·.kind == "namespace_export") = none →
      statement.parts.reverse.find? (·.kind == "export_clause") = none → Exports statement star

theorem spells_iff {n : Node} {name : String} :
    Spells n name ↔ (n.stringValue?.filter (· ≠ "")).getD n.text = name := by
  constructor
  · rintro (⟨hvalue, hne⟩ | hempty)
    · simp [hvalue, hne, Option.filter_some]
    · cases hvalue : n.stringValue? with
      | none => rfl
      | some value => simp [hempty value hvalue, Option.filter_some]
  · rintro rfl
    cases hvalue : n.stringValue? with
    | none => exact .bare (by simp [hvalue])
    | some value =>
        by_cases hempty : value = ""
        · subst hempty
          exact .bare (by simp [hvalue])
        · simpa [hempty, Option.filter_some] using Spells.quoted hvalue hempty

theorem specifierName?_eq_some_iff {specifier : Node} {name : String} :
    specifierName? specifier = some name ↔ NamedBy specifier name := by
  unfold specifierName?
  constructor
  · intro h
    cases halias : specifier.child? .alias with
    | some n =>
        simp only [halias, Option.some_or, Option.map_some, Option.some.injEq] at h
        exact .aliased halias (spells_iff.mpr h)
    | none =>
        simp only [halias, Option.none_or] at h
        obtain ⟨n, hn, h⟩ := Option.map_eq_some_iff.mp h
        exact .own halias hn (spells_iff.mpr h)
  · rintro (⟨halias, hspells⟩ | ⟨halias, hname, hspells⟩)
    · rw [halias]
      exact congrArg some (spells_iff.mp hspells)
    · rw [halias, hname]
      exact congrArg some (spells_iff.mp hspells)

theorem mem_importedNames_iff {statement : Node} {name : String} :
    name ∈ importedNames statement ↔ Binds statement name := by
  constructor
  · intro h
    obtain ⟨clause, hclause, h⟩ := List.mem_flatMap.mp h
    obtain ⟨hclause, hkind⟩ := List.mem_filter.mp hclause
    obtain ⟨part, hpart, h⟩ := List.mem_flatMap.mp h
    have hkind := beq_iff_eq.mp hkind
    unfold boundNames at h
    split at h
    · rename_i hidentifier
      rw [List.mem_singleton.mp h]
      exact .default hclause hkind hpart hidentifier
    · split at h
      · rename_i hgroup
        obtain ⟨specifier, hspecifier, h⟩ := List.mem_filterMap.mp h
        obtain ⟨hspecifier, hspecifierKind⟩ := List.mem_filter.mp hspecifier
        obtain ⟨hname, hne⟩ := Option.filter_eq_some_iff.mp h
        exact .named hclause hkind hpart hgroup hspecifier (beq_iff_eq.mp hspecifierKind)
          (specifierName?_eq_some_iff.mp hname) (of_decide_eq_true hne)
      · cases h
  · intro h
    cases h with
    | @default clause part hclause hkind hpart hidentifier =>
        refine List.mem_flatMap.mpr ⟨clause, List.mem_filter.mpr ⟨hclause, beq_iff_eq.mpr hkind⟩, ?_⟩
        refine List.mem_flatMap.mpr ⟨part, hpart, ?_⟩
        simp [boundNames, hidentifier]
    | @named clause group specifier _ hclause hkind hgroup hgroupKind hspecifier hspecifierKind hname
        hne =>
        refine List.mem_flatMap.mpr ⟨clause, List.mem_filter.mpr ⟨hclause, beq_iff_eq.mpr hkind⟩, ?_⟩
        refine List.mem_flatMap.mpr ⟨group, hgroup, ?_⟩
        rw [boundNames, if_neg (by simp [hgroupKind]), if_pos hgroupKind]
        refine List.mem_filterMap.mpr
          ⟨specifier, List.mem_filter.mpr ⟨hspecifier, beq_iff_eq.mpr hspecifierKind⟩, ?_⟩
        exact Option.filter_eq_some_iff.mpr
          ⟨specifierName?_eq_some_iff.mpr hname, decide_eq_true hne⟩

theorem mem_exportedNames_iff {clause : Node} {name : String} :
    name ∈ exportedNames clause ↔ ∃ specifier ∈ clause.parts, specifier.kind = "export_specifier" ∧
      name ≠ "" ∧ (NamedBy specifier name ∨
        (∀ other, NamedBy specifier other → other = "") ∧ name = specifier.text) := by
  have hspecifier : ∀ specifier : Node,
      (if ((specifierName? specifier).filter (· ≠ "")).getD specifier.text = "" then none
        else some (((specifierName? specifier).filter (· ≠ "")).getD specifier.text)) = some name ↔
      name ≠ "" ∧ (NamedBy specifier name ∨
        (∀ other, NamedBy specifier other → other = "") ∧ name = specifier.text) := by
    intro specifier
    simp only [← specifierName?_eq_some_iff]
    cases specifierName? specifier with
    | none => grind
    | some own => grind
  unfold exportedNames
  simp only [List.mem_filterMap, List.mem_filter, beq_iff_eq, hspecifier, and_assoc]

theorem mem_reexportedNames_iff {statement : Node} {name : String} :
    name ∈ reexportedNames statement ↔ Exports statement name := by
  unfold reexportedNames
  constructor
  · intro h
    split at h
    · rename_i part hpart
      rw [List.mem_singleton.mp h]
      exact .namespaced hpart
    · rename_i hnone
      split at h
      · rename_i clause hclause
        obtain ⟨specifier, hmem, hkind, hne, hname | ⟨hunnamed, rfl⟩⟩ := mem_exportedNames_iff.mp h
        · exact .listed hnone hclause hmem hkind hname hne
        · exact .unnamed hnone hclause hmem hkind hunnamed hne
      · rename_i hclause
        rw [List.mem_singleton.mp h]
        exact .all hnone hclause
  · intro h
    cases h with
    | namespaced hpart => simp only [hpart, List.mem_singleton]
    | listed hnone hclause hmem hkind hname hne =>
        simp only [hnone, hclause]
        exact mem_exportedNames_iff.mpr ⟨_, hmem, hkind, hne, .inl hname⟩
    | unnamed hnone hclause hmem hkind hunnamed hne =>
        simp only [hnone, hclause]
        exact mem_exportedNames_iff.mpr ⟨_, hmem, hkind, hne, .inr ⟨hunnamed, rfl⟩⟩
    | all hnone hclause => simp only [hnone, hclause, List.mem_singleton]

-- The file that a specifier stands for is looked up and, if it is a source file, stands for its real
-- path.
theorem target?_eq_some_iff {disk : Disk} {importer target : Path} {specifier : String} :
    target? disk importer specifier = .ok (some target) ↔
      ∃ file, resolve? disk importer specifier = .ok (some file) ∧ Discovery.isSource file = true ∧
        disk.realPath file = .ok target := by
  unfold target?
  rcases resolve? disk importer specifier with e | _ | file
  · simp
  · simp
  · by_cases hsource : Discovery.isSource file = true
    · cases hreal : disk.realPath file <;> simp [hsource, hreal]
    · simp [hsource]

-- A statement whose source stands for a source file.
def LinksTo (disk : Disk) (importer : Path) (statement : Node) (target : Path) : Prop :=
  ∃ source file, sourceOf? statement = some source ∧
    resolve? disk importer source = .ok (some file) ∧ Discovery.isSource file = true ∧
    disk.realPath file = .ok target

theorem LinksTo.target?_eq {disk : Disk} {importer : Path} {statement : Node} {target : Path}
    (h : LinksTo disk importer statement target) {source : String}
    (hsource : sourceOf? statement = some source) :
    target? disk importer source = .ok (some target) := by
  obtain ⟨source', file, hsource', hfile⟩ := h
  obtain rfl : source' = source := Option.some.inj (hsource'.symm.trans hsource)
  exact target?_eq_some_iff.mpr ⟨file, hfile⟩

theorem linksTo_of_target? {disk : Disk} {importer : Path} {statement : Node} {source : String}
    {target : Path} (hsource : sourceOf? statement = some source)
    (h : target? disk importer source = .ok (some target)) : LinksTo disk importer statement target := by
  obtain ⟨file, hfile⟩ := target?_eq_some_iff.mp h
  exact ⟨source, file, hsource, hfile⟩

theorem LinksTo.congr {disk : Disk} {importer : Path} {s s' : Node} {target target' : Path}
    (h : LinksTo disk importer s target) (h' : LinksTo disk importer s' target')
    (hsources : sourceOf? s = sourceOf? s') : target = target' := by
  obtain ⟨source, -, hsource, -⟩ := id h
  have htarget := h.target?_eq hsource
  rw [h'.target?_eq (hsources ▸ hsource)] at htarget
  exact (Option.some.inj (Except.ok.inj htarget)).symm

-- The names under which a re-export is entered among the links.
def ExportsAs (statement : Node) (key : String) : Prop :=
  ∃ source name, sourceOf? statement = some source ∧ Exports statement name ∧
    key = linkKey source name

theorem mem_keysOf_import {statement : Node} (h : statement.kind = "import_statement")
    (source : String) {key : String} : key ∈ keysOf statement source ↔ Binds statement key := by
  rw [keysOf, if_pos h, mem_importedNames_iff]

theorem mem_keysOf_export {statement : Node} (h : statement.kind = "export_statement")
    (source : String) {key : String} :
    key ∈ keysOf statement source ↔ ∃ name, Exports statement name ∧ linkKey source name = key := by
  rw [keysOf, if_neg (by simp [h]), List.mem_map]
  simp only [mem_reexportedNames_iff]

theorem exportsAs_of_mem_keysOf {statement : Node} (h : statement.kind = "export_statement")
    {source key : String} (hsource : sourceOf? statement = some source)
    (hkey : key ∈ keysOf statement source) : ExportsAs statement key := by
  obtain ⟨name, hname, rfl⟩ := (mem_keysOf_export h _).mp hkey
  exact ⟨source, name, hsource, hname, rfl⟩

theorem linkKey_star_inj {source source' : String} (h : linkKey source star = linkKey source' star) :
    source = source' := by
  simpa [linkKey, String.append_assoc] using h

theorem linkKey_of_ne {name : String} (h : name ≠ star) (source : String) : linkKey source name = name :=
  if_neg h

end ModuleLink

namespace Module

open ModuleLink

def imports (m : Module) : List Node :=
  m.root.parts.filter (·.kind == "import_statement")

def reexports (m : Module) : List Node :=
  m.root.parts.filter fun statement =>
    statement.kind == "export_statement" && (sourceOf? statement).isSome

-- No name is bound by two imports, and no name is passed on by two re-exports.
structure Distinct (m : Module) : Prop where
  imports : m.imports.Pairwise fun s s' => ∀ name, Binds s name → ¬Binds s' name
  reexports : m.reexports.Pairwise fun s s' => ∀ name, name ≠ star ∧ Exports s name →
    ¬(name ≠ star ∧ Exports s' name)

-- A name that is both bound by an import and passed on comes from one file, and so does a name that
-- is passed on and looks like the entry of a star.
structure Consistent (m : Module) (disk : Disk) : Prop where
  imports : ∀ s ∈ m.imports, ∀ s' ∈ m.reexports, ∀ name, Binds s name → ExportsAs s' name →
    ∀ target target', LinksTo disk m.path s target → LinksTo disk m.path s' target' → target = target'
  stars : ∀ s ∈ m.reexports, ∀ s' ∈ m.reexports, ∀ source, sourceOf? s' = some source →
    Exports s (linkKey source star) → Exports s' star →
    ∀ target target', LinksTo disk m.path s target → LinksTo disk m.path s' target' → target = target'

theorem kind_of_mem_imports {m : Module} {statement : Node} (h : statement ∈ m.imports) :
    statement.kind = "import_statement" :=
  beq_iff_eq.mp (List.mem_filter.mp h).2

theorem kind_of_mem_reexports {m : Module} {statement : Node} (h : statement ∈ m.reexports) :
    statement.kind = "export_statement" :=
  beq_iff_eq.mp (Bool.and_eq_true_iff.mp (List.mem_filter.mp h).2).1

theorem mem_imports_or_mem_reexports {m : Module} {statement : Node} {source : String}
    (h : statement ∈ m.root.parts) (hsource : sourceOf? statement = some source) :
    statement ∈ m.imports ∨ statement ∈ m.reexports := by
  by_cases himport : statement.kind = "import_statement"
  · exact .inl (List.mem_filter.mpr ⟨h, beq_iff_eq.mpr himport⟩)
  · by_cases hexport : statement.kind = "export_statement"
    · refine .inr (List.mem_filter.mpr ⟨h, ?_⟩)
      simp [hexport, hsource]
    · simp [sourceOf?, himport, hexport] at hsource

theorem eq_of_pairwise {P : Node → String → Prop} {statements : List Node}
    (h : statements.Pairwise fun s s' => ∀ name, P s name → ¬P s' name) {s s' : Node}
    (hs : s ∈ statements) (hs' : s' ∈ statements) {name : String} (hname : P s name)
    (hname' : P s' name) : s = s' := by
  have hsymm : Std.Symm fun s s' => ∀ name, P s name → ¬P s' name :=
    ⟨fun _ _ h name hname hname' => h name hname' hname⟩
  by_contra hne
  exact h.forall hs hs' hne name hname hname'

section Keys

variable {m : Module} {disk : Disk} (hdistinct : m.Distinct) (hconsistent : m.Consistent disk)
  {s s' : Node} {source source' key : String} {target target' : Path}
  (hsource : sourceOf? s = some source) (hsource' : sourceOf? s' = some source')
  (hkey : key ∈ keysOf s source) (hkey' : key ∈ keysOf s' source')
  (hlinks : LinksTo disk m.path s target) (hlinks' : LinksTo disk m.path s' target')
include hdistinct hconsistent hsource hsource' hkey hkey' hlinks hlinks'

theorem target_eq_of_reexports (hs : s ∈ m.reexports) (hs' : s' ∈ m.reexports) : target = target' := by
  obtain ⟨name, hname, rfl⟩ := (mem_keysOf_export (kind_of_mem_reexports hs) _).mp hkey
  obtain ⟨name', hname', heq⟩ := (mem_keysOf_export (kind_of_mem_reexports hs') _).mp hkey'
  by_cases hstar : name = star
  · subst hstar
    by_cases hstar' : name' = star
    · subst hstar'
      refine hlinks.congr hlinks' ?_
      rw [hsource, hsource', linkKey_star_inj heq]
    · rw [linkKey_of_ne hstar'] at heq
      subst heq
      exact (hconsistent.stars s' hs' s hs source hsource hname' hname _ _ hlinks' hlinks).symm
  · rw [linkKey_of_ne hstar] at heq
    by_cases hstar' : name' = star
    · subst hstar' heq
      exact hconsistent.stars s hs s' hs' source' hsource' hname hname' _ _ hlinks hlinks'
    · rw [linkKey_of_ne hstar'] at heq
      subst heq
      obtain rfl := eq_of_pairwise hdistinct.reexports hs hs' ⟨hstar, hname⟩ ⟨hstar', hname'⟩
      exact hlinks.congr hlinks' rfl

-- A name under which two statements are entered stands for one file.
theorem target_eq_of_mem_keysOf (hs : s ∈ m.root.parts) (hs' : s' ∈ m.root.parts) :
    target = target' := by
  rcases mem_imports_or_mem_reexports hs hsource with hs | hs
  · have hname := (mem_keysOf_import (kind_of_mem_imports hs) _).mp hkey
    rcases mem_imports_or_mem_reexports hs' hsource' with hs' | hs'
    · have hname' := (mem_keysOf_import (kind_of_mem_imports hs') _).mp hkey'
      obtain rfl := eq_of_pairwise hdistinct.imports hs hs' hname hname'
      exact hlinks.congr hlinks' rfl
    · have hexports := exportsAs_of_mem_keysOf (kind_of_mem_reexports hs') hsource' hkey'
      exact hconsistent.imports s hs s' hs' key hname hexports _ _ hlinks hlinks'
  · rcases mem_imports_or_mem_reexports hs' hsource' with hs' | hs'
    · have hname := (mem_keysOf_import (kind_of_mem_imports hs') _).mp hkey'
      have hexports := exportsAs_of_mem_keysOf (kind_of_mem_reexports hs) hsource hkey
      exact (hconsistent.imports s' hs' s hs key hname hexports _ _ hlinks' hlinks).symm
    · exact target_eq_of_reexports hdistinct hconsistent hsource hsource' hkey hkey' hlinks hlinks' hs hs'

end Keys

-- What all statements say together.
theorem mem_readings_iff {m : Module} {disk : Disk} {readings : List Reading}
    (h : m.readings disk = .ok readings) {key : String} {target : Path} :
    (key, target) ∈ readings.flatMap (·.links) ↔ ∃ s ∈ m.root.parts, ∃ source,
      sourceOf? s = some source ∧ target? disk m.path source = .ok (some target) ∧
      key ∈ keysOf s source := by
  constructor
  · intro hmem
    obtain ⟨reading, hreading, hlink⟩ := List.mem_flatMap.mp hmem
    obtain ⟨s, hs, hstatement⟩ := List.exists_of_mem_mapM h hreading
    rw [ofStatement_eq] at hstatement
    split at hstatement
    · cases hstatement
      cases hlink
    · rename_i source hsource
      obtain ⟨found, htarget, rfl⟩ := Except.map_eq_ok.mp hstatement
      obtain ⟨path, hpath, hlink⟩ := List.mem_flatMap.mp hlink
      obtain ⟨name, hname, heq⟩ := List.mem_map.mp hlink
      obtain ⟨rfl, rfl⟩ := Prod.mk.inj heq
      rw [Option.mem_toList.mp hpath] at htarget
      exact ⟨s, hs, source, hsource, htarget, hname⟩
  · rintro ⟨s, hs, source, hsource, htarget, hkey⟩
    obtain ⟨reading, hreading, hstatement⟩ := List.exists_of_mapM_eq_ok h hs
    rw [ofStatement_eq, hsource] at hstatement
    simp only [htarget] at hstatement
    cases hstatement
    refine List.mem_flatMap.mpr ⟨_, hreading, ?_⟩
    simp [readingOf, hkey]

-- A statement's names are entered for the file that it links to.
theorem get?_links {m : Module} {disk : Disk} (hdistinct : m.Distinct)
    (hconsistent : m.Consistent disk) {links : Links} {notes : List Note}
    (h : m.links disk = .ok (links, notes)) {s : Node} (hs : s ∈ m.root.parts) {source key : String}
    {target : Path} (hsource : sourceOf? s = some source) (hkey : key ∈ keysOf s source)
    (hlinks : LinksTo disk m.path s target) : links.get? key = some target := by
  obtain ⟨readings, hreadings, heq⟩ := Except.map_eq_ok.mp h
  cases heq
  have hmem := (mem_readings_iff hreadings).mpr
    ⟨s, hs, source, hsource, hlinks.target?_eq hsource, hkey⟩
  refine OrderedMap.get?_foldl_insertIfNew_of_unique Prod.fst Prod.snd _ hmem ?_
  rintro ⟨key', target'⟩ hmem' rfl
  obtain ⟨s', hs', source', hsource', htarget', hkey'⟩ := (mem_readings_iff hreadings).mp hmem'
  exact target_eq_of_mem_keysOf hdistinct hconsistent hsource' hsource hkey' hkey
    (linksTo_of_target? hsource' htarget') hlinks hs' hs

-- No link of a module is lost as long as names that it both imports and passes on come from one
-- file, and its sources can be looked up. A module that has no components of its own then leads to
-- all that it passes on.
theorem links_kept {m : Module} {disk : Disk} (hdistinct : m.Distinct)
    (hconsistent : m.Consistent disk)
    (hanswered : ∀ source ∈ m.sources, ∀ tried e, ¬Stops disk m.path source tried e) :
    ∃ links notes, m.links disk = .ok (links, notes) ∧
      (∀ s ∈ m.imports, ∀ name target, Binds s name → LinksTo disk m.path s target →
        links.get? name = some target) ∧
      ∀ s ∈ m.reexports, ∀ target, (∃ name, Exports s name) → LinksTo disk m.path s target →
        target ∈ links.values ∧
        ∀ grammar files paths, Closed grammar disk files paths → m.path ∈ paths →
          Module.load grammar disk m.path = .ok m → m.components = [] → target ∈ paths := by
  obtain ⟨links, notes, hlinks⟩ := exists_links_iff.mpr hanswered
  refine ⟨links, notes, hlinks, ?_, ?_⟩
  · intro s hs name target hname hto
    obtain ⟨source, -, hsource, -⟩ := id hto
    have hkey := (mem_keysOf_import (kind_of_mem_imports hs) source).mpr hname
    exact get?_links hdistinct hconsistent hlinks (List.mem_filter.mp hs).1 hsource hkey hto
  · rintro s hs target ⟨name, hname⟩ hto
    obtain ⟨source, -, hsource, -⟩ := id hto
    have hkey : linkKey source name ∈ keysOf s source :=
      (mem_keysOf_export (kind_of_mem_reexports hs) source).mpr ⟨name, hname, rfl⟩
    have hvalue : target ∈ links.values := OrderedMap.mem_values_of_get?
      (get?_links hdistinct hconsistent hlinks (List.mem_filter.mp hs).1 hsource hkey hto)
    refine ⟨hvalue, ?_⟩
    intro grammar files paths hclosed hpath hload hempty
    exact hclosed.passed m.path hpath m links notes hload hempty hlinks target hvalue

instance (m : Module) : Decidable m.Distinct :=
  decidable_of_iff
    (m.imports.Pairwise (fun s s' => ∀ name ∈ importedNames s, name ∉ importedNames s') ∧
      m.reexports.Pairwise fun s s' => ∀ name ∈ reexportedNames s, name ≠ star →
        name ∉ reexportedNames s')
    (by
      simp only [mem_importedNames_iff, mem_reexportedNames_iff]
      constructor
      · rintro ⟨himports, hreexports⟩
        exact ⟨himports, hreexports.imp fun h name ⟨hstar, hname⟩ ⟨_, hname'⟩ => h name hname hstar hname'⟩
      · rintro ⟨himports, hreexports⟩
        exact ⟨himports, hreexports.imp fun h name hname hstar hname' =>
          h name ⟨hstar, hname⟩ ⟨hstar, hname'⟩⟩)

-- Names that are imported and passed on from one source do no harm.
theorem consistent_of_sources {m : Module}
    (himports : ∀ s ∈ m.imports, ∀ s' ∈ m.reexports, ∀ name ∈ importedNames s,
      ∀ source ∈ sourceOf? s', name ∈ keysOf s' source → sourceOf? s = sourceOf? s')
    (hstars : ∀ s ∈ m.reexports, ∀ s' ∈ m.reexports, ∀ source ∈ sourceOf? s',
      linkKey source star ∉ reexportedNames s) (disk : Disk) : m.Consistent disk := by
  constructor
  · rintro s hs s' hs' name hname ⟨source, exported, hsource, hexported, rfl⟩ target target' hto hto'
    have hkey := (mem_keysOf_export (kind_of_mem_reexports hs') source).mpr ⟨exported, hexported, rfl⟩
    exact hto.congr hto' (himports s hs s' hs' _ (mem_importedNames_iff.mpr hname) source hsource hkey)
  · intro s hs s' hs' source hsource hname
    exact absurd (mem_reexportedNames_iff.mpr hname) (hstars s hs s' hs' source hsource)

end Module

-- Modules that import from one file and pass on from others.
namespace Mediator

open Node

def specifier (kind name outer : String) : Node :=
  branch kind none [leaf "identifier" name (some .name), leaf "identifier" outer (some .alias)]

def importing (name source : String) : Node :=
  branch "import_statement" none
    [branch "import_clause" none [leaf "identifier" "Default" none,
      branch "named_imports" none [specifier "import_specifier" "x" name]],
      leaf "string" source (some .source)]

def passing (name source : String) : Node :=
  branch "export_statement" none
    [branch "export_clause" none [specifier "export_specifier" "y" name],
      leaf "string" source (some .source)]

def disk : Disk :=
  ⟨.dir .full [("a.js", .file (some [])), ("b.js", .file (some [])), ("c.js", .file (some [])),
    ("index.js", .file (some [105]))], [], []⟩

def moduleOf (statements : List Node) : Module :=
  ⟨.absolute ["index.js"], .javascript, "i", branch "program" none statements⟩

-- The name that is imported and passed on comes from one file.
def file : Module :=
  moduleOf [importing "Foo" "'./a'", passing "Foo" "'./a'", passing "Bar" "'./b'", Barrels.passOn "./c"]

def links : Links :=
  ⟨[("Default", .absolute ["a.js"]), ("Foo", .absolute ["a.js"]), ("Bar", .absolute ["b.js"]),
    ("*:./c", .absolute ["c.js"])]⟩

-- Here it comes from two.
def torn : Module :=
  moduleOf [importing "Foo" "'./a'", passing "Foo" "'./b'"]

def grammar : Grammar := fun _ source =>
  if source = "i" then torn.root else branch "program" none []

end Mediator

theorem links_kept_mediator :
    Mediator.file.Distinct ∧ Mediator.file.Consistent Mediator.disk ∧
      (Mediator.file.links Mediator.disk).toOption.map (·.1) = some Mediator.links ∧
      ∃ links notes, Mediator.file.links Mediator.disk = .ok (links, notes) ∧
        (∀ s ∈ Mediator.file.imports, ∀ name target, ModuleLink.Binds s name →
          ModuleLink.LinksTo Mediator.disk Mediator.file.path s target →
          links.get? name = some target) ∧
        ∀ s ∈ Mediator.file.reexports, ∀ target, (∃ name, ModuleLink.Exports s name) →
          ModuleLink.LinksTo Mediator.disk Mediator.file.path s target →
          target ∈ links.values ∧
          ∀ grammar files paths, Closed grammar Mediator.disk files paths →
            Mediator.file.path ∈ paths →
            Module.load grammar Mediator.disk Mediator.file.path = .ok Mediator.file →
            Mediator.file.components = [] → target ∈ paths := by
  have hdistinct : Mediator.file.Distinct := by decide +kernel
  have hconsistent : Mediator.file.Consistent Mediator.disk :=
    Module.consistent_of_sources (by decide +kernel) (by decide +kernel) Mediator.disk
  have hlinks : (Mediator.file.links Mediator.disk).toOption.map (·.1) = some Mediator.links := by
    decide +kernel
  obtain ⟨⟨links, notes⟩, hread, -⟩ := Except.exists_of_toOption_map hlinks
  exact ⟨hdistinct, hconsistent, hlinks,
    Module.links_kept hdistinct hconsistent (Module.exists_links_iff.mp ⟨links, notes, hread⟩)⟩

-- A name that is passed on has no entry of its own when it is also imported: the file that it comes
-- from is not followed to.
theorem links_lost_torn :
    Mediator.torn.Distinct ∧
      (∃ s ∈ Mediator.torn.reexports, ModuleLink.Exports s "Foo" ∧
        ModuleLink.LinksTo Mediator.disk Mediator.torn.path s (.absolute ["b.js"])) ∧
      (Mediator.torn.links Mediator.disk).toOption.map (·.1.values) =
        some [.absolute ["a.js"], .absolute ["a.js"]] ∧
      (analyze Mediator.grammar Mediator.disk "/index.js").toOption.map
        (·.diagnostics.filesAnalyzed) = some ["/index.js", "/a.js"] := by
  refine ⟨by decide +kernel, ⟨Mediator.passing "Foo" "'./b'", ?_, ?_, ?_⟩, by decide +kernel,
    by decide +kernel⟩
  · exact List.mem_singleton_self _
  · exact ModuleLink.mem_reexportedNames_iff.mp (by decide +kernel)
  · exact ⟨"./b", .absolute ["b.js"], by decide +kernel, by decide +kernel, by decide +kernel,
      by decide +kernel⟩

end PropFlow
