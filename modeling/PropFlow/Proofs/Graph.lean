import Mathlib.Data.List.Forall2
import PropFlow.Graph
import PropFlow.Proofs.Conflict
import PropFlow.Proofs.Except
import PropFlow.Proofs.Flow.Ends
import PropFlow.Proofs.OrderedMap
import PropFlow.Proofs.Path.Location

theorem List.forall₂_filterMap {α β : Type} {f : α → Option β} {R : α → β → Prop} {xs : List α}
    (h : ∀ x ∈ xs, ∃ y, f x = some y ∧ R x y) : Forall₂ R xs (xs.filterMap f) := by
  induction xs with
  | nil => exact .nil
  | cons x rest ih =>
      obtain ⟨⟨y, hy, hxy⟩, hrest⟩ := forall_mem_cons.mp h
      rw [filterMap_cons_some hy]
      exact .cons hxy (ih hrest)

namespace PropFlow

-- A component of a file, with an item of an id.
def Component.Holds (c : Component) (item file : String) : Prop :=
  c.file = file ∧ ∃ i ∈ c.items, i.id = item

namespace Graph

variable {components : List Component} {places : List (String × String)}

section Locations

variable {cwd : List String}

-- The files that locations are given for, each once and in order.
def sources (components : List Component) : List String :=
  (components.map (·.file)).eraseDups.mergeSort fun a b => decide (a ≤ b)

theorem mem_sources {file : String} : file ∈ sources components ↔ ∃ c ∈ components, c.file = file := by
  rw [sources, List.mem_mergeSort, List.mem_eraseDups, List.mem_map]

theorem forall_mem_sources {P : String → Prop} :
    (∀ file ∈ sources components, P file) ↔ ∀ c ∈ components, P c.file := by
  simp [mem_sources]

theorem sources_of_sorted {files : List String} (hfiles : (components.map (·.file)).eraseDups = files)
    (hsorted : files.Pairwise fun a b => decide (a ≤ b) = true) : sources components = files := by
  rw [sources, hfiles, List.mergeSort_of_pairwise hsorted]

theorem locations_of_common {base : Path}
    (h : Path.common ((sources components).map Path.directory) = .ok base) :
    locations cwd components =
      (sources components).mapM fun file => (file, ·) <$> Path.relativeTo cwd base file := by
  unfold sources at h ⊢
  unfold locations
  generalize (components.map (·.file)).eraseDups.mergeSort (fun a b => decide (a ≤ b)) = files at h ⊢
  cases files with
  | nil => rfl
  | cons first others =>
      simp only [h]
      rfl

-- Each file is reached by the names that lead to it from the directory that holds them all.
theorem exists_places (cwd : List String) (h : ∀ c ∈ components, Path.IsFilePath c.file) :
    ∃ base, ∃ place : String → String,
      Path.common ((sources components).map Path.directory) = .ok (.absolute base) ∧
      locations cwd components = .ok ((sources components).map fun file => (file, place file)) ∧
      ∀ c ∈ components, ∃ rest, Path.LiesBelow base c.file rest ∧ place c.file = "/".intercalate rest := by
  obtain ⟨base, hcommon, hbelow⟩ := Path.exists_common (forall_mem_sources.mpr h)
  choose! rest hrest using hbelow
  refine ⟨base, fun file => "/".intercalate (rest file), hcommon, ?_, ?_⟩
  · rw [locations_of_common hcommon]
    apply List.mapM_eq_ok
    intro file hfile
    rw [(hrest file hfile).relativeTo_eq]
    rfl
  · intro c hc
    exact ⟨rest c.file, hrest c.file (mem_sources.mpr ⟨c, hc, rfl⟩), rfl⟩

-- Files at known places have a location each, and no two of them the same.
theorem exists_locations (cwd : List String) (h : ∀ c ∈ components, Path.IsFilePath c.file) :
    ∃ places, locations cwd components = .ok places ∧ ∀ c ∈ components, ∀ d ∈ components,
      locationOf places c.file = locationOf places d.file → c.file = d.file := by
  obtain ⟨base, place, -, hlocations, hplace⟩ := exists_places cwd h
  refine ⟨_, hlocations, ?_⟩
  intro c hc d hd hsame
  obtain ⟨rest, hrest, hcPlace⟩ := hplace c hc
  obtain ⟨rest', hrest', hdPlace⟩ := hplace d hd
  simp only [locationOf, List.lookup_graph _ (mem_sources.mpr ⟨c, hc, rfl⟩),
    List.lookup_graph _ (mem_sources.mpr ⟨d, hd, rfl⟩), Option.getD_some, hcPlace, hdPlace] at hsame
  exact hrest.file_inj hrest' hsame

-- The locations of files that come in order.
theorem locations_of_sorted (first : String) (others : List String)
    (hfiles : (components.map (·.file)).eraseDups = first :: others)
    (hsorted : (first :: others).Pairwise fun a b => decide (a ≤ b) = true) :
    locations cwd components = Path.common ((first :: others).map Path.directory) >>= fun base =>
      (first :: others).mapM fun file => (file, ·) <$> Path.relativeTo cwd base file := by
  unfold locations
  rw [hfiles, List.mergeSort_of_pairwise hsorted]

end Locations

section Ids

-- Components of one name that is counted once are one component.
theorem eq_of_name_eq {c d : Component} (hc : c ∈ components) (hd : d ∈ components)
    (hname : c.name = d.name) (honce : components.countP (·.name == c.name) ≤ 1) : c = d := by
  have hcMem : c ∈ components.filter (·.name == c.name) := by simp [hc]
  have hdMem : d ∈ components.filter (·.name == c.name) := by simp [hd, hname]
  rw [List.countP_eq_length_filter] at honce
  cases hsame : components.filter (·.name == c.name) with
  | nil =>
      rw [hsame] at hcMem
      cases hcMem
  | cons only rest =>
      rw [hsame, List.length_cons] at honce
      obtain rfl : rest = [] := List.length_eq_zero_iff.mp (by omega)
      rw [hsame, List.mem_singleton] at hcMem hdMem
      rw [hcMem, hdMem]

theorem vertexId_congr {c d : Component} (h : c.key = d.key) :
    vertexId components places c = vertexId components places d := by
  obtain ⟨hname, hfile⟩ := Prod.mk.inj h
  unfold vertexId
  rw [hname, hfile]

-- An id is a name, or a name, a space and a location; both can be told from the id.
theorem name_eq_of_vertexId_eq {c d : Component} (hc : ' ' ∉ c.name.toList) (hd : ' ' ∉ d.name.toList)
    (h : vertexId components places c = vertexId components places d) :
    c.name = d.name ∧ (1 < components.countP (·.name == c.name) →
      locationOf places c.file = locationOf places d.file) := by
  have hqualified : ∀ e : Component, (e.name ++ " (" ++ locationOf places e.file ++ ")").toList =
      e.name.toList ++ ' ' :: '(' :: ((locationOf places e.file).toList ++ [')']) := by
    intro e
    simp
  unfold vertexId at h
  split at h
  · split at h
    · have hlists := congrArg String.toList h
      rw [hqualified, hqualified] at hlists
      obtain ⟨hname, hrest⟩ := List.append_separator_inj hc hd hlists
      have hlocation := List.append_cancel_right (List.cons.inj hrest).2
      exact ⟨String.toList_inj.mp hname, fun _ => String.toList_inj.mp hlocation⟩
    · refine absurd ?_ hd
      rw [← h, hqualified]
      simp
  · rename_i honce
    split at h
    · refine absurd ?_ hc
      rw [h, hqualified]
      simp
    · exact ⟨h, fun hmany => absurd hmany honce⟩

theorem vertexId_eq_iff (hspace : ∀ c ∈ components, ' ' ∉ c.name.toList)
    (hplaces : ∀ c ∈ components, ∀ d ∈ components,
      locationOf places c.file = locationOf places d.file → c.file = d.file)
    {c d : Component} (hc : c ∈ components) (hd : d ∈ components) :
    vertexId components places c = vertexId components places d ↔ c.key = d.key := by
  refine ⟨fun h => ?_, vertexId_congr⟩
  obtain ⟨hname, hlocation⟩ := name_eq_of_vertexId_eq (hspace c hc) (hspace d hd) h
  by_cases hmany : 1 < components.countP (·.name == c.name)
  · exact Prod.ext hname (hplaces c hc d hd (hlocation hmany))
  · rw [eq_of_name_eq hc hd hname (by omega)]

end Ids

section Owners

variable {item file : String}

-- The component that an end of a flow belongs to: the last one that owns it.
def owner? (components : List Component) (item file : String) : Option Component :=
  components.reverse.find? fun c => c.owns item file

theorem get?_foldl_items {items : List Item} {home id : String} {owners : OrderedMap (String × String) String} :
    (items.foldl (fun owners i => (owners.insert (i.id, home) id).insert (i.id, "") id) owners).get?
        (item, file) =
      if (home == file || file == "") && items.any (·.id == item) then some id
      else owners.get? (item, file) := by
  induction items generalizing owners with
  | nil => simp
  | cons i rest ih =>
      rw [List.foldl_cons, ih, OrderedMap.get?_insert, OrderedMap.get?_insert, List.any_cons]
      simp only [Prod.mk.injEq]
      grind

theorem get?_foldl_components {id : Component → String} {owners : OrderedMap (String × String) String} :
    (components.foldl (fun owners c => c.items.foldl (fun owners i =>
        (owners.insert (i.id, c.file) (id c)).insert (i.id, "") (id c)) owners) owners).get? (item, file) =
      ((owner? components item file).map id).or (owners.get? (item, file)) := by
  induction components generalizing owners with
  | nil => rfl
  | cons c rest ih =>
      have hlast : owner? (c :: rest) item file =
          (owner? rest item file).or (if c.owns item file then some c else none) := by
        rw [owner?, List.reverse_cons, List.find?_append, List.find?_singleton]
        rfl
      rw [List.foldl_cons, ih, get?_foldl_items, hlast, Option.map_or, Option.or_assoc]
      cases howns : c.owns item file with
      | true =>
          rw [Component.owns] at howns
          simp [howns]
      | false =>
          rw [Component.owns] at howns
          simp [howns]

-- Each entry takes the place of an earlier one, so that the last owner counts.
theorem get?_owners (components : List Component) (places : List (String × String)) (item file : String) :
    (owners components places).get? (item, file) =
      (owner? components item file).map (vertexId components places) := by
  rw [owners, get?_foldl_components]
  exact Option.or_none

theorem exists_of_get?_owners {id : String} (h : (owners components places).get? (item, file) = some id) :
    ∃ c ∈ components, c.owns item file = true ∧ vertexId components places c = id := by
  rw [get?_owners, Option.map_eq_some_iff] at h
  obtain ⟨c, hc, rfl⟩ := h
  have howns := List.find?_some hc
  exact ⟨c, List.mem_reverse.mp (List.mem_of_find?_eq_some hc), howns, rfl⟩

theorem isSome_get?_owners_iff (places : List (String × String)) :
    ((owners components places).get? (item, file)).isSome = true ↔ ∃ c ∈ components, c.owns item file = true := by
  rw [get?_owners, Option.isSome_map, owner?, List.find?_isSome]
  simp only [List.mem_reverse]

theorem owns_iff {c : Component} (hfile : file ≠ "") : c.owns item file = true ↔ c.Holds item file := by
  simp [Component.owns, Component.Holds, hfile]

end Owners

section Boxes

variable (components places)

theorem boxes_eq : boxes components places = components.foldl
    (fun m c => m.insert (vertexId components places c) c) .empty := by
  rw [boxes, OrderedMap.ofList, List.foldl_map]

theorem nodup_keys_boxes : (boxes components places).keys.Nodup := by
  rw [boxes_eq]
  exact OrderedMap.nodup_keys_foldl_alter _ _ _ (fun c _ => c) List.nodup_nil

theorem mem_keys_boxes {id : String} :
    id ∈ (boxes components places).keys ↔ id ∈ components.map (vertexId components places) := by
  rw [boxes_eq]
  refine (OrderedMap.mem_keys_foldl_alter _ components .empty fun c _ => c).trans ?_
  simp [OrderedMap.keys, OrderedMap.empty]

theorem mem_boxes {id : String} {c : Component} (h : (id, c) ∈ (boxes components places).entries) :
    c ∈ components ∧ id = vertexId components places c := by
  rw [OrderedMap.mem_entries_iff (nodup_keys_boxes components places), boxes_eq,
    OrderedMap.get?_foldl_insert (vertexId components places) fun c => c] at h
  have hlast : components.reverse.find? (vertexId components places · == id) = some c := by
    simpa [OrderedMap.get?, OrderedMap.empty] using h
  have hid := List.find?_some hlast
  exact ⟨List.mem_reverse.mp (List.mem_of_find?_eq_some hlast), (beq_iff_eq.mp hid).symm⟩

end Boxes

-- The graph of a result whose files have locations.
def drawing (r : Result) (places : List (String × String)) : Graph where
  vertices := (boxes r.components places).entries.map fun (id, c) =>
    ⟨id, c, locationOf places c.file,
      id ∈ r.conflicts.filterMap (conflictOwner? (owners r.components places))⟩
  edges := r.flows.filterMap (edgeOf? (owners r.components places))

theorem build_eq_drawing {cwd : List String} {r : Result} (h : locations cwd r.components = .ok places) :
    build cwd r.components r.flows r.conflicts = .ok (drawing r places) := by
  rw [build, h]
  rfl

theorem mem_vertices_drawing {r : Result} {v : Vertex} (h : v ∈ (drawing r places).vertices) :
    v.component ∈ r.components ∧ v.id = vertexId r.components places v.component ∧
      v.location = locationOf places v.component.file ∧
      (v.conflicted = true ↔ v.id ∈ r.conflicts.filterMap (conflictOwner? (owners r.components places))) := by
  obtain ⟨⟨id, c⟩, hentry, rfl⟩ := List.mem_map.mp h
  obtain ⟨hc, hid⟩ := mem_boxes _ _ hentry
  exact ⟨hc, hid, rfl, decide_eq_true_iff⟩

theorem map_id_vertices_drawing (r : Result) (places : List (String × String)) :
    (drawing r places).vertices.map (·.id) = (boxes r.components places).keys := by
  simp [drawing, OrderedMap.keys]

section Keys

variable {r : Result} (hid : ∀ c ∈ r.components, ∀ d ∈ r.components,
  vertexId r.components places c = vertexId r.components places d ↔ c.key = d.key)
include hid

theorem nodup_keys_drawing : ((drawing r places).vertices.map (·.component.key)).Nodup := by
  have hids : ((drawing r places).vertices.map (·.id)).Nodup := by
    rw [map_id_vertices_drawing]
    exact nodup_keys_boxes r.components places
  refine (List.nodup_map_iff_inj_on hids.of_map).mpr ?_
  intro v hv w hw hkey
  obtain ⟨hvMem, hvId, -⟩ := mem_vertices_drawing hv
  obtain ⟨hwMem, hwId, -⟩ := mem_vertices_drawing hw
  have hsame : v.id = w.id := by rw [hvId, hwId, (hid _ hvMem _ hwMem).mpr hkey]
  exact List.inj_on_of_nodup_map hids hv hw hsame

theorem mem_keys_drawing (key : String × String) :
    key ∈ (drawing r places).vertices.map (·.component.key) ↔ key ∈ r.components.map (·.key) := by
  constructor
  · intro hkey
    obtain ⟨v, hv, rfl⟩ := List.mem_map.mp hkey
    exact List.mem_map_of_mem (mem_vertices_drawing hv).1
  · intro hkey
    obtain ⟨c, hc, rfl⟩ := List.mem_map.mp hkey
    have hbox := (mem_keys_boxes r.components places).mpr (List.mem_map_of_mem hc)
    rw [← map_id_vertices_drawing] at hbox
    obtain ⟨v, hv, hvc⟩ := List.mem_map.mp hbox
    obtain ⟨hvMem, hvId, -⟩ := mem_vertices_drawing hv
    exact List.mem_map.mpr ⟨v, hv, (hid _ hvMem _ hc).mp (hvId.symm.trans hvc)⟩

end Keys

end Graph

end PropFlow
