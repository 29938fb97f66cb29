import PropFlow.Proofs.Graph.Label
import PropFlow.Proofs.Graph.Lines

namespace PropFlow

-- A result that can be drawn: files at real paths, names without a dash or a space, items made for
-- their components, flows between these items, and the conflicts of the components.
structure Result.Drawable (r : Result) : Prop where
  isFilePath : ∀ c ∈ r.components, Path.IsFilePath c.file
  dashless : ∀ c ∈ r.components, '-' ∉ c.name.toList
  spaceless : ∀ c ∈ r.components, ' ' ∉ c.name.toList
  created : ∀ c ∈ r.components, ∀ item ∈ c.items,
    ∃ key kind flowId name, item = .create c.name key kind flowId name
  source : ∀ f ∈ r.flows, ∃ c ∈ r.components, c.Holds f.source f.sourceFile
  target : ∀ f ∈ r.flows, ∃ c ∈ r.components, c.Holds f.target f.targetFile
  conflicts_eq : r.conflicts = Conflict.detect r.components

namespace Graph

-- A line that shows a component under its id, with a label that its name, its place and its items
-- can be read from. It is dashed and red if a conflict was reported for a component of its key.
def ShowsComponent (r : Result) (id : Component → String) (place : String → String) (c : Component)
    (line : String) : Prop :=
  ∃ label conflicted, line = nodeLine (id c) (String.ofList label) conflicted ∧
    Record.ofLabel? label =
      some ⟨c.name, place c.file, c.items.map fun item => item.kind.label ++ ": " ++ item.name⟩ ∧
    (conflicted = true ↔ ∃ conflict ∈ r.conflicts, ∃ d ∈ r.components,
      d.key = c.key ∧ conflict ∈ Conflict.ofComponent d)

-- A line that leads from a component with the one end of a flow to one with the other.
def ShowsFlow (r : Result) (id : Component → String) (f : Flow) (line : String) : Prop :=
  ∃ c ∈ r.components, ∃ d ∈ r.components, c.Holds f.source f.sourceFile ∧ d.Holds f.target f.targetFile ∧
    line = edgeLine (id c) (id d) f.type

-- Lines that show a result: one for a component of each key, and one for each flow in its order. An
-- end of a flow tells the key of its component.
structure Depicts (r : Result) (id : Component → String) (place : String → String)
    (nodes edges : List String) : Prop where
  id_eq_iff : ∀ c ∈ r.components, ∀ d ∈ r.components, id c = id d ↔ c.key = d.key
  owner_unique : ∀ c ∈ r.components, ∀ d ∈ r.components, ∀ item file,
    c.Holds item file → d.Holds item file → c.key = d.key
  nodes : ∃ drawn : List Component, drawn ⊆ r.components ∧ (drawn.map (·.key)).Nodup ∧
    (∀ c ∈ r.components, c.key ∈ drawn.map (·.key)) ∧ List.Forall₂ (ShowsComponent r id place) drawn nodes
  edges : List.Forall₂ (ShowsFlow r id) r.flows edges

end Graph

namespace Result.Drawable

open PropFlow.Graph

variable {r : Result} (h : r.Drawable)
include h

theorem file_ne_empty {c : Component} (hc : c ∈ r.components) : c.file ≠ "" := by
  obtain ⟨names, -, -, hfile⟩ := h.isFilePath c hc
  intro hempty
  have hlist := congrArg String.toList (hfile.symm.trans hempty)
  simp [Path.toList_text_absolute] at hlist

theorem name_of_id {c d : Component} (hc : c ∈ r.components) (hd : d ∈ r.components) {i j : Item}
    (hi : i ∈ c.items) (hj : j ∈ d.items) (hid : i.id = j.id) : c.name = d.name := by
  obtain ⟨key, _, _, _, rfl⟩ := h.created c hc i hi
  obtain ⟨key', _, _, _, rfl⟩ := h.created d hd j hj
  exact Text.eq_of_append_dash (h.dashless c hc) (h.dashless d hd) hid

theorem key_eq_of_holds {c d : Component} (hc : c ∈ r.components) (hd : d ∈ r.components)
    {item file : String} (hci : c.Holds item file) (hdi : d.Holds item file) : c.key = d.key := by
  obtain ⟨hcfile, i, hi, rfl⟩ := hci
  obtain ⟨hdfile, j, hj, hid⟩ := hdi
  exact Prod.ext (h.name_of_id hc hd hi hj hid.symm) (hcfile.trans hdfile.symm)

section Drawing

variable {places : List (String × String)}

-- The component that a look-up gives is one with the item, and so the one there is.
theorem get?_owners_of_holds (places : List (String × String)) {c : Component} (hc : c ∈ r.components)
    {item file : String} (hci : c.Holds item file) : ∃ d ∈ r.components, d.Holds item file ∧
      (owners r.components places).get? (item, file) = some (vertexId r.components places d) := by
  have hfile : file ≠ "" := hci.1 ▸ h.file_ne_empty hc
  have hfound := (isSome_get?_owners_iff places).mpr ⟨c, hc, (owns_iff hfile).mpr hci⟩
  obtain ⟨id, hid⟩ := Option.isSome_iff_exists.mp hfound
  obtain ⟨d, hd, howns, rfl⟩ := exists_of_get?_owners hid
  exact ⟨d, hd, (owns_iff hfile).mp howns, hid⟩

theorem exists_edgeOf? (places : List (String × String)) {f : Flow} (hf : f ∈ r.flows) :
    ∃ e, edgeOf? (owners r.components places) f = some e ∧
      ShowsFlow r (vertexId r.components places) f e.written := by
  obtain ⟨c, hc, hsource⟩ := h.source f hf
  obtain ⟨d, hd, htarget⟩ := h.target f hf
  obtain ⟨source, hsourceMem, hsource, hsourceId⟩ := h.get?_owners_of_holds places hc hsource
  obtain ⟨target, htargetMem, htarget, htargetId⟩ := h.get?_owners_of_holds places hd htarget
  refine ⟨⟨vertexId r.components places source, vertexId r.components places target, f.type⟩, ?_,
    source, hsourceMem, target, htargetMem, hsource, htarget, rfl⟩
  simp [edgeOf?, hsourceId, htargetId]

-- A conflict is shown at the component it was reported for.
theorem conflictOwner?_of_mem (places : List (String × String)) {c : Component} (hc : c ∈ r.components)
    {conflict : Conflict} (hconflict : conflict ∈ Conflict.ofComponent c) :
    ∃ d ∈ r.components, d.key = c.key ∧
      conflictOwner? (owners r.components places) conflict = some (vertexId r.components places d) := by
  obtain ⟨prop, hprop, hof⟩ := Conflict.mem_ofComponent hconflict
  obtain ⟨-, hitem, hfile⟩ := Conflict.ofProp?_eq_some hof
  have hholds : c.Holds prop.id conflict.file := ⟨hfile.symm, prop, hprop, rfl⟩
  obtain ⟨d, hd, hdholds, hid⟩ := h.get?_owners_of_holds places hc hholds
  refine ⟨d, hd, h.key_eq_of_holds hd hc hdholds hholds, ?_⟩
  rw [conflictOwner?, hitem, Option.bind_some, hid]

variable (hid : ∀ c ∈ r.components, ∀ d ∈ r.components,
  vertexId r.components places c = vertexId r.components places d ↔ c.key = d.key)
include hid

theorem conflicted_iff_drawing {v : Vertex} (hv : v ∈ (drawing r places).vertices) :
    v.conflicted = true ↔ ∃ conflict ∈ r.conflicts, ∃ d ∈ r.components,
      d.key = v.component.key ∧ conflict ∈ Conflict.ofComponent d := by
  obtain ⟨hvMem, hvId, -, hconflicted⟩ := mem_vertices_drawing hv
  rw [hconflicted, List.mem_filterMap]
  constructor
  · rintro ⟨conflict, hconflict, howner⟩
    have hdetected := h.conflicts_eq ▸ hconflict
    obtain ⟨c, hc, hreported⟩ := Conflict.exists_mem_ofComponent_of_mem_detect hdetected
    obtain ⟨d, hd, hkey, hdId⟩ := h.conflictOwner?_of_mem places hc hreported
    have hsame : vertexId r.components places d = vertexId r.components places v.component :=
      (Option.some.inj (hdId.symm.trans howner)).trans hvId
    exact ⟨conflict, hconflict, c, hc, hkey.symm.trans ((hid d hd _ hvMem).mp hsame), hreported⟩
  · rintro ⟨conflict, hconflict, c, hc, hkey, hreported⟩
    obtain ⟨d, hd, hdkey, hdId⟩ := h.conflictOwner?_of_mem places hc hreported
    refine ⟨conflict, hconflict, ?_⟩
    rw [hdId, hvId, (hid d hd _ hvMem).mpr (hdkey.trans hkey)]

theorem showsComponent_written {v : Vertex} (hv : v ∈ (drawing r places).vertices) :
    ShowsComponent r (vertexId r.components places) (locationOf places) v.component v.written := by
  obtain ⟨-, hvId, hlocation, -⟩ := mem_vertices_drawing hv
  refine ⟨recordLabel v.component v.location, v.conflicted, ?_, ?_, h.conflicted_iff_drawing hid hv⟩
  · rw [Vertex.written, hvId]
  · rw [ofLabel?_recordLabel, hlocation]
    rfl

theorem depicts_drawing : Depicts r (vertexId r.components places) (locationOf places)
    ((drawing r places).vertices.map Vertex.written) ((drawing r places).edges.map Edge.written) where
  id_eq_iff := hid
  owner_unique _ hc _ hd _ _ := h.key_eq_of_holds hc hd
  nodes := by
    refine ⟨(drawing r places).vertices.map (·.component), ?_, ?_, ?_, ?_⟩
    · intro c hc
      obtain ⟨v, hv, rfl⟩ := List.mem_map.mp hc
      exact (mem_vertices_drawing hv).1
    · rw [List.map_map]
      exact nodup_keys_drawing hid
    · intro c hc
      rw [List.map_map]
      exact (mem_keys_drawing hid c.key).mpr (List.mem_map_of_mem hc)
    · rw [List.forall₂_map_left_iff, List.forall₂_map_right_iff, List.forall₂_same]
      exact fun v hv => h.showsComponent_written hid hv
  edges := by
    rw [List.forall₂_map_right_iff]
    exact List.forall₂_filterMap fun f hf => h.exists_edgeOf? places hf

end Drawing

end Result.Drawable

namespace Graph

-- Whatever components share a name, nothing is merged and nothing is shown at another's place.
theorem render_depicts (cwd : List String) {r : Result} (h : r.Drawable) :
    ∃ places nodes edges, locations cwd r.components = .ok places ∧
      render cwd r "" = .ok (page nodes edges) ∧
      Depicts r (vertexId r.components places) (locationOf places) nodes edges := by
  obtain ⟨places, hplaces, hinj⟩ := exists_locations cwd h.isFilePath
  refine ⟨places, _, _, hplaces, render_whole hplaces, h.depicts_drawing ?_⟩
  exact fun c hc d hd => vertexId_eq_iff h.spaceless hinj hc hd

-- Two components of one name, one of which passes a prop on to the other. Their conflicts have one
-- id, and the first is kept.
namespace Twins

def card (file : String) : Component :=
  .build "Card" file [.create "Card" "theme" .prop (Item.flowOf "theme") none,
    .create "Card" "useTheme" .contextConsumer (Item.contextOf "useTheme") (some "useTheme()")]

def components : List Component :=
  [card "/app/a/Card.js", card "/app/b/Card.js"]

def result : Result where
  components := components
  flows := [⟨"theme-flow", "Card-theme", "Card-theme", "prop-to-prop", "/app/a/Card.js", "/app/b/Card.js"⟩]
  conflicts := Conflict.detect components
  diagnostics := .empty

theorem card_holds (file : String) : (card file).Holds "Card-theme" file :=
  ⟨rfl, _, List.mem_cons_self, rfl⟩

theorem drawable : result.Drawable where
  isFilePath := by
    have ha : Path.IsFilePath "/app/a/Card.js" := ⟨["app", "a", "Card.js"], by decide +kernel⟩
    have hb : Path.IsFilePath "/app/b/Card.js" := ⟨["app", "b", "Card.js"], by decide +kernel⟩
    simpa [result, components, card, Component.build] using ⟨ha, hb⟩
  dashless := by decide
  spaceless := by decide
  created := by
    have hcard : ∀ file, ∀ item ∈ (card file).items,
        ∃ key kind flowId name, item = .create "Card" key kind flowId name := by
      intro file item hitem
      simp only [card, Component.build, List.mem_cons, List.not_mem_nil, or_false] at hitem
      rcases hitem with rfl | rfl
      · exact ⟨_, _, _, _, rfl⟩
      · exact ⟨_, _, _, _, rfl⟩
    intro c hc
    simp only [result, components, List.mem_cons, List.not_mem_nil, or_false] at hc
    rcases hc with rfl | rfl
    · exact hcard _
    · exact hcard _
  source f hf := by
    obtain rfl := List.mem_singleton.mp hf
    exact ⟨_, List.mem_cons_self, card_holds _⟩
  target f hf := by
    obtain rfl := List.mem_singleton.mp hf
    exact ⟨_, List.mem_cons_of_mem _ List.mem_cons_self, card_holds _⟩
  conflicts_eq := rfl

theorem locations_eq : locations ["app"] result.components =
    .ok [("/app/a/Card.js", "a/Card.js"), ("/app/b/Card.js", "b/Card.js")] := by
  rw [locations_of_sorted "/app/a/Card.js" ["/app/b/Card.js"] (by decide +kernel) (by decide +kernel)]
  decide +kernel

def label (place : String) : String :=
  "\x7bCard|" ++ place ++ "|prop: theme\\lcontext-consumer: useTheme()\\l\x7d"

end Twins

theorem render_depicts_twins : Twins.result.Drawable ∧
    render ["app"] Twins.result "" = .ok (page
      [nodeLine "Card (a/Card.js)" (Twins.label "a/Card.js") true,
        nodeLine "Card (b/Card.js)" (Twins.label "b/Card.js") false]
      [edgeLine "Card (a/Card.js)" "Card (b/Card.js)" "prop-to-prop"]) ∧
    ∃ places nodes edges, locations ["app"] Twins.result.components = .ok places ∧
      render ["app"] Twins.result "" = .ok (page nodes edges) ∧
      Depicts Twins.result (vertexId Twins.result.components places) (locationOf places) nodes edges := by
  refine ⟨Twins.drawable, ?_, render_depicts ["app"] Twins.drawable⟩
  rw [render_whole Twins.locations_eq]
  decide +kernel

end Graph

end PropFlow
