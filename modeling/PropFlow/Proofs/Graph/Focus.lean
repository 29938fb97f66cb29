import PropFlow.Proofs.Enumerates
import PropFlow.Proofs.Graph.Lines
import PropFlow.Proofs.Text.Search

namespace PropFlow

-- A component with a text in its name.
def Component.Matches (c : Component) (text : String) : Prop :=
  text.toList <:+: c.name.toList

instance (c : Component) (text : String) : Decidable (c.Matches text) :=
  inferInstanceAs (Decidable (_ <:+: _))

namespace Graph

-- A graph that has a vertex for each end of an edge.
def Closed (g : Graph) : Prop :=
  ∀ e ∈ g.edges, e.source ∈ g.vertices.map (·.id) ∧ e.target ∈ g.vertices.map (·.id)

-- The ids of the vertices whose component has a text in its name.
def hits (g : Graph) (text : String) : List String :=
  (g.vertices.filter fun v => Text.isSubstring text v.component.name).map (·.id)

section Hits

variable {g : Graph} {text id : String}

theorem mem_hits_iff : id ∈ g.hits text ↔ ∃ v ∈ g.vertices, v.component.Matches text ∧ v.id = id := by
  simp [hits, Text.isSubstring_iff, Component.Matches, and_assoc]

theorem hits_subset_of_isInfix {wider : String} (h : wider.toList <:+: text.toList) :
    g.hits text ⊆ g.hits wider := by
  intro id hid
  obtain ⟨v, hv, hmatches, rfl⟩ := mem_hits_iff.mp hid
  exact mem_hits_iff.mpr ⟨v, hv, h.trans hmatches, rfl⟩

end Hits

section Focus

variable {g : Graph} {text : String}

theorem focus_eq_self (h : text = "" ∨ g.hits text = []) : g.focus text = g :=
  if_pos h

variable (hne : text ≠ "") (hhit : g.hits text ≠ [])
include hne hhit

theorem edges_focus :
    (g.focus text).edges = g.edges.filter fun e => e.source ∈ g.hits text || e.target ∈ g.hits text :=
  congrArg Graph.edges (if_neg (not_or.mpr ⟨hne, hhit⟩))

theorem vertices_focus : (g.focus text).vertices =
    (g.vertices.filter fun v =>
      v.id ∈ g.hits text ++ (g.focus text).edges.flatMap fun e => [e.source, e.target]).mergeSort
      fun a b => decide (a.id ≤ b.id) := by
  rw [edges_focus hne hhit]
  exact congrArg Graph.vertices (if_neg (not_or.mpr ⟨hne, hhit⟩))

theorem mem_edges_focus {e : Edge} : e ∈ (g.focus text).edges ↔
    e ∈ g.edges ∧ (e.source ∈ g.hits text ∨ e.target ∈ g.hits text) := by
  rw [edges_focus hne hhit, List.mem_filter]
  simp

theorem mem_vertices_focus {v : Vertex} : v ∈ (g.focus text).vertices ↔ v ∈ g.vertices ∧
    (v.id ∈ g.hits text ∨ ∃ e ∈ (g.focus text).edges, v.id = e.source ∨ v.id = e.target) := by
  rw [vertices_focus hne hhit, List.mem_mergeSort, List.mem_filter]
  simp

-- The ends of an edge are shown with it.
theorem mem_ids_of_mem_edges_focus (hclosed : g.Closed) {e : Edge} (he : e ∈ (g.focus text).edges)
    {id : String} (hid : id = e.source ∨ id = e.target) : id ∈ (g.focus text).vertices.map (·.id) := by
  have hends := hclosed e ((mem_edges_focus hne hhit).mp he).1
  have hmem : id ∈ g.vertices.map (·.id) := by
    rcases hid with rfl | rfl
    · exact hends.1
    · exact hends.2
  obtain ⟨v, hv, rfl⟩ := List.mem_map.mp hmem
  exact List.mem_map_of_mem ((mem_vertices_focus hne hhit).mpr ⟨hv, .inr ⟨e, he, hid⟩⟩)

theorem mem_ids_focus (hclosed : g.Closed) {id : String} : id ∈ (g.focus text).vertices.map (·.id) ↔
    id ∈ g.hits text ∨ ∃ e ∈ (g.focus text).edges, id = e.source ∨ id = e.target := by
  constructor
  · intro hid
    obtain ⟨v, hv, rfl⟩ := List.mem_map.mp hid
    exact ((mem_vertices_focus hne hhit).mp hv).2
  · rintro (hid | ⟨e, he, hid⟩)
    · obtain ⟨v, hv, -, rfl⟩ := mem_hits_iff.mp hid
      exact List.mem_map_of_mem ((mem_vertices_focus hne hhit).mpr ⟨hv, .inl hid⟩)
    · exact mem_ids_of_mem_edges_focus hne hhit hclosed he hid

theorem pairwise_ids_focus (hids : (g.vertices.map (·.id)).Nodup) :
    ((g.focus text).vertices.map (·.id)).Pairwise (· < ·) := by
  rw [vertices_focus hne hhit]
  apply List.pairwise_map.mpr
  apply List.pairwise_lt_mergeSort
  exact hids.sublist (List.filter_sublist.map _)

-- What is shown around the matches of a text is shown around those of a part of it too.
theorem focus_subset_of_isInfix {wider : String} (hwider : wider ≠ "")
    (h : wider.toList <:+: text.toList) : (g.focus text).vertices ⊆ (g.focus wider).vertices ∧
      (g.focus text).edges.Sublist (g.focus wider).edges := by
  have hsubset := hits_subset_of_isInfix (g := g) h
  have hmore : g.hits wider ≠ [] := fun hnil => hhit (List.subset_nil.mp (hnil ▸ hsubset))
  have hedges : (g.focus text).edges.Sublist (g.focus wider).edges := by
    rw [edges_focus hne hhit, edges_focus hwider hmore]
    apply List.monotone_filter_right
    intro e he
    simp only [Bool.or_eq_true, decide_eq_true_eq] at he ⊢
    exact he.imp (hsubset ·) (hsubset ·)
  refine ⟨fun v hv => ?_, hedges⟩
  obtain ⟨hmem, hshown⟩ := (mem_vertices_focus hne hhit).mp hv
  refine (mem_vertices_focus hwider hmore).mpr ⟨hmem, ?_⟩
  rcases hshown with hid | ⟨e, he, hid⟩
  · exact .inl (hsubset hid)
  · exact .inr ⟨e, hedges.subset he, hid⟩

end Focus

theorem Closed.focus {g : Graph} (h : g.Closed) (text : String) : (g.focus text).Closed := by
  by_cases hall : text = "" ∨ g.hits text = []
  · rw [focus_eq_self hall]
    exact h
  · obtain ⟨hne, hhit⟩ := not_or.mp hall
    intro e he
    exact ⟨mem_ids_of_mem_edges_focus hne hhit h he (.inl rfl),
      mem_ids_of_mem_edges_focus hne hhit h he (.inr rfl)⟩

-- An id that a component is drawn under whose name has a text in it.
def IsHit (components : List Component) (places : List (String × String)) (text id : String) : Prop :=
  ∃ c ∈ components, vertexId components places c = id ∧ c.Matches text

instance (components : List Component) (places : List (String × String)) (text id : String) :
    Decidable (IsHit components places text id) :=
  inferInstanceAs (Decidable (∃ _ ∈ _, _))

section Drawing

variable {r : Result} {places : List (String × String)}

theorem exists_vertex_drawing (places : List (String × String)) {c : Component} (hc : c ∈ r.components) :
    ∃ v ∈ (drawing r places).vertices, v.id = vertexId r.components places c := by
  have hbox := (mem_keys_boxes r.components places).mpr (List.mem_map_of_mem hc)
  rw [← map_id_vertices_drawing] at hbox
  exact List.mem_map.mp hbox

theorem closed_drawing : (drawing r places).Closed := by
  have hdrawn : ∀ item file id, (owners r.components places).get? (item, file) = some id →
      id ∈ (drawing r places).vertices.map (·.id) := by
    intro item file id howner
    obtain ⟨c, hc, -, rfl⟩ := exists_of_get?_owners howner
    obtain ⟨v, hv, hid⟩ := exists_vertex_drawing places hc
    exact List.mem_map.mpr ⟨v, hv, hid⟩
  intro e he
  obtain ⟨flow, -, hflow⟩ := List.mem_filterMap.mp he
  obtain ⟨source, hsource, hflow⟩ := Option.bind_eq_some_iff.mp hflow
  obtain ⟨target, htarget, hflow⟩ := Option.bind_eq_some_iff.mp hflow
  cases hflow
  exact ⟨hdrawn _ _ _ hsource, hdrawn _ _ _ htarget⟩

-- Under one id only components of one name are drawn, so that it does not matter which of them
-- is in the box.
theorem mem_hits_drawing (hspace : ∀ c ∈ r.components, ' ' ∉ c.name.toList) {text id : String} :
    id ∈ (drawing r places).hits text ↔ IsHit r.components places text id := by
  rw [mem_hits_iff]
  constructor
  · rintro ⟨v, hv, hmatches, rfl⟩
    obtain ⟨hmem, hid, -⟩ := mem_vertices_drawing hv
    exact ⟨v.component, hmem, hid.symm, hmatches⟩
  · rintro ⟨c, hc, rfl, hmatches⟩
    obtain ⟨v, hv, hid⟩ := exists_vertex_drawing places hc
    obtain ⟨hmem, hvId, -⟩ := mem_vertices_drawing hv
    have hname := (name_eq_of_vertexId_eq (hspace _ hmem) (hspace c hc) (hvId.symm.trans hid)).1
    exact ⟨v, hv, by rwa [Component.Matches, hname], hid⟩

theorem hits_drawing_eq_nil_iff (hspace : ∀ c ∈ r.components, ' ' ∉ c.name.toList) {text : String} :
    (drawing r places).hits text = [] ↔ ∀ c ∈ r.components, ¬c.Matches text := by
  rw [List.eq_nil_iff_forall_not_mem]
  constructor
  · intro h c hc hmatches
    exact h _ ((mem_hits_drawing hspace).mpr ⟨c, hc, rfl, hmatches⟩)
  · intro h id hid
    obtain ⟨c, hc, -, hmatches⟩ := (mem_hits_drawing hspace).mp hid
    exact h c hc hmatches

end Drawing

-- The part of a graph around the components with a text in their names: the edges at these
-- components in their order, and the components with all that the edges lead to, by their ids and
-- as they are in the whole graph.
structure Around (r : Result) (places : List (String × String)) (text : String)
    (full shown : Graph) : Prop where
  edges_eq : shown.edges = full.edges.filter fun e =>
    IsHit r.components places text e.source ∨ IsHit r.components places text e.target
  mem_ids : ∀ id, id ∈ shown.vertices.map (·.id) ↔ IsHit r.components places text id ∨
    ∃ e ∈ shown.edges, id = e.source ∨ id = e.target
  sorted : (shown.vertices.map (·.id)).Pairwise (· < ·)
  unchanged : shown.vertices ⊆ full.vertices

theorem around_focus {r : Result} {places : List (String × String)} {text : String}
    (hspace : ∀ c ∈ r.components, ' ' ∉ c.name.toList) (hne : text ≠ "")
    (hhit : (drawing r places).hits text ≠ []) :
    Around r places text (drawing r places) ((drawing r places).focus text) where
  edges_eq := by
    rw [edges_focus hne hhit]
    apply List.filter_congr
    intro e _
    simp only [mem_hits_drawing hspace, Bool.decide_or]
  mem_ids id := by
    rw [mem_ids_focus hne hhit closed_drawing, mem_hits_drawing hspace]
  sorted := by
    apply pairwise_ids_focus hne hhit
    rw [map_id_vertices_drawing]
    exact nodup_keys_boxes r.components places
  unchanged _ hv := ((mem_vertices_focus hne hhit).mp hv).1

-- A focus that matches nothing shows the whole graph, and any other one the part around what it
-- matches, in the same lines; a part of such a focus shows no less.
theorem render_shows_around {cwd : List String} {r : Result} {focused text : String}
    (hspace : ∀ c ∈ r.components, ' ' ∉ c.name.toList) (h : render cwd r focused = .ok text) :
    ∃ (places : List (String × String)) (full shown : Graph), locations cwd r.components = .ok places ∧
      build cwd r.components r.flows r.conflicts = .ok full ∧ (full.vertices.map (·.id)).Nodup ∧
      render cwd r "" = .ok (page (full.vertices.map Vertex.written) (full.edges.map Edge.written)) ∧
      text = page (shown.vertices.map Vertex.written) (shown.edges.map Edge.written) ∧ shown.Closed ∧
      (focused = "" ∨ (∀ c ∈ r.components, ¬c.Matches focused) → shown = full) ∧
      (focused ≠ "" ∧ (∃ c ∈ r.components, c.Matches focused) →
        Around r places focused full shown ∧
        ∀ wider, wider ≠ "" → wider.toList <:+: focused.toList → ∃ more : Graph,
          render cwd r wider = .ok (page (more.vertices.map Vertex.written) (more.edges.map Edge.written)) ∧
          shown.vertices ⊆ more.vertices ∧ shown.edges.Sublist more.edges) := by
  obtain ⟨places, hplaces⟩ := exists_locations_of_render h
  have hrender : ∀ other, render cwd r other =
      .ok (page (((drawing r places).focus other).vertices.map Vertex.written)
        (((drawing r places).focus other).edges.map Edge.written)) := by
    intro other
    rw [render_of_locations hplaces, text_eq_page]
  refine ⟨places, drawing r places, (drawing r places).focus focused, hplaces, build_eq_drawing hplaces, ?_,
    render_whole hplaces, Except.ok.inj (h.symm.trans (hrender focused)), closed_drawing.focus focused, ?_, ?_⟩
  · rw [map_id_vertices_drawing]
    exact nodup_keys_boxes r.components places
  · intro hnone
    exact focus_eq_self (hnone.imp_right (hits_drawing_eq_nil_iff hspace).mpr)
  · rintro ⟨hne, c, hc, hmatches⟩
    have hhit : (drawing r places).hits focused ≠ [] := by
      rw [Ne, hits_drawing_eq_nil_iff hspace]
      exact fun hnone => hnone c hc hmatches
    refine ⟨around_focus hspace hne hhit, fun wider hwider hinfix => ⟨_, hrender wider, ?_⟩⟩
    exact focus_subset_of_isInfix hne hhit hwider hinfix

-- A page that hands one prop to its header and one to its footer.
namespace Page

def part (name key : String) : Component :=
  .build name "/app/page.js" [.create name key .prop (Item.flowOf key) none]

def flow (target key : String) : Flow :=
  ⟨Item.flowOf key, "Page-text", target ++ "-" ++ key, "prop-to-prop", "/app/page.js", "/app/page.js"⟩

def result : Result where
  components := [part "Page" "text", part "Header" "title", part "Footer" "note"]
  flows := [flow "Header" "title", flow "Footer" "note"]
  conflicts := []
  diagnostics := .empty

theorem locations_eq : locations ["app"] result.components = .ok [("/app/page.js", "page.js")] := by
  rw [locations_of_sorted "/app/page.js" [] (by decide +kernel) (by decide +kernel)]
  decide +kernel

end Page

theorem render_shows_around_page :
    (∀ c ∈ Page.result.components, ' ' ∉ c.name.toList) ∧
    ∃ (text : String) (places : List (String × String)) (full shown : Graph),
      render ["app"] Page.result "Head" = .ok text ∧
      text = page (shown.vertices.map Vertex.written) (shown.edges.map Edge.written) ∧
      full.edges.length = 2 ∧ shown.edges = [⟨"Page", "Header", "prop-to-prop"⟩] ∧
      Around Page.result places "Head" full shown := by
  have hspace : ∀ c ∈ Page.result.components, ' ' ∉ c.name.toList := by decide
  have hrender := render_of_locations Page.locations_eq "Head"
  obtain ⟨places, full, shown, hplaces, hfull, -, -, htext, -, -, haround⟩ :=
    render_shows_around hspace hrender
  cases hplaces.symm.trans Page.locations_eq
  cases hfull.symm.trans (build_eq_drawing Page.locations_eq)
  have hshown := (haround ⟨by decide, by decide +kernel⟩).1
  exact ⟨hspace, _, _, _, shown, hrender, htext, by decide +kernel,
    hshown.edges_eq.trans (by decide +kernel), hshown⟩

end Graph

end PropFlow
