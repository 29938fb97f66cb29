import PropFlow.Component.Layout

namespace PropFlow

-- A component without its place on the grid.
def Component.unplaced (c : Component) : Component :=
  { c with x := 0, y := 0 }

namespace Layout

theorem map_unplaced_arrange (components : List Component) :
    (arrange components).map Component.unplaced = components.map Component.unplaced := by
  apply List.ext_getElem?
  intro i
  simp only [arrange, List.getElem?_map, List.getElem?_mapIdx, Option.map_map]
  rfl

-- Every component has its place on the grid, with its file and items unchanged.
theorem exists_mem_arrange {components : List Component} {c : Component} (h : c ∈ components) :
    ∃ placed ∈ arrange components, placed.file = c.file ∧ placed.items = c.items := by
  have hmem : c.unplaced ∈ (arrange components).map Component.unplaced := by
    rw [map_unplaced_arrange]
    exact List.mem_map_of_mem h
  obtain ⟨placed, hplaced, hsame⟩ := List.mem_map.mp hmem
  have hfile : placed.unplaced.file = c.unplaced.file := by rw [hsame]
  have hitems : placed.unplaced.items = c.unplaced.items := by rw [hsame]
  exact ⟨placed, hplaced, hfile, hitems⟩

theorem exists_of_mem_arrange {components : List Component} {placed : Component}
    (h : placed ∈ arrange components) :
    ∃ c ∈ components, placed.name = c.name ∧ placed.file = c.file ∧ placed.items = c.items := by
  have hmem := List.mem_map_of_mem (f := Component.unplaced) h
  rw [map_unplaced_arrange] at hmem
  obtain ⟨c, hc, hsame⟩ := List.mem_map.mp hmem
  exact ⟨c, hc, (congrArg Component.name hsame).symm, (congrArg Component.file hsame).symm,
    (congrArg Component.items hsame).symm⟩

end Layout

end PropFlow
