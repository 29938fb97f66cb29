import PropFlow.Proofs.Analysis.Flows
import PropFlow.Proofs.Analysis.Reach
import PropFlow.Proofs.Graph.Depicts

namespace PropFlow

-- Only a path with a name on it has an ending that says which language it is in.
theorem Module.parts_ne_nil_of_load {grammar : Grammar} {disk : Disk} {path : Path} {m : Module}
    (h : load grammar disk path = .ok m) : path.parts ≠ [] := by
  intro hparts
  have hsuffix : Language.ofSuffix? (Text.lower path.suffix) = none := by
    rw [Path.suffix, Path.name, hparts]
    decide
  unfold load parse at h
  rw [hsuffix] at h
  split at h <;> cases h

theorem isFilePath_of_mem_componentsAt {grammar : Grammar} {disk : Disk} {path : Path}
    (hpath : path ∈ readable) {c : Component} (hc : c ∈ componentsAt grammar disk path) :
    Path.IsFilePath c.file := by
  have hne : path.parts ≠ [] := by
    unfold componentsAt at hc
    split at hc
    · cases hc
    · rename_i hload
      exact Module.parts_ne_nil_of_load hload
  rw [file_of_mem_componentsAt hc]
  obtain ⟨names, rfl, hnames⟩ := hpath
  exact ⟨names, hne, hnames, rfl⟩

theorem Item.Made.created {component : String} {item : Item} (h : item.Made component) :
    ∃ key kind flowId name, item = .create component key kind flowId name := by
  cases h <;> exact ⟨_, _, _, _, rfl⟩

-- The place of a component on the grid has nothing to do with its conflicts.
theorem Conflict.detect_arrange (components : List Component) :
    detect (Layout.arrange components) = detect components := by
  have hplaced : ∀ cs : List Component, cs.flatMap ofComponent =
      (cs.map Component.unplaced).flatMap ofComponent := by
    intro cs
    rw [List.flatMap_map]
    rfl
  unfold detect
  rw [hplaced, Layout.map_unplaced_arrange, ← hplaced]

theorem Flow.Within.holds {components : List Component} {f : Flow} (h : f.Within components) :
    (∃ c ∈ components, c.Holds f.source f.sourceFile) ∧
      ∃ c ∈ components, c.Holds f.target f.targetFile := by
  obtain ⟨parent, hparent, child, hchild, source, hsource, target, htarget, hjoins⟩ := h
  exact ⟨⟨parent, hparent, hjoins.sourceFile_eq.symm, source, hsource, hjoins.source_eq.symm⟩,
    child, hchild, hjoins.targetFile_eq.symm, target, htarget, hjoins.target_eq.symm⟩

-- What an analysis finds can be drawn, as long as no component has a dash or a space in its name.
theorem analyze_drawable {grammar : Grammar} {disk : Disk} (hdisk : disk.WellNamed) {root : String}
    {result : Result} (h : analyze grammar disk root = .ok result)
    (hdash : ∀ c ∈ result.components, '-' ∉ c.name.toList)
    (hspace : ∀ c ∈ result.components, ' ' ∉ c.name.toList) : result.Drawable := by
  obtain ⟨run, hrun, rfl⟩ := Except.map_eq_ok.mp h
  obtain ⟨-, -, hcomponents, -⟩ := explore_history hrun
  have hwithin : ∀ f ∈ run.result.flows, f.Within run.result.components := by
    intro f hf
    rw [Run.result, Flow.finalize_eq] at hf
    have hinferred := (List.mem_filter.mp (List.mem_eraseDups.mp hf)).1
    exact (Flow.within_of_mem_infer (explore_made hrun) hinferred).arrange
  refine ⟨?_, hdash, hspace, ?_, fun f hf => (hwithin f hf).holds.1,
    fun f hf => (hwithin f hf).holds.2, (Conflict.detect_arrange run.components).symm⟩
  · intro c hc
    obtain ⟨d, hd, -, hfile, -⟩ := Layout.exists_of_mem_arrange hc
    rw [hcomponents] at hd
    obtain ⟨path, hpath, hdeclared⟩ := List.mem_flatMap.mp hd
    rw [hfile]
    exact isFilePath_of_mem_componentsAt (explore_readable hdisk hrun path hpath) hdeclared
  · intro c hc item hitem
    obtain ⟨d, hd, hname, -, hitems⟩ := Layout.exists_of_mem_arrange hc
    rw [hname]
    exact (explore_made hrun d hd item (hitems ▸ hitem)).created

end PropFlow
