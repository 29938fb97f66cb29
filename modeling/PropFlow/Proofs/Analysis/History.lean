import PropFlow.Proofs.Analysis.Explores

namespace PropFlow

namespace Diagnostics

@[simp] theorem filesAnalyzed_note (d : Diagnostics) (n : Note) :
    (d.note n).filesAnalyzed = d.filesAnalyzed := rfl

@[simp] theorem filesAnalyzed_notes (d : Diagnostics) (ns : List Note) :
    (d.notes ns).filesAnalyzed = d.filesAnalyzed := by
  induction ns generalizing d with
  | nil => rfl
  | cons n rest ih => exact ih (d.note n)

@[simp] theorem filesAnalyzed_componentsFound (d : Diagnostics) (cs : List Component) :
    (cs.foldl componentFound d).filesAnalyzed = d.filesAnalyzed := by
  induction cs generalizing d with
  | nil => rfl
  | cons c rest ih => exact ih (d.componentFound c)

end Diagnostics

-- The module at a path with its links, where there is one that can be read.
def opened? (grammar : Grammar) (disk : Disk) (path : Path) : Option (Module × Links) :=
  match Module.load grammar disk path with
  | .error _ => none
  | .ok m =>
    match m.links disk with
    | .error _ => none
    | .ok (links, _) => some (m, links)

-- The components of the module at a path.
def componentsAt (grammar : Grammar) (disk : Disk) (path : Path) : List Component :=
  match Module.load grammar disk path with
  | .error _ => []
  | .ok m => m.components

theorem exists_component?_of_mem_componentsAt {grammar : Grammar} {disk : Disk} {path : Path}
    {c : Component} (h : c ∈ componentsAt grammar disk path) :
    ∃ (f : Finding) (file : String), f.component? file = some c := by
  unfold componentsAt at h
  split at h
  · cases h
  · rename_i m _
    obtain ⟨f, -, hf⟩ := List.mem_filterMap.mp h
    exact ⟨f, m.path.text, hf⟩

theorem Finding.eq_build_of_component? {file : String} {f : Finding} {c : Component}
    (h : f.component? file = some c) : ∃ name items, c = .build name file items := by
  unfold component? at h
  split at h
  · obtain ⟨⟨name, harvest⟩, -, rfl⟩ := Option.map_eq_some_iff.mp h
    exact ⟨name, harvest.items, rfl⟩
  · cases h

theorem Module.path_of_parse {grammar : Grammar} {path : Path} {source : String} {m : Module}
    (h : parse grammar path source = .ok m) : m.path = path := by
  unfold parse at h
  split at h
  · cases h
  · rename_i language _
    simp only at h
    split at h
    · cases hfallback : fallback? language with
      | none =>
          rw [hfallback] at h
          cases h
      | some other =>
          simp only [hfallback] at h
          split at h
          · cases h
          · cases h
            rfl
    · cases h
      rfl

theorem Module.path_of_load {grammar : Grammar} {disk : Disk} {path : Path} {m : Module}
    (h : load grammar disk path = .ok m) : m.path = path := by
  unfold load at h
  split at h
  · cases h
  · exact path_of_parse h

theorem path_of_opened? {grammar : Grammar} {disk : Disk} {path : Path} {m : Module} {links : Links}
    (h : opened? grammar disk path = some (m, links)) : m.path = path := by
  unfold opened? at h
  split at h
  · cases h
  · rename_i hload
    split at h
    · cases h
    · cases h
      exact Module.path_of_load hload

theorem file_of_mem_componentsAt {grammar : Grammar} {disk : Disk} {path : Path} {c : Component}
    (h : c ∈ componentsAt grammar disk path) : c.file = path.text := by
  unfold componentsAt at h
  split at h
  · cases h
  · rename_i m hload
    obtain ⟨f, -, hf⟩ := List.mem_filterMap.mp h
    obtain ⟨name, items, rfl⟩ := f.eq_build_of_component? hf
    rw [← Module.path_of_load hload]
    rfl

namespace Run

-- A run that has come to visit some more paths. What it holds besides its notes follows from the
-- paths alone.
structure Grows (grammar : Grammar) (disk : Disk) (run : Run) (paths : List Path) (run' : Run) :
    Prop where
  visited : run'.visited = run.visited ++ paths
  fresh : run.visited.Nodup → run'.visited.Nodup
  modules : run'.modules = run.modules ++ paths.filterMap (opened? grammar disk)
  components : run'.components = run.components ++ paths.flatMap (componentsAt grammar disk)
  filesAnalyzed : run'.diagnostics.filesAnalyzed =
    run.diagnostics.filesAnalyzed ++ paths.map Path.text

namespace Grows

variable {grammar : Grammar} {disk : Disk}

theorem refl (run : Run) : Grows grammar disk run [] run := by
  constructor <;> simp

theorem trans {run mid run' : Run} {xs ys : List Path} (h : Grows grammar disk run xs mid)
    (h' : Grows grammar disk mid ys run') : Grows grammar disk run (xs ++ ys) run' where
  visited := by rw [h'.visited, h.visited, List.append_assoc]
  fresh hnodup := h'.fresh (h.fresh hnodup)
  modules := by rw [h'.modules, h.modules, List.filterMap_append, List.append_assoc]
  components := by rw [h'.components, h.components, List.flatMap_append, List.append_assoc]
  filesAnalyzed := by rw [h'.filesAnalyzed, h.filesAnalyzed, List.map_append, List.append_assoc]

theorem announce (task : Task) (run : Run) : Grows grammar disk run [] (task.announce run) := by
  cases task <;> constructor <;> simp [Task.announce, Run.note]

private theorem nodup_enter {run : Run} {path : Path} (hnew : path ∉ run.visited)
    (h : run.visited.Nodup) : (run.visited ++ [path]).Nodup := by
  rw [List.nodup_append]
  refine ⟨h, by simp, ?_⟩
  intro other hother last hlast heq
  rw [List.mem_singleton.mp hlast] at heq
  exact hnew (heq ▸ hother)

theorem refused {run : Run} {path : Path} {e : ParseError} (hnew : path ∉ run.visited)
    (hload : Module.load grammar disk path = .error e) :
    Grows grammar disk run [path] ((run.enter path).refuse path e) where
  visited := rfl
  fresh := nodup_enter hnew
  modules := by simp [Run.refuse, Run.enter, opened?, hload]
  components := by simp [Run.refuse, Run.enter, componentsAt, hload]
  filesAnalyzed := rfl

theorem taken {run : Run} {path : Path} {m : Module} {links : Links} {notes : List Note}
    (hnew : path ∉ run.visited) (hload : Module.load grammar disk path = .ok m)
    (hlinks : m.links disk = .ok (links, notes)) :
    Grows grammar disk run [path] ((run.enter path).take m links notes) where
  visited := rfl
  fresh := nodup_enter hnew
  modules := by simp [Run.take, Run.enter, opened?, hload, hlinks]
  components := by simp [Run.take, Run.enter, componentsAt, hload]
  filesAnalyzed := by simp [Run.take, Run.enter, Diagnostics.fileAnalyzed]

end Grows

end Run

theorem Explores.grows {grammar : Grammar} {disk : Disk} {run run' : Run} {tasks : List Task}
    (h : Explores grammar disk run tasks run') : ∃ paths, Run.Grows grammar disk run paths run' := by
  induction h with
  | done run => exact ⟨[], .refl run⟩
  | seen _ _ _ ih => exact ih
  | @refused run _ task _ path _ _ hnew hload _ ih =>
      obtain ⟨paths, hpaths⟩ := ih
      have hstep := (@Run.Grows.announce grammar disk task run).trans
        (.refused (by simpa using hnew) hload)
      exact ⟨_, hstep.trans hpaths⟩
  | @taken run _ _ task _ path _ _ _ _ hnew hload hlinks _ _ ihFollowed ih =>
      obtain ⟨followed, hfollowed⟩ := ihFollowed
      obtain ⟨paths, hpaths⟩ := ih
      have hstep := (@Run.Grows.announce grammar disk task run).trans
        (.taken (by simpa using hnew) hload hlinks)
      exact ⟨_, (hstep.trans hfollowed).trans hpaths⟩

namespace Run

@[simp] theorem filesAnalyzed_start (root : String) (found : Discovery.Found) :
    (start root found).diagnostics.filesAnalyzed = [] := by
  have hrefused : ∀ (refusals : List Discovery.Refusal) (d : Diagnostics),
      (refusals.foldl (fun d refusal => d.directoryError refusal.path.text refusal.message)
        d).filesAnalyzed = d.filesAnalyzed := by
    intro refusals
    induction refusals with
    | nil => exact fun _ => rfl
    | cons refusal rest ih => exact fun d => ih (d.directoryError _ _)
  simp only [start, Diagnostics.filesAnalyzed_note, hrefused]
  rfl

@[simp] theorem filesAnalyzed_result (run : Run) :
    run.result.diagnostics.filesAnalyzed = run.diagnostics.filesAnalyzed := by
  simp [result]

end Run

-- A finished run over a project is given by the paths it has visited, each of them once.
theorem explore_history {grammar : Grammar} {disk : Disk} {root : String} {run : Run}
    (h : explore grammar disk root = .ok run) :
    run.visited.Nodup ∧ run.modules = run.visited.filterMap (opened? grammar disk) ∧
      run.components = run.visited.flatMap (componentsAt grammar disk) ∧
      run.diagnostics.filesAnalyzed = run.visited.map Path.text := by
  obtain ⟨found, -, hexplores⟩ := explores_of_explore h
  obtain ⟨paths, hpaths⟩ := hexplores.grows
  have hvisited : run.visited = paths := by simpa [Run.start, Run.empty] using hpaths.visited
  refine ⟨hpaths.fresh (by simp [Run.start, Run.empty]), ?_, ?_, ?_⟩
  · rw [hvisited]
    simpa [Run.start, Run.empty] using hpaths.modules
  · rw [hvisited]
    simpa [Run.start, Run.empty] using hpaths.components
  · rw [hvisited]
    simpa using hpaths.filesAnalyzed

end PropFlow
