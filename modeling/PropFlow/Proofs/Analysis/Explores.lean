import PropFlow.Analysis
import PropFlow.Proofs.ModuleLink

namespace PropFlow

-- A file that a run has to look at: one found under the root, or one that a link leads to.
inductive Task where
  | found (file : Path)
  | link (target : Path)

namespace Task

def path : Task → Path
  | found file => file
  | link target => target

-- Links are followed with a note.
def announce : Task → Run → Run
  | found _, run => run
  | link target, run => run.note (.followed target.text)

-- A module without components of its own passes its links on.
def ofModule (m : Module) (links : Links) : List Task :=
  if m.components.isEmpty then links.values.eraseDups.map .link else []

theorem components_eq_nil {m : Module} {links : Links} {task : Task} (h : task ∈ ofModule m links) :
    m.components = [] := by
  unfold ofModule at h
  split at h
  · rename_i hempty
    exact List.isEmpty_iff.mp hempty
  · simp at h

@[simp] theorem visited_announce (task : Task) (run : Run) :
    (task.announce run).visited = run.visited := by
  cases task <;> rfl

end Task

-- A run going through its tasks one after the other, with no bound on how far links are followed.
inductive Explores (grammar : Grammar) (disk : Disk) : Run → List Task → Run → Prop
  | done (run : Run) : Explores grammar disk run [] run
  | seen {run run' : Run} {task : Task} {rest : List Task} {path : Path} :
      disk.realPath task.path = .ok path → path ∈ run.visited →
      Explores grammar disk run rest run' → Explores grammar disk run (task :: rest) run'
  | refused {run run' : Run} {task : Task} {rest : List Task} {path : Path} {e : ParseError} :
      disk.realPath task.path = .ok path → path ∉ run.visited →
      Module.load grammar disk path = .error e →
      Explores grammar disk (((task.announce run).enter path).refuse path e) rest run' →
      Explores grammar disk run (task :: rest) run'
  | taken {run mid run' : Run} {task : Task} {rest : List Task} {path : Path} {m : Module}
      {links : Links} {notes : List Note} :
      disk.realPath task.path = .ok path → path ∉ run.visited →
      Module.load grammar disk path = .ok m → m.links disk = .ok (links, notes) →
      Explores grammar disk (((task.announce run).enter path).take m links notes)
        (Task.ofModule m links) mid →
      Explores grammar disk mid rest run' → Explores grammar disk run (task :: rest) run'

namespace Run

@[simp] theorem visited_enter (run : Run) (path : Path) :
    (run.enter path).visited = run.visited ++ [path] := rfl

@[simp] theorem visited_refuse (run : Run) (path : Path) (e : ParseError) :
    (run.refuse path e).visited = run.visited := rfl

@[simp] theorem visited_take (run : Run) (m : Module) (links : Links) (notes : List Note) :
    (run.take m links notes).visited = run.visited := rfl

-- How many files of the disk a run has not visited.
def unvisited (disk : Disk) (run : Run) : Nat :=
  disk.top.unseen Entry.sortFile fun names => Path.absolute names ∈ run.visited

theorem unvisited_le_fileCount (disk : Disk) (run : Run) :
    run.unvisited disk ≤ disk.top.fileCount := by
  rw [Entry.fileCount_eq]
  exact Entry.unseen_le_countP

theorem unvisited_le (disk : Disk) {run run' : Run} (h : run.visited ⊆ run'.visited) :
    run'.unvisited disk ≤ run.unvisited disk :=
  Entry.unseen_le fun _ hseen => h hseen

end Run

namespace ModuleLink

theorem IsTarget.realPath_self {disk : Disk} {target : Path} (h : IsTarget disk target) :
    disk.realPath target = .ok target := by
  obtain ⟨path, hfile, hreal⟩ := h
  exact (Disk.realPath_of_isFile hfile hreal).2

theorem IsTarget.exists_leaf {disk : Disk} {target : Path} (h : IsTarget disk target) :
    ∃ names bytes, target = Path.absolute names ∧ (names, .file bytes) ∈ disk.top.leaves := by
  obtain ⟨path, hfile, hreal⟩ := h
  obtain ⟨names, bytes, rfl, hget⟩ := (Disk.realPath_of_isFile hfile hreal).1
  exact ⟨names, bytes, rfl, Entry.mem_leaves (Entry.get?_of_search? hget) (by simp [Entry.leaves])⟩

-- Entering a target for the first time leaves one file less to visit.
theorem IsTarget.unvisited_enter_lt {disk : Disk} {target : Path} (h : IsTarget disk target)
    {run : Run} (hnew : target ∉ run.visited) :
    (run.enter target).unvisited disk < run.unvisited disk := by
  obtain ⟨names, bytes, rfl, hleaf⟩ := h.exists_leaf
  refine Entry.unseen_lt ?_ hleaf rfl hnew (by simp)
  intro names hseen
  exact List.mem_append_left _ hseen

theorem IsTarget.mem_visited {disk : Disk} {target : Path} (h : IsTarget disk target) {run : Run}
    (hnone : run.unvisited disk = 0) : target ∈ run.visited := by
  obtain ⟨names, bytes, rfl, hleaf⟩ := h.exists_leaf
  exact Entry.seen_of_unseen_eq_zero hnone hleaf rfl

end ModuleLink

theorem Task.isTarget_of_mem_ofModule {disk : Disk} {m : Module} {links : Links} {notes : List Note}
    (h : m.links disk = .ok (links, notes)) {task : Task} (htask : task ∈ ofModule m links) :
    ∃ target ∈ links.values, task = .link target ∧ ModuleLink.IsTarget disk target := by
  unfold ofModule at htask
  split at htask
  · obtain ⟨target, htarget, rfl⟩ := List.mem_map.mp htask
    have htarget := List.mem_eraseDups.mp htarget
    exact ⟨target, htarget, rfl, m.links_isTarget h htarget⟩
  · simp at htask

namespace Explores

variable {grammar : Grammar} {disk : Disk}

theorem append {run mid run' : Run} {xs ys : List Task} (h : Explores grammar disk run xs mid)
    (h' : Explores grammar disk mid ys run') : Explores grammar disk run (xs ++ ys) run' := by
  induction h with
  | done run => exact h'
  | seen hreal hseen _ ih => exact .seen hreal hseen (ih h')
  | refused hreal hnew hload _ ih => exact .refused hreal hnew hload (ih h')
  | taken hreal hnew hload hlinks hfollowed _ _ ih =>
      exact .taken hreal hnew hload hlinks hfollowed (ih h')

theorem visited_subset {run run' : Run} {tasks : List Task}
    (h : Explores grammar disk run tasks run') : run.visited ⊆ run'.visited := by
  induction h with
  | done run => exact List.Subset.refl _
  | seen _ _ _ ih => exact ih
  | refused _ _ _ _ ih =>
      intro path hpath
      exact ih (by simp [hpath])
  | taken _ _ _ _ _ _ ihFollowed ih =>
      intro path hpath
      exact ih (ihFollowed (by simp [hpath]))

theorem of_all_seen {run : Run} {tasks : List Task}
    (h : ∀ task ∈ tasks, ∃ path, disk.realPath task.path = .ok path ∧ path ∈ run.visited) :
    Explores grammar disk run tasks run := by
  induction tasks with
  | nil => exact .done run
  | cons task rest ih =>
      obtain ⟨path, hreal, hseen⟩ := h task List.mem_cons_self
      exact .seen hreal hseen (ih fun task htask => h task (List.mem_cons_of_mem _ htask))

end Explores

namespace Run

variable {grammar : Grammar} {disk : Disk}

-- What a visit that does not fail can do.
theorem visit_eq_ok {depth : Nat} {run run' : Run} {file : Path}
    (h : visit grammar disk depth run file = .ok run') :
    ∃ path, disk.realPath file = .ok path ∧
      ((path ∈ run.visited ∧ run' = run) ∨
      (path ∉ run.visited ∧ ∃ e, Module.load grammar disk path = .error e ∧
        run' = (run.enter path).refuse path e) ∨
      (path ∉ run.visited ∧ ∃ m links notes, Module.load grammar disk path = .ok m ∧
        m.links disk = .ok (links, notes) ∧
        ((m.components.isEmpty = false ∧ run' = (run.enter path).take m links notes) ∨
        (m.components.isEmpty = true ∧ depth = 0 ∧ run' = (run.enter path).take m links notes) ∨
        (m.components.isEmpty = true ∧ ∃ less, depth = less + 1 ∧
          followAll (visit grammar disk less) ((run.enter path).take m links notes)
            links.values.eraseDups = .ok run')))) := by
  rw [visit.eq_def] at h
  split at h
  · cases h
  · rename_i path hreal
    refine ⟨path, hreal, ?_⟩
    split at h
    · rename_i hseen
      cases h
      exact .inl ⟨hseen, rfl⟩
    · rename_i hnew
      split at h
      · rename_i e hload
        cases h
        exact .inr (.inl ⟨hnew, e, hload, rfl⟩)
      · rename_i m hload
        split at h
        · cases h
        · rename_i links notes hlinks
          refine .inr (.inr ⟨hnew, m, links, notes, hload, hlinks, ?_⟩)
          split at h
          · rename_i hempty
            split at h
            · cases h
              exact .inr (.inl ⟨hempty, rfl, rfl⟩)
            · rename_i less
              exact .inr (.inr ⟨hempty, less, rfl, h⟩)
          · rename_i hsome
            cases h
            exact .inl ⟨by simpa using hsome, rfl⟩

-- Following links explores them when one visit does. Each link that is followed leads to a file
-- that was not visited, so that one step less of depth is enough behind it.
theorem explores_of_followAll {depth : Nat}
    (hvisit : ∀ (task : Task) (run run' : Run),
      (∀ path, disk.realPath task.path = .ok path → path ∈ run.visited → task.announce run = run) →
      (∀ path, disk.realPath task.path = .ok path → (run.enter path).unvisited disk ≤ depth) →
      visit grammar disk depth (task.announce run) task.path = .ok run' →
      Explores grammar disk run [task] run')
    {targets : List Path} {run run' : Run} (htargets : ∀ target ∈ targets, ModuleLink.IsTarget disk target)
    (hdepth : run.unvisited disk ≤ depth + 1)
    (h : followAll (visit grammar disk depth) run targets = .ok run') :
    Explores grammar disk run (targets.map .link) run' := by
  induction targets generalizing run with
  | nil =>
      cases h
      exact .done _
  | cons target rest ih =>
      obtain ⟨mid, hfirst, hrest⟩ := List.foldlM_cons_eq_ok.mp h
      have htarget := htargets target List.mem_cons_self
      have hothers : ∀ target ∈ rest, ModuleLink.IsTarget disk target :=
        fun target hmem => htargets target (List.mem_cons_of_mem _ hmem)
      split at hfirst
      · rename_i hseen
        cases hfirst
        exact .seen htarget.realPath_self hseen (ih hothers hdepth hrest)
      · rename_i hnew
        have hself : ∀ path, disk.realPath target = .ok path → path = target := by
          intro path hpath
          rw [htarget.realPath_self] at hpath
          exact (Except.ok.inj hpath).symm
        have hlt := htarget.unvisited_enter_lt hnew
        have hone : Explores grammar disk run [.link target] mid := by
          refine hvisit (.link target) run mid ?_ ?_ hfirst
          · intro path hpath hmem
            rw [hself path hpath] at hmem
            exact absurd hmem hnew
          · intro path hpath
            rw [hself path hpath]
            omega
        have hmid := unvisited_le disk hone.visited_subset
        exact hone.append (ih hothers (by omega) hrest)

-- A visit explores its file when it may go as deep as there are files that were not visited.
theorem explores_of_visit {depth : Nat} (task : Task) (run run' : Run)
    (hnoted : ∀ path, disk.realPath task.path = .ok path → path ∈ run.visited →
      task.announce run = run)
    (hdepth : ∀ path, disk.realPath task.path = .ok path → (run.enter path).unvisited disk ≤ depth)
    (h : visit grammar disk depth (task.announce run) task.path = .ok run') :
    Explores grammar disk run [task] run' := by
  induction depth using Nat.strongRecOn generalizing task run run' with
  | ind depth ih =>
      obtain ⟨path, hreal, ⟨hseen, rfl⟩ | ⟨hnew, e, hload, rfl⟩ | ⟨hnew, m, links, notes, hload, hlinks,
        hafter⟩⟩ := visit_eq_ok h
      · rw [Task.visited_announce] at hseen
        rw [hnoted path hreal hseen]
        exact .seen hreal hseen (.done run)
      · rw [Task.visited_announce] at hnew
        exact .refused hreal hnew hload (.done _)
      · rw [Task.visited_announce] at hnew
        have hleft : (((task.announce run).enter path).take m links notes).unvisited disk ≤ depth := by
          have hdepth := hdepth path hreal
          simpa [unvisited] using hdepth
        refine .taken hreal hnew hload hlinks ?_ (.done run')
        rcases hafter with ⟨hsome, rfl⟩ | ⟨hempty, rfl, rfl⟩ | ⟨hempty, less, rfl, hfollowed⟩
        · simpa [Task.ofModule, hsome] using Explores.done _
        · -- no depth is left, but no file is left either
          apply Explores.of_all_seen
          intro next hnext
          obtain ⟨target, -, rfl, htarget⟩ := Task.isTarget_of_mem_ofModule hlinks hnext
          exact ⟨target, htarget.realPath_self, htarget.mem_visited (by omega)⟩
        · simp only [Task.ofModule, hempty, ite_true]
          refine explores_of_followAll (ih less (by omega)) ?_ hleft hfollowed
          intro target htarget
          exact m.links_isTarget hlinks (List.mem_eraseDups.mp htarget)

theorem explores_of_foldlM {files : List Path} {run run' : Run}
    (h : files.foldlM (visit grammar disk disk.top.fileCount) run = .ok run') :
    Explores grammar disk run (files.map .found) run' := by
  induction files generalizing run with
  | nil =>
      cases h
      exact .done _
  | cons file rest ih =>
      obtain ⟨mid, hfirst, hrest⟩ := List.foldlM_cons_eq_ok.mp h
      have hone := explores_of_visit (.found file) run mid (fun _ _ _ => rfl)
        (fun path _ => unvisited_le_fileCount disk (run.enter path)) hfirst
      exact hone.append (ih hrest)

end Run

-- A run over a project explores the files under its root.
theorem explores_of_explore {grammar : Grammar} {disk : Disk} {root : String} {run : Run}
    (h : explore grammar disk root = .ok run) :
    ∃ found, Discovery.find disk root = .ok found ∧
      Explores grammar disk (.start root found) (found.files.map .found) run := by
  unfold explore at h
  split at h
  · cases h
  · rename_i found hfound
    exact ⟨found, hfound, Run.explores_of_foldlM h⟩

end PropFlow
