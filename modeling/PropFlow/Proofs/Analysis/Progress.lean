import PropFlow.Proofs.Analysis.Reach

namespace PropFlow

-- A file at its own real path.
structure Disk.HoldsFile (disk : Disk) (path : Path) : Prop where
  isFile : disk.isFile path = .ok true
  realPath : disk.realPath path = .ok path

namespace Disk.HoldsFile

variable {disk : Disk} {path : Path}

theorem isTarget (h : disk.HoldsFile path) : ModuleLink.IsTarget disk path :=
  ⟨path, h.isFile, h.realPath⟩

-- Under a root that is a file, that file is found and nothing else.
theorem find_text (hdisk : disk.WellNamed) (h : disk.HoldsFile path) :
    Discovery.find disk path.text = .ok ⟨[path], []⟩ := by
  obtain ⟨names, rfl, hnames⟩ := h.isTarget.mem_readable hdisk
  obtain ⟨place, _, hstat, hentry⟩ := Disk.stat_of_isFile h.isFile
  simp only [Discovery.find, Path.ofString_text_absolute hnames, Disk.expand?_absolute, h.realPath,
    Discovery.findAt, hstat, hentry, Entry.sortDir, Bool.false_eq_true, if_false]

end Disk.HoldsFile

-- The module at a path, if there is one, has links that can all be looked up.
def Linked (grammar : Grammar) (disk : Disk) (path : Path) : Prop :=
  ∀ m, Module.load grammar disk path = .ok m → ∃ links notes, m.links disk = .ok (links, notes)

section Progress

variable {grammar : Grammar} {disk : Disk}

-- A run that is done has found a real path for each of its tasks.
theorem Explores.exists_realPath {run run' : Run} {tasks : List Task}
    (h : Explores grammar disk run tasks run') {task : Task} (htask : task ∈ tasks) :
    ∃ path, disk.realPath task.path = .ok path := by
  induction h with
  | done run => cases htask
  | seen hreal _ _ ih =>
      rcases List.mem_cons.mp htask with rfl | htask
      · exact ⟨_, hreal⟩
      · exact ih htask
  | refused hreal _ _ _ ih =>
      rcases List.mem_cons.mp htask with rfl | htask
      · exact ⟨_, hreal⟩
      · exact ih htask
  | taken hreal _ _ _ _ _ _ ih =>
      rcases List.mem_cons.mp htask with rfl | htask
      · exact ⟨_, hreal⟩
      · exact ih htask

theorem Explores.linked_of_visited {run run' : Run} {tasks : List Task}
    (h : Explores grammar disk run tasks run') {path : Path} (hpath : path ∈ run'.visited)
    (hnew : path ∉ run.visited) : Linked grammar disk path := by
  induction h with
  | done run => exact absurd hpath hnew
  | seen _ _ _ ih => exact ih hpath hnew
  | @refused run _ task _ entered e _ _ hload _ ih =>
      by_cases heq : path = entered
      · subst heq
        intro m hm
        rw [hload] at hm
        cases hm
      · exact ih hpath (by simp [hnew, heq])
  | @taken run mid _ task _ entered m links notes _ _ hload hlinks _ _ ihFollowed ih =>
      by_cases hmid : path ∈ mid.visited
      · by_cases heq : path = entered
        · subst heq
          intro m' hm'
          obtain rfl : m = m' := Except.ok.inj (hload.symm.trans hm')
          exact ⟨links, notes, hlinks⟩
        · exact ihFollowed hmid (by simp [hnew, heq])
      · exact ih hpath hmid

-- A visit does not fail in a closed set of paths with links that can be looked up.
theorem Run.exists_visit_eq_ok {files : List Path} {paths : Set Path}
    (hclosed : Closed grammar disk files paths) (hlinked : ∀ path ∈ paths, Linked grammar disk path)
    (depth : Nat) (run : Run) {file path : Path} (hreal : disk.realPath file = .ok path)
    (hpath : path ∈ paths) : ∃ run', visit grammar disk depth run file = .ok run' := by
  induction depth using Nat.strongRecOn generalizing run file path with
  | ind depth ih =>
      rw [visit.eq_def, hreal]
      by_cases hseen : path ∈ run.visited
      · simp [hseen]
      · cases hload : Module.load grammar disk path with
        | error e => simp [hseen, hload]
        | ok m =>
            obtain ⟨links, notes, hlinks⟩ := hlinked path hpath m hload
            by_cases hempty : m.components.isEmpty
            · cases depth with
              | zero => simp [hseen, hload, hlinks]
              | succ less =>
                  simp only [hseen, hload, hlinks, hempty, if_true, if_false, followAll]
                  apply List.exists_foldlM_eq_ok
                  intro mid target htarget
                  have htarget := List.mem_eraseDups.mp htarget
                  split
                  · exact ⟨mid, rfl⟩
                  · have hpassed := hclosed.passed path hpath m links notes hload
                      (List.isEmpty_iff.mp hempty) hlinks target htarget
                    exact ih less (by omega) _ (m.links_isTarget hlinks htarget).realPath_self hpassed
            · simp [hseen, hload, hlinks, hempty]

-- A project can be explored when the links of a closed set over its files can be looked up.
theorem exists_explore_of_closed {root : String} {found : Discovery.Found} {paths : Set Path}
    (hfound : Discovery.find disk root = .ok found) (hclosed : Closed grammar disk found.files paths)
    (hlinked : ∀ path ∈ paths, Linked grammar disk path)
    (hreal : ∀ file ∈ found.files, ∃ path, disk.realPath file = .ok path) :
    ∃ run, explore grammar disk root = .ok run := by
  unfold explore
  rw [hfound]
  apply List.exists_foldlM_eq_ok
  intro run file hfile
  obtain ⟨path, hpath⟩ := hreal file hfile
  exact Run.exists_visit_eq_ok hclosed hlinked _ run hpath (hclosed.found file hfile path hpath)

-- So can a single file of such a set.
theorem exists_explore_eq_ok (hdisk : disk.WellNamed) {files : List Path} {paths : Set Path}
    (hclosed : Closed grammar disk files paths) (hlinked : ∀ path ∈ paths, Linked grammar disk path)
    {path : Path} (hfile : disk.HoldsFile path) (hpath : path ∈ paths) :
    ∃ run, explore grammar disk path.text = .ok run := by
  refine exists_explore_of_closed (hfile.find_text hdisk) ⟨?_, hclosed.passed⟩ hlinked ?_
  · intro file hmem other hother
    obtain rfl := List.mem_singleton.mp hmem
    rw [hfile.realPath] at hother
    exact Except.ok.inj hother ▸ hpath
  · intro file hmem
    obtain rfl := List.mem_singleton.mp hmem
    exact ⟨file, hfile.realPath⟩

-- A run from a single file has this file for its only task.
theorem Disk.HoldsFile.explores (hdisk : disk.WellNamed) {path : Path}
    (hfile : disk.HoldsFile path) {run : Run} (h : explore grammar disk path.text = .ok run) :
    Explores grammar disk (Run.start path.text ⟨[path], []⟩) [.found path] run := by
  obtain ⟨found, hfound, hexplores⟩ := explores_of_explore h
  rw [hfile.find_text hdisk] at hfound
  cases hfound
  exact hexplores

end Progress

end PropFlow
