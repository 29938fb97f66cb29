import Mathlib.Data.List.Nodup
import Mathlib.Order.Bounds.Basic
import PropFlow.Proofs.Analysis.History
import PropFlow.Proofs.Component.Layout
import PropFlow.Proofs.Discovery
import PropFlow.Proofs.Syntax.Sites

namespace PropFlow

-- What a file declares has not been placed yet.
theorem unplaced_of_mem_componentsAt {grammar : Grammar} {disk : Disk} {path : Path} {c : Component}
    (h : c ∈ componentsAt grammar disk path) : c.unplaced = c := by
  obtain ⟨f, file, hf⟩ := exists_component?_of_mem_componentsAt h
  obtain ⟨name, items, rfl⟩ := f.eq_build_of_component? hf
  rfl

theorem map_unplaced_flatMap_componentsAt (grammar : Grammar) (disk : Disk) (paths : List Path) :
    (paths.flatMap (componentsAt grammar disk)).map Component.unplaced =
      paths.flatMap (componentsAt grammar disk) := by
  have hself : ∀ c ∈ paths.flatMap (componentsAt grammar disk), c.unplaced = id c := by
    intro c hc
    obtain ⟨path, -, hpath⟩ := List.mem_flatMap.mp hc
    exact unplaced_of_mem_componentsAt hpath
  rw [List.map_congr_left hself, List.map_id]

-- Sets of paths that hold the real paths of some files and, with a module that has no components
-- of its own, everything the module links to.
structure Closed (grammar : Grammar) (disk : Disk) (files : List Path) (paths : Set Path) : Prop where
  found : ∀ file ∈ files, ∀ path, disk.realPath file = .ok path → path ∈ paths
  passed : ∀ path ∈ paths, ∀ m links notes, Module.load grammar disk path = .ok m →
    m.components = [] → m.links disk = .ok (links, notes) → ∀ target ∈ links.values, target ∈ paths

namespace Explores

variable {grammar : Grammar} {disk : Disk}

-- A run never leaves a closed set that holds what it starts with.
theorem visited_subset_closed {files : List Path} {paths : Set Path}
    (hclosed : Closed grammar disk files paths) {run run' : Run} {tasks : List Task}
    (h : Explores grammar disk run tasks run')
    (htasks : ∀ task ∈ tasks, ∀ path, disk.realPath task.path = .ok path → path ∈ paths)
    (hrun : ∀ path ∈ run.visited, path ∈ paths) : ∀ path ∈ run'.visited, path ∈ paths := by
  induction h with
  | done run => exact hrun
  | seen _ _ _ ih => exact ih (List.forall_mem_cons.mp htasks).2 hrun
  | refused hreal _ _ _ ih =>
      obtain ⟨htask, hrest⟩ := List.forall_mem_cons.mp htasks
      refine ih hrest ?_
      simpa using List.forall_mem_append.mpr ⟨hrun, List.forall_mem_singleton.mpr (htask _ hreal)⟩
  | @taken _ _ _ _ _ path m links notes hreal _ hload hlinks _ _ ihFollowed ih =>
      obtain ⟨htask, hrest⟩ := List.forall_mem_cons.mp htasks
      have hpath := htask path hreal
      refine ih hrest (ihFollowed ?_ ?_)
      · intro next hnext other hother
        obtain ⟨target, htarget, rfl, hreached⟩ := Task.isTarget_of_mem_ofModule hlinks hnext
        have heq : target = other := Except.ok.inj (hreached.realPath_self.symm.trans hother)
        subst heq
        exact hclosed.passed path hpath m links notes hload (Task.components_eq_nil hnext) hlinks
          target htarget
      · simpa using List.forall_mem_append.mpr ⟨hrun, List.forall_mem_singleton.mpr hpath⟩

theorem tasks_visited {run run' : Run} {tasks : List Task}
    (h : Explores grammar disk run tasks run') {task : Task} (htask : task ∈ tasks) {path : Path}
    (hpath : disk.realPath task.path = .ok path) : path ∈ run'.visited := by
  induction h with
  | done run => cases htask
  | seen hreal hseen hrest ih =>
      rcases List.mem_cons.mp htask with rfl | htask
      · rw [hreal] at hpath
        cases hpath
        exact hrest.visited_subset hseen
      · exact ih htask
  | refused hreal _ _ hrest ih =>
      rcases List.mem_cons.mp htask with rfl | htask
      · rw [hreal] at hpath
        cases hpath
        exact hrest.visited_subset (by simp)
      · exact ih htask
  | taken hreal _ _ _ hfollowed hrest _ ih =>
      rcases List.mem_cons.mp htask with rfl | htask
      · rw [hreal] at hpath
        cases hpath
        exact hrest.visited_subset (hfollowed.visited_subset (by simp))
      · exact ih htask

-- When a path has been visited, so has everything that its module passes on. A module whose links
-- are still being followed is no exception: each of its links is a task of the same run.
theorem passed_visited {run run' : Run} {tasks : List Task}
    (h : Explores grammar disk run tasks run') {path : Path} (hpath : path ∈ run'.visited)
    (hnew : path ∉ run.visited) {m : Module} {links : Links} {notes : List Note}
    (hload : Module.load grammar disk path = .ok m) (hempty : m.components = [])
    (hlinks : m.links disk = .ok (links, notes)) {target : Path} (htarget : target ∈ links.values) :
    target ∈ run'.visited := by
  induction h with
  | done run => exact absurd hpath hnew
  | seen _ _ _ ih => exact ih hpath hnew
  | @refused run _ task _ entered e _ _ hrefused _ ih =>
      refine ih hpath ?_
      have hne : path ≠ entered := by
        rintro rfl
        rw [hload] at hrefused
        cases hrefused
      simp [hnew, hne]
  | @taken run mid run' task _ entered _ _ _ _ _ htaken hread hfollowed hrest ihFollowed ih =>
      by_cases hmid : path ∈ mid.visited
      · apply hrest.visited_subset
        by_cases heq : path = entered
        · subst heq
          rw [hload] at htaken
          cases htaken
          rw [hlinks] at hread
          cases hread
          have htask : Task.link target ∈ Task.ofModule m links := by
            simp [Task.ofModule, hempty, List.mem_eraseDups, htarget]
          exact hfollowed.tasks_visited htask (m.links_isTarget hlinks htarget).realPath_self
        · exact ihFollowed hmid (by simp [hnew, heq])
      · exact ih hpath hmid

end Explores

-- The paths that a run over a project visits are the least closed set over the files found.
theorem explore_isLeast {grammar : Grammar} {disk : Disk} {root : String} {run : Run}
    (h : explore grammar disk root = .ok run) :
    ∃ found, Discovery.find disk root = .ok found ∧
      IsLeast {paths | Closed grammar disk found.files paths} {path | path ∈ run.visited} := by
  obtain ⟨found, hfound, hexplores⟩ := explores_of_explore h
  have hstart : (Run.start root found).visited = [] := rfl
  refine ⟨found, hfound, ⟨?_, ?_⟩, ?_⟩
  · intro file hfile path hpath
    exact hexplores.tasks_visited (List.mem_map_of_mem hfile) hpath
  · intro path hpath m links notes hload hempty hlinks target htarget
    exact hexplores.passed_visited hpath (by simp [hstart]) hload hempty hlinks htarget
  · intro paths hclosed
    refine hexplores.visited_subset_closed hclosed ?_ (by simp [hstart])
    intro task htask path hpath
    obtain ⟨file, hfile, rfl⟩ := List.mem_map.mp htask
    exact hclosed.found file hfile path hpath

-- The paths from the root whose names can be read off their texts.
def readable : Set Path :=
  {path | ∃ names, path = Path.absolute names ∧ ∀ name ∈ names, IsRealName name}

theorem text_injOn_readable {path other : Path} (hpath : path ∈ readable) (hother : other ∈ readable)
    (h : path.text = other.text) : path = other := by
  obtain ⟨xs, rfl, hxs⟩ := hpath
  obtain ⟨ys, rfl, hys⟩ := hother
  rw [Path.text_absolute_inj hxs hys h]

theorem ModuleLink.IsTarget.mem_readable {disk : Disk} (hdisk : disk.WellNamed) {target : Path}
    (h : IsTarget disk target) : target ∈ readable := by
  refine Disk.realPath_isRealName h.realPath_self ?_
  obtain ⟨path, hfile, hreal⟩ := h
  obtain ⟨names, bytes, rfl, hget⟩ := (Disk.realPath_of_isFile hfile hreal).1
  intro name hname
  rw [Disk.names_absolute] at hname
  have htree := Entry.append_allNames_subset_of_get? (Entry.get?_of_search? hget) (List.mem_append_left _ hname)
  exact hdisk name (List.mem_append_right _ htree)

theorem closed_readable (grammar : Grammar) {disk : Disk} (hdisk : disk.WellNamed) {root : String}
    {found : Discovery.Found} (h : Discovery.find disk root = .ok found) :
    Closed grammar disk found.files readable := by
  constructor
  · intro file hfile path hpath
    exact Disk.realPath_isRealName hpath (Discovery.find_slashless hdisk h hfile)
  · intro path _ m links notes _ _ hlinks target htarget
    exact (m.links_isTarget hlinks htarget).mem_readable hdisk

theorem explore_readable {grammar : Grammar} {disk : Disk} (hdisk : disk.WellNamed) {root : String}
    {run : Run} (h : explore grammar disk root = .ok run) : ∀ path ∈ run.visited, path ∈ readable := by
  obtain ⟨found, hfound, hleast⟩ := explore_isLeast h
  exact fun path hpath => hleast.2 (closed_readable grammar hdisk hfound) hpath

-- The files of a result are a least closed set, each of them named once, and its components are
-- those of the files one after the other. Two paths could only share a text if a name on the disk
-- had a slash in it.
theorem analyze_files_isLeast {grammar : Grammar} {disk : Disk} {root : String} {result : Result}
    (h : analyze grammar disk root = .ok result) :
    ∃ (found : Discovery.Found) (paths : List Path), Discovery.find disk root = .ok found ∧
      result.diagnostics.filesAnalyzed = paths.map Path.text ∧
      IsLeast {closed | Closed grammar disk found.files closed} {path | path ∈ paths} ∧
      paths.Nodup ∧ (disk.WellNamed → result.diagnostics.filesAnalyzed.Nodup) ∧
      result.components.map Component.unplaced = paths.flatMap (componentsAt grammar disk) := by
  obtain ⟨run, hrun, rfl⟩ := Except.map_eq_ok.mp h
  obtain ⟨hnodup, -, hcomponents, hfiles⟩ := explore_history hrun
  obtain ⟨found, hfound, hleast⟩ := explore_isLeast hrun
  refine ⟨found, run.visited, hfound, ?_, hleast, hnodup, ?_, ?_⟩
  · rw [Run.filesAnalyzed_result, hfiles]
  · intro hdisk
    rw [Run.filesAnalyzed_result, hfiles]
    refine (List.nodup_map_iff_inj_on hnodup).mpr ?_
    intro path hpath other hother htext
    have hreadable := hleast.2 (closed_readable grammar hdisk hfound)
    exact text_injOn_readable (hreadable hpath) (hreadable hother) htext
  · calc
      run.result.components.map Component.unplaced = run.components.map Component.unplaced :=
        Layout.map_unplaced_arrange run.components
      _ = run.visited.flatMap (componentsAt grammar disk) := by
        rw [hcomponents, map_unplaced_flatMap_componentsAt]

-- Two modules that pass each other on, and one of them also a component.
namespace Barrels

open Syntax Node

def passOn (specifier : String) : Node :=
  branch "export_statement" none [leaf "string" ("'" ++ specifier ++ "'") (some .source)]

def button : Node :=
  branch "function_declaration" none
    [leaf "identifier" "Button" (some .name), branch "statement_block" (some .body)
      [branch "return_statement" none [leaf "jsx_self_closing_element" "<i/>" none]]]

def grammar : Grammar := fun _ source =>
  branch "program" none <|
    if source = "a" then [passOn "./b"]
    else if source = "b" then [passOn "./a", passOn "./c"]
    else [button]

def disk : Disk :=
  ⟨.dir .full [("a.js", .file (some [97])), ("b.js", .file (some [98])), ("c.js", .file (some [99]))], [], []⟩

end Barrels

theorem analyze_files_isLeast_barrels :
    Barrels.disk.WellNamed ∧ ∃ result, analyze Barrels.grammar Barrels.disk "/a.js" = .ok result ∧
      result.diagnostics.filesAnalyzed = ["/a.js", "/b.js", "/c.js"] ∧
      ∃ (found : Discovery.Found) (paths : List Path),
        Discovery.find Barrels.disk "/a.js" = .ok found ∧
        result.diagnostics.filesAnalyzed = paths.map Path.text ∧
        IsLeast {closed | Closed Barrels.grammar Barrels.disk found.files closed}
          {path | path ∈ paths} ∧
        paths.Nodup ∧ (Barrels.disk.WellNamed → result.diagnostics.filesAnalyzed.Nodup) ∧
        result.components.map Component.unplaced =
          paths.flatMap (componentsAt Barrels.grammar Barrels.disk) := by
  have hfiles : (analyze Barrels.grammar Barrels.disk "/a.js").toOption.map
      (·.diagnostics.filesAnalyzed) = some ["/a.js", "/b.js", "/c.js"] := by decide +kernel
  cases h : analyze Barrels.grammar Barrels.disk "/a.js" with
  | error e =>
      rw [h] at hfiles
      cases hfiles
  | ok result =>
      rw [h] at hfiles
      exact ⟨by decide +kernel, result, rfl, Option.some.inj hfiles, analyze_files_isLeast h⟩

end PropFlow
