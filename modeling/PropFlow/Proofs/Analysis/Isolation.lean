import PropFlow.Proofs.Analysis.Accounting
import PropFlow.Proofs.Analysis.Barrel
import PropFlow.Proofs.FileTree.Outline

namespace PropFlow

namespace Discovery

section Scan

variable {top : Entry} {budget : Nat} {jump jump' : Path → Entry.Place → Found}

theorem ofEntry_outline {inside inside' : Entry.Place → Found}
    (hinside : ∀ place, inside' place.outline = inside place) (here : List String) (path : Path) :
    ofEntry top.outline budget here path inside' = ofEntry top budget here path inside := by
  unfold ofEntry
  rw [Entry.follow_outline]
  split
  · rfl
  rcases top.follow budget here [path.name] with e | place
  · rfl
  · simp only [Except.map, Entry.Place.sortDir_outline, hinside]

mutual
theorem scan_outline (hjump : ∀ path place, jump' path place.outline = jump path place) :
    (entry : Entry) → (path : Path) → (here : List String) →
    scan top.outline budget jump' path here entry.outline = scan top budget jump path here entry
  | .file _, _, _ => rfl
  | .link _, _, _ => rfl
  | .dir access entries, path, here => by
    rw [Entry.outline, scan, scan, scanAll_outline hjump entries path here]

theorem scanAll_outline (hjump : ∀ path place, jump' path place.outline = jump path place) :
    (entries : List (String × Entry)) → (path : Path) → (here : List String) →
    scanAll top.outline budget jump' path here (Entry.outlineAll entries) =
      scanAll top budget jump path here entries
  | [], _, _ => rfl
  | (name, .file bytes) :: rest, path, here => by
    rw [Entry.outlineAll, Entry.outline, scanAll, scanAll, scanAll_outline hjump rest path here,
      ofEntry_outline (hjump _) here (path.child name)]
  | (name, .link target) :: rest, path, here => by
    rw [Entry.outlineAll, Entry.outline, scanAll, scanAll, scanAll_outline hjump rest path here,
      ofEntry_outline (hjump _) here (path.child name)]
  | (name, .dir access entries) :: rest, path, here => by
    have hentry := scan_outline hjump (.dir access entries) (path.child name) (here ++ [name])
    rw [Entry.outline] at hentry
    rw [Entry.outlineAll, Entry.outline, scanAll, scanAll, scanAll_outline hjump rest path here, hentry,
      ofEntry_outline (fun _ => rfl) here (path.child name)]
end

end Scan

theorem scanWithin_outline (top : Entry) (jumps : Nat) (path : Path) (place : Entry.Place) :
    scanWithin top.outline jumps path place.outline = scanWithin top jumps path place := by
  induction jumps generalizing path place with
  | zero => exact scan_outline (fun _ _ => rfl) place.entry path place.names
  | succ jumps ih => exact scan_outline ih place.entry path place.names

-- Which files are found does not depend on what is in them.
theorem find_outline (disk : Disk) (root : String) : find disk.outline root = find disk root := by
  have hexpand : ∀ path, disk.outline.expand? path = disk.expand? path := fun _ => rfl
  unfold find
  rw [hexpand]
  cases disk.expand? (Path.ofString root) with
  | none => rfl
  | some path =>
      simp only [Disk.realPath_outline]
      cases disk.realPath path with
      | error l => rfl
      | ok real =>
          simp only [findAt, Disk.stat_outline]
          rcases disk.stat real with e | place
          · rfl
          · have htop : disk.outline.top = disk.top.outline := rfl
            simp only [Except.map, Entry.Place.sortDir_outline, htop, scanWithin_outline]

end Discovery

namespace ModuleLink

theorem firstFile?_outline (disk : Disk) (paths : List Path) :
    firstFile? disk.outline paths = firstFile? disk paths := by
  induction paths with
  | nil => rfl
  | cons path rest ih => simp only [firstFile?, Disk.isFile_outline, ih]

theorem target?_outline (disk : Disk) (importer : Path) (specifier : String) :
    target? disk.outline importer specifier = target? disk importer specifier := by
  simp only [target?, resolve?, firstFile?_outline, Disk.realPath_outline]

end ModuleLink

-- Nor does what a module links to depend on what is in the files.
theorem Module.links_outline (m : Module) (disk : Disk) : m.links disk.outline = m.links disk := by
  have hstatements : ModuleLink.ofStatement disk.outline m.path = ModuleLink.ofStatement disk m.path := by
    funext statement
    simp only [ModuleLink.ofStatement_eq, ModuleLink.target?_outline]
  rw [links, readings, hstatements, links, readings]

-- Two disks that show the same at some paths, but for one: there the first holds no module, the
-- second one that has no components and no links.
structure Mends (grammar : Grammar) (disk : Disk) (broken : Path) (disk' : Disk) (paths : Set Path) :
    Prop where
  outline : disk'.outline = disk.outline
  load : ∀ path ∈ paths, path ≠ broken →
    Module.load grammar disk' path = Module.load grammar disk path
  refused : ∃ e, Module.load grammar disk broken = .error e
  mended : ∃ m notes, Module.load grammar disk' broken = .ok m ∧ m.components = [] ∧
    m.links disk' = .ok (.empty, notes)

namespace Mends

variable {grammar : Grammar} {disk disk' : Disk} {broken : Path} {paths : Set Path}

theorem realPath (h : Mends grammar disk broken disk' paths) (path : Path) :
    disk'.realPath path = disk.realPath path := by
  rw [← Disk.realPath_outline, h.outline, Disk.realPath_outline]

theorem find (h : Mends grammar disk broken disk' paths) (root : String) :
    Discovery.find disk' root = Discovery.find disk root := by
  rw [← Discovery.find_outline, h.outline, Discovery.find_outline]

theorem links (h : Mends grammar disk broken disk' paths) (m : Module) :
    m.links disk' = m.links disk := by
  rw [← Module.links_outline, h.outline, Module.links_outline]

theorem componentsAt_eq (h : Mends grammar disk broken disk' paths) {path : Path}
    (hpath : path ∈ paths) : componentsAt grammar disk' path = componentsAt grammar disk path := by
  by_cases heq : path = broken
  · subst heq
    obtain ⟨e, hrefused⟩ := h.refused
    obtain ⟨m, notes, hload, hempty, -⟩ := h.mended
    simp only [componentsAt, hrefused, hload, hempty]
  · simp only [componentsAt, h.load path hpath heq]

theorem opened?_eq (h : Mends grammar disk broken disk' paths) {path : Path} (hpath : path ∈ paths)
    (hne : path ≠ broken) : opened? grammar disk' path = opened? grammar disk path := by
  simp only [opened?, h.load path hpath hne, h.links]

-- What the mended file passes on is nothing, so that sets stay closed.
theorem closed (h : Mends grammar disk broken disk' paths) {files : List Path}
    (hclosed : Closed grammar disk files paths) : Closed grammar disk' files paths := by
  constructor
  · intro file hfile path hpath
    rw [h.realPath] at hpath
    exact hclosed.found file hfile path hpath
  · intro path hpath m links notes hload hempty hlinks target htarget
    by_cases heq : path = broken
    · subst heq
      obtain ⟨m', notes', hload', -, hlinks'⟩ := h.mended
      obtain rfl : m = m' := Except.ok.inj (hload.symm.trans hload')
      obtain ⟨rfl, -⟩ := Prod.mk.inj (Except.ok.inj (hlinks.symm.trans hlinks'))
      cases htarget
    · rw [h.load path hpath heq] at hload
      rw [h.links] at hlinks
      exact hclosed.passed path hpath m links notes hload hempty hlinks target htarget

theorem linked (h : Mends grammar disk broken disk' paths)
    (hlinked : ∀ path ∈ paths, Linked grammar disk path) : ∀ path ∈ paths, Linked grammar disk' path := by
  intro path hpath m hload
  by_cases heq : path = broken
  · subst heq
    obtain ⟨m', notes', hload', -, hlinks'⟩ := h.mended
    obtain rfl : m = m' := Except.ok.inj (hload.symm.trans hload')
    exact ⟨.empty, notes', hlinks'⟩
  · rw [h.load path hpath heq] at hload
    rw [h.links]
    exact hlinked path hpath m hload

-- Runs over the two disks visit the same paths, as long as they stay among those that are alike.
theorem visited_eq (h : Mends grammar disk broken disk' paths) {run run' other other' : Run}
    {tasks : List Task} (hrun : Explores grammar disk run tasks run')
    (hother : Explores grammar disk' other tasks other') (hsame : other.visited = run.visited)
    (hpaths : ∀ path ∈ run'.visited, path ∈ paths) : other'.visited = run'.visited := by
  induction hrun generalizing other other' with
  | done run =>
      rw [hother.eq_of_nil]
      exact hsame
  | seen hreal hseen _ ih =>
      rw [← h.realPath] at hreal
      rcases hother.cons_cases hreal with ⟨-, hrest⟩ | ⟨hnew, -⟩ | ⟨hnew, -⟩
      · exact ih hrest hsame hpaths
      · exact absurd (hsame ▸ hseen) hnew
      · exact absurd (hsame ▸ hseen) hnew
  | @refused run run' task rest path e hreal hnew hload hrest ih =>
      have hpath := hpaths path (hrest.visited_subset (by simp))
      rw [← h.realPath] at hreal
      rcases hother.cons_cases hreal with ⟨hseen, -⟩ | ⟨-, e', -, hrest'⟩ |
        ⟨-, m, links, notes, mid, hload', hlinks, hfollowed, hrest'⟩
      · exact absurd (hsame ▸ hseen) hnew
      · exact ih hrest' (by simp [hsame]) hpaths
      · -- only the mended file can be refused on one disk and taken on the other
        have heq : path = broken := by
          by_contra hne
          rw [h.load path hpath hne, hload] at hload'
          cases hload'
        subst heq
        obtain ⟨m', notes', hmended, -, hlinks'⟩ := h.mended
        obtain rfl : m = m' := Except.ok.inj (hload'.symm.trans hmended)
        obtain ⟨rfl, -⟩ := Prod.mk.inj (Except.ok.inj (hlinks.symm.trans hlinks'))
        have hnothing : Task.ofModule m .empty = [] := by
          unfold Task.ofModule
          split <;> rfl
        rw [hnothing] at hfollowed
        rw [hfollowed.eq_of_nil] at hrest'
        exact ih hrest' (by simp [hsame]) hpaths
  | @taken run mid run' task rest path m links notes hreal hnew hload hlinks hfollowed hrest ihFollowed
      ih =>
      have hpath := hpaths path (hrest.visited_subset (hfollowed.visited_subset (by simp)))
      have hne : path ≠ broken := by
        rintro rfl
        obtain ⟨e, hrefused⟩ := h.refused
        rw [hload] at hrefused
        cases hrefused
      rw [← h.realPath] at hreal
      rcases hother.cons_cases hreal with ⟨hseen, -⟩ | ⟨-, e', hload', -⟩ |
        ⟨-, m', links', notes', mid', hload', hlinks', hfollowed', hrest'⟩
      · exact absurd (hsame ▸ hseen) hnew
      · rw [h.load path hpath hne, hload] at hload'
        cases hload'
      · rw [h.load path hpath hne] at hload'
        obtain rfl : m = m' := Except.ok.inj (hload.symm.trans hload')
        rw [h.links] at hlinks'
        obtain ⟨rfl, rfl⟩ := Prod.mk.inj (Except.ok.inj (hlinks.symm.trans hlinks'))
        have hmid := ihFollowed hfollowed' (by simp [hsame]) fun path hp =>
          hpaths path (hrest.visited_subset hp)
        exact ih hrest' hmid hpaths

section Visited

variable {root : String} {run run' : Run}

theorem exists_explore (h : Mends grammar disk broken disk' {path | path ∈ run.visited})
    (hrun : explore grammar disk root = .ok run) : ∃ run', explore grammar disk' root = .ok run' := by
  obtain ⟨found, hfound, hexplores⟩ := explores_of_explore hrun
  obtain ⟨found', hfound', hleast⟩ := explore_isLeast hrun
  obtain rfl : found = found' := Except.ok.inj (hfound.symm.trans hfound')
  have hlinked : ∀ path ∈ {path | path ∈ run.visited}, Linked grammar disk path :=
    fun path hpath => hexplores.linked_of_visited hpath (by simp [Run.start, Run.empty])
  refine exists_explore_of_closed ((h.find root).trans hfound) (h.closed hleast.1) (h.linked hlinked) ?_
  intro file hfile
  obtain ⟨path, hreal⟩ := hexplores.exists_realPath (List.mem_map_of_mem hfile)
  exact ⟨path, (h.realPath file).trans hreal⟩

theorem visited_explore (h : Mends grammar disk broken disk' {path | path ∈ run.visited})
    (hrun : explore grammar disk root = .ok run) (hrun' : explore grammar disk' root = .ok run') :
    run'.visited = run.visited := by
  obtain ⟨found, hfound, hexplores⟩ := explores_of_explore hrun
  obtain ⟨found', hfound', hexplores'⟩ := explores_of_explore hrun'
  rw [h.find, hfound] at hfound'
  cases hfound'
  exact h.visited_eq hexplores hexplores' rfl fun _ hpath => hpath

theorem content_eq (h : Mends grammar disk broken disk' {path | path ∈ run.visited})
    (hreadable : ∀ path ∈ run.visited, path ∈ readable) (hbroken : broken ∈ run.visited)
    (hrun : explore grammar disk root = .ok run) (hrun' : explore grammar disk' root = .ok run') :
    run'.result.content = run.result.content := by
  obtain ⟨-, hmodules, hcomponents, -⟩ := explore_history hrun
  obtain ⟨-, hmodules', hcomponents', -⟩ := explore_history hrun'
  rw [h.visited_explore hrun hrun'] at hmodules' hcomponents'
  have hequal : run'.components = run.components := by
    rw [hcomponents, hcomponents']
    exact List.flatMap_congr fun path hpath => h.componentsAt_eq hpath
  have hatPath : ∀ path ∈ run.visited,
      Flow.atPath grammar disk' run.registry path = Flow.atPath grammar disk run.registry path := by
    intro path hpath
    by_cases heq : path = broken
    · subst heq
      obtain ⟨e, hrefused⟩ := h.refused
      have hnone : componentsAt grammar disk' path = [] := by
        rw [h.componentsAt_eq hpath]
        simp only [componentsAt, hrefused]
      have hmended := Flow.atPath_eq_nil hnone (hreadable path hpath) hreadable
      rw [← hcomponents', hequal] at hmended
      rw [Run.registry, hmended]
      simp [Flow.atPath, opened?, hrefused]
    · simp only [Flow.atPath, h.opened?_eq hpath heq]
  have hflows : (Flow.infer run'.registry run'.modules).flows =
      (Flow.infer run.registry run.modules).flows := by
    have hregistry : run'.registry = run.registry := by rw [Run.registry, hequal, Run.registry]
    rw [hregistry, hmodules, hmodules', Flow.flows_infer_opened, Flow.flows_infer_opened]
    exact List.flatMap_congr hatPath
  simp only [Result.content, Run.result, hequal, hflows]

-- The entry of the mended file is the only one that goes.
theorem parseErrors_eq (h : Mends grammar disk broken disk' {path | path ∈ run.visited})
    (hbroken : broken ∈ run.visited) {e : ParseError} (hload : Module.load grammar disk broken = .error e)
    (hrun : explore grammar disk root = .ok run) (hrun' : explore grammar disk' root = .ok run') :
    ∃ before after,
      run.result.diagnostics.parseErrors =
        before ++ ("Error parsing " ++ broken.text ++ ": " ++ e.message) :: after ∧
      run'.result.diagnostics.parseErrors = before ++ after := by
  obtain ⟨found, hfound, hexplores⟩ := explores_of_explore hrun
  obtain ⟨found', hfound', hexplores'⟩ := explores_of_explore hrun'
  rw [h.find, hfound] at hfound'
  cases hfound'
  obtain ⟨-, -, -, herrors⟩ :=
    (hexplores.accounted (Run.accounted_start grammar disk root found)).result
  obtain ⟨-, -, -, herrors'⟩ :=
    (hexplores'.accounted (Run.accounted_start grammar disk' root found)).result
  rw [h.visited_explore hrun hrun'] at herrors'
  have hothers : ∀ paths : List Path, (∀ path ∈ paths, path ∈ run.visited ∧ path ≠ broken) →
      paths.filterMap (parseErrorAt? grammar disk') = paths.filterMap (parseErrorAt? grammar disk) := by
    intro paths hpaths
    apply List.filterMap_congr
    intro path hpath
    obtain ⟨hvisited, hne⟩ := hpaths path hpath
    simp only [parseErrorAt?, h.load path hvisited hne]
  have hentry : parseErrorAt? grammar disk broken =
      some ("Error parsing " ++ broken.text ++ ": " ++ e.message) := by
    simp only [parseErrorAt?, hload]
  have hmended : parseErrorAt? grammar disk' broken = none := by
    obtain ⟨m, notes, hload', -⟩ := h.mended
    simp only [parseErrorAt?, hload']
  obtain ⟨before, after, hsplit⟩ := List.append_of_mem hbroken
  have hnodup := (explore_history hrun).1
  rw [hsplit, List.nodup_middle, List.nodup_cons] at hnodup
  have hrest : ∀ path ∈ before ++ after, path ∈ run.visited ∧ path ≠ broken := by
    intro path hpath
    refine ⟨?_, fun heq => hnodup.1 (heq ▸ hpath)⟩
    rw [hsplit]
    rcases List.mem_append.mp hpath with hpath | hpath
    · exact List.mem_append_left _ hpath
    · exact List.mem_append_right _ (List.mem_cons_of_mem _ hpath)
  obtain ⟨hbefore, hafter⟩ := List.forall_mem_append.mp hrest
  refine ⟨found.refusals.map Discovery.Refusal.entry ++ before.filterMap (parseErrorAt? grammar disk),
    after.filterMap (parseErrorAt? grammar disk), ?_, ?_⟩
  · rw [herrors, hsplit, List.filterMap_append, List.filterMap_cons_some hentry, List.append_assoc]
  · rw [herrors', hsplit, List.filterMap_append, List.filterMap_cons_none hmended, hothers before hbefore,
      hothers after hafter, List.append_assoc]

end Visited

end Mends

-- A file that cannot be parsed does no harm. With contents that can be, but show no components and
-- no links, nothing changes but that its error is gone. Another path of the result could only lead
-- to the same file if it ended at a link, which takes a link that goes through itself.
theorem analyze_broken_isolated {grammar : Grammar} {disk disk' : Disk} {root name : String}
    {result : Result} {e : ParseError} {bytes : List UInt8} {m : Module} {notes : List Note}
    (hdisk : disk.WellNamed) (h : analyze grammar disk root = .ok result)
    (hname : name ∈ result.diagnostics.filesAnalyzed) (hfile : disk.isFile (.ofString name) = .ok true)
    (halone : ∀ other ∈ result.diagnostics.filesAnalyzed,
      disk.realPath (.ofString other) = disk.realPath (.ofString name) → other = name)
    (hbroken : Module.load grammar disk (.ofString name) = .error e)
    (hwrite : disk.write (.ofString name) bytes = .ok disk')
    (hmended : Module.load grammar disk' (.ofString name) = .ok m) (hempty : m.components = [])
    (hlinks : m.links disk' = .ok (.empty, notes)) :
    ∃ result', analyze grammar disk' root = .ok result' ∧ result'.components = result.components ∧
      result'.flows = result.flows ∧ result'.conflicts = result.conflicts ∧
      result'.diagnostics.filesAnalyzed = result.diagnostics.filesAnalyzed ∧
      ∃ before after, result.diagnostics.parseErrors =
          before ++ ("Error parsing " ++ name ++ ": " ++ e.message) :: after ∧
        result'.diagnostics.parseErrors = before ++ after := by
  obtain ⟨run, hrun, rfl⟩ := Except.map_eq_ok.mp h
  have hreadable := explore_readable hdisk hrun
  have hread : ∀ path ∈ run.visited, Path.ofString path.text = path := by
    intro path hpath
    obtain ⟨names, rfl, hnames⟩ := hreadable path hpath
    exact Path.ofString_text_absolute hnames
  obtain ⟨-, -, -, hfiles⟩ := explore_history hrun
  rw [Run.filesAnalyzed_result, hfiles] at hname halone
  obtain ⟨broken, hvisited, rfl⟩ := List.mem_map.mp hname
  rw [hread broken hvisited] at hfile halone hbroken hwrite hmended
  have hrewrites := Disk.rewrites_of_write hfile hwrite
  have hmends : Mends grammar disk broken disk' {path | path ∈ run.visited} := by
    refine ⟨hrewrites.outline, ?_, ⟨e, hbroken⟩, m, notes, hmended, hempty, hlinks⟩
    intro path hpath hne
    have hreal : disk.realPath path ≠ disk.realPath broken := by
      intro hreal
      have htext := halone path.text (List.mem_map_of_mem hpath) (by rw [hread path hpath, hreal])
      exact hne (text_injOn_readable (hreadable path hpath) (hreadable broken hvisited) htext)
    simp only [Module.load, Disk.readText, hrewrites.read path hreal]
  obtain ⟨run', hrun'⟩ := hmends.exists_explore hrun
  have hcontent := hmends.content_eq hreadable hvisited hrun hrun'
  obtain ⟨hcomponents, hcontent⟩ := Prod.mk.inj hcontent
  obtain ⟨hflows, hconflicts⟩ := Prod.mk.inj hcontent
  refine ⟨run'.result, Except.map_eq_ok.mpr ⟨run', hrun', rfl⟩, hcomponents, hflows, hconflicts, ?_,
    hmends.parseErrors_eq hvisited hbroken hrun hrun'⟩
  rw [Run.filesAnalyzed_result, Run.filesAnalyzed_result, (explore_history hrun').2.2.2, hfiles,
    hmends.visited_explore hrun hrun']

-- A module that passes on a text that is no module, and then a component.
namespace Spoilt

open Syntax Node

def grammar : Grammar := fun _ source =>
  if source = "a" then branch "program" none [Barrels.passOn "./b", Barrels.passOn "./c"]
  else if source = "b" then { branch "program" none [] with hasError := true }
  else if source = "c" then branch "program" none [Barrels.button]
  else branch "program" none []

def diskWith (bytes : List UInt8) : Disk :=
  ⟨.dir .full [("a.js", .file (some [97])), ("b.js", .file bytes), ("c.js", .file (some [99]))], [], []⟩

def blank : Module :=
  ⟨.absolute ["b.js"], .javascript, "", branch "program" none []⟩

end Spoilt

theorem analyze_broken_isolated_spoilt :
    (Spoilt.diskWith [98]).WellNamed ∧
      (Spoilt.diskWith [98]).write (.ofString "/b.js") [] = .ok (Spoilt.diskWith []) ∧
      ∃ result, analyze Spoilt.grammar (Spoilt.diskWith [98]) "/a.js" = .ok result ∧
        result.components.map Component.name = ["Button"] ∧
        result.diagnostics.filesAnalyzed = ["/a.js", "/b.js", "/c.js"] ∧
        ∃ result', analyze Spoilt.grammar (Spoilt.diskWith []) "/a.js" = .ok result' ∧
          result'.components = result.components ∧ result'.flows = result.flows ∧
          result'.conflicts = result.conflicts ∧
          result'.diagnostics.filesAnalyzed = result.diagnostics.filesAnalyzed ∧
          ∃ before after, result.diagnostics.parseErrors =
              before ++ ("Error parsing " ++ "/b.js" ++ ": " ++ ParseError.unlocated.message) :: after ∧
            result'.diagnostics.parseErrors = before ++ after := by
  have hdisk : (Spoilt.diskWith [98]).WellNamed := by decide +kernel
  have hwrite : (Spoilt.diskWith [98]).write (.ofString "/b.js") [] = .ok (Spoilt.diskWith []) := rfl
  have hbroken : Module.load Spoilt.grammar (Spoilt.diskWith [98]) (.ofString "/b.js") =
      .error .unlocated := by
    have htree : ParseError.ofTree "b" (Spoilt.grammar .javascript "b") = .unlocated := by decide +kernel
    rw [← htree]
    rfl
  have hmended : Module.load Spoilt.grammar (Spoilt.diskWith []) (.ofString "/b.js") =
      .ok Spoilt.blank := rfl
  have hlinks : Spoilt.blank.links (Spoilt.diskWith []) = .ok (.empty, []) := by decide +kernel
  have hlists : (analyze Spoilt.grammar (Spoilt.diskWith [98]) "/a.js").toOption.map
      (fun r => (r.components.map Component.name, r.diagnostics.filesAnalyzed)) =
      some (["Button"], ["/a.js", "/b.js", "/c.js"]) := by decide +kernel
  obtain ⟨result, h, hresult⟩ := Except.exists_of_toOption_map hlists
  obtain ⟨hnames, hfiles⟩ := Prod.mk.inj hresult
  have halone : ∀ other ∈ result.diagnostics.filesAnalyzed,
      (Spoilt.diskWith [98]).realPath (.ofString other) =
        (Spoilt.diskWith [98]).realPath (.ofString "/b.js") → other = "/b.js" := by
    rw [hfiles]
    decide +kernel
  exact ⟨hdisk, hwrite, result, h, hnames, hfiles,
    analyze_broken_isolated hdisk h (by simp [hfiles]) (by decide +kernel) halone hbroken hwrite
      hmended (by decide +kernel) hlinks⟩

-- A link that goes through itself ends at another link, so that one file is read under two names.
namespace Detour

open Syntax Node

def grammar : Grammar := fun _ source =>
  { branch "program" none [] with hasError := decide (source = "c") }

def diskWith (bytes : List UInt8) : Disk :=
  ⟨.dir .full [("a.js", .link "a.js/../b.js"), ("b.js", .link "c.js"), ("c.js", .file bytes)], [], []⟩

def scanned : List (String × Discovery.Found) :=
  [("a.js", ⟨[.absolute ["a.js"]], []⟩), ("b.js", ⟨[.absolute ["b.js"]], []⟩),
    ("c.js", ⟨[.absolute ["c.js"]], []⟩)]

theorem scanAll_eq (bytes : List UInt8) (jump : Path → Entry.Place → Discovery.Found) :
    Discovery.scanAll (diskWith bytes).top Entry.linkLimit jump (.absolute []) []
      [("a.js", .link "a.js/../b.js"), ("b.js", .link "c.js"), ("c.js", .file bytes)] = scanned := by
  have hloop : Discovery.ofEntry (diskWith bytes).top Entry.linkLimit []
      ((Path.absolute []).child "a.js") (jump ((Path.absolute []).child "a.js")) =
        ⟨[.absolute ["a.js"]], []⟩ := by
    unfold Discovery.ofEntry
    rw [if_neg (by decide +kernel), show ((Path.absolute []).child "a.js").name = "a.js" from rfl,
      Entry.follow_self rfl rfl (by decide) (by decide) rfl rfl rfl]
    rfl
  rw [Discovery.scanAll, hloop, Discovery.scanAll, Discovery.scanAll, Discovery.scanAll]
  rfl

theorem find_eq (bytes : List UInt8) :
    Discovery.find (diskWith bytes) "/" = .ok (.concat (scanned.map (·.2))) := by
  have hsorted : scanned.mergeSort (fun a b => decide (a.1 ≤ b.1)) = scanned :=
    List.mergeSort_of_pairwise (by simp [scanned])
  have hscan : Discovery.scanWithin (diskWith bytes).top Entry.linkLimit (.absolute [])
      ⟨[], (diskWith bytes).top, Entry.linkLimit⟩ = .inOrder scanned :=
    congrArg Discovery.Found.inOrder (scanAll_eq bytes _)
  calc
    Discovery.find (diskWith bytes) "/" =
        .ok (Discovery.scanWithin (diskWith bytes).top Entry.linkLimit (.absolute [])
          ⟨[], (diskWith bytes).top, Entry.linkLimit⟩) := rfl
    _ = .ok (.concat (scanned.map (·.2))) := by rw [hscan, Discovery.Found.inOrder, hsorted]

end Detour

theorem analyze_broken_twice_named :
    (Detour.diskWith [99]).WellNamed ∧
      (Detour.diskWith [99]).write (.ofString "/c.js") [] = .ok (Detour.diskWith []) ∧
      (∃ m, Module.load Detour.grammar (Detour.diskWith []) (.ofString "/c.js") = .ok m ∧
        m.components = [] ∧ m.links (Detour.diskWith []) = .ok (.empty, [])) ∧
      (analyze Detour.grammar (Detour.diskWith [99]) "/").toOption.map
        (fun r => (r.diagnostics.filesAnalyzed, r.diagnostics.parseErrors)) =
          some (["/b.js", "/c.js"],
            ["Error parsing /b.js: Syntax error", "Error parsing /c.js: Syntax error"]) ∧
      (analyze Detour.grammar (Detour.diskWith []) "/").toOption.map
        (fun r => (r.diagnostics.filesAnalyzed, r.diagnostics.parseErrors)) =
          some (["/b.js", "/c.js"], []) := by
  refine ⟨by decide +kernel, rfl, ⟨_, rfl, by decide +kernel, by decide +kernel⟩, ?_, ?_⟩
  · rw [analyze, explore, Detour.find_eq]
    decide +kernel
  · rw [analyze, explore, Detour.find_eq]
    decide +kernel

end PropFlow
