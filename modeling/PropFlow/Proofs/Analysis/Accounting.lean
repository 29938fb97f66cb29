import PropFlow.Proofs.Analysis.Reach
import PropFlow.Proofs.Component.Notes

namespace PropFlow

-- Looking a source up is reported, but nothing is accepted on the way.
theorem ModuleLink.isRoutine_readingOf (statement : Syntax.Node) (source : String)
    (target : Option Path) : ∀ n ∈ (readingOf statement source target).notes, n.isRoutine = true := by
  have hnames : ∀ say : String → Note, (∀ name, (say name).isRoutine = true) →
      ∀ n ∈ target.toList.flatMap (fun _ => (keysOf statement source).map say), n.isRoutine = true := by
    intro say hsay n hn
    obtain ⟨_, -, hn⟩ := List.mem_flatMap.mp hn
    obtain ⟨name, -, rfl⟩ := List.mem_map.mp hn
    exact hsay name
  unfold readingOf
  dsimp only
  split
  · exact hnames _ fun _ => rfl
  · exact List.forall_mem_cons.mpr ⟨rfl, hnames _ fun _ => rfl⟩

theorem Module.isRoutine_of_links {m : Module} {disk : Disk} {links : Links} {notes : List Note}
    (h : m.links disk = .ok (links, notes)) : ∀ n ∈ notes, n.isRoutine = true := by
  obtain ⟨readings, hreadings, heq⟩ := Except.map_eq_ok.mp h
  cases heq
  intro n hn
  obtain ⟨reading, hreading, hn⟩ := List.mem_flatMap.mp hn
  obtain ⟨statement, -, hstatement⟩ := List.exists_of_mem_mapM hreadings hreading
  rw [ModuleLink.ofStatement_eq] at hstatement
  split at hstatement
  · cases hstatement
    cases hn
  · obtain ⟨target, -, rfl⟩ := Except.map_eq_ok.mp hstatement
    exact ModuleLink.isRoutine_readingOf _ _ _ n hn

theorem Flow.isRoutine_atSite (registry : Registry) (file : String) (links : Links)
    (site : Syntax.Site) : ∀ n ∈ (atSite registry file links site).notes, n.isRoutine = true := by
  unfold atSite
  split
  · exact List.forall_mem_nil _
  · refine List.forall_mem_cons.mpr ⟨rfl, ?_⟩
    intro n hn
    obtain ⟨⟨flow, note⟩, hfound, rfl⟩ := List.mem_map.mp hn
    obtain ⟨attr, -, hattr⟩ := List.mem_filterMap.mp hfound
    obtain ⟨target, -, hattr⟩ := Option.bind_eq_some_iff.mp hattr
    obtain ⟨source, -, hattr⟩ := Option.bind_eq_some_iff.mp hattr
    cases hattr
    rfl

theorem Flow.isRoutine_infer (registry : Registry) (modules : List (Module × Links)) :
    ∀ n ∈ (infer registry modules).notes, n.isRoutine = true := by
  intro n hn
  obtain ⟨_, hmodule, hn⟩ := List.mem_flatMap.mp hn
  obtain ⟨⟨m, links⟩, -, rfl⟩ := List.mem_map.mp hmodule
  obtain ⟨_, hsite, hn⟩ := List.mem_flatMap.mp hn
  obtain ⟨site, -, rfl⟩ := List.mem_map.mp hsite
  exact isRoutine_atSite registry m.path.text links site n hn

-- How a component is listed.
def Component.summary (c : Component) : String :=
  c.name ++ " (" ++ toString c.items.length ++ " items)"

theorem Diagnostics.foldl_componentFound (cs : List Component) (d : Diagnostics) :
    cs.foldl componentFound d =
      { d with componentsFound := d.componentsFound ++ cs.map Component.summary } := by
  induction cs generalizing d with
  | nil => simp
  | cons c rest ih =>
      rw [List.foldl_cons, ih, List.map_cons, List.append_cons]
      rfl

-- The entry of a directory, or of something in it, that could not be looked at.
def Discovery.Refusal.entry (refusal : Refusal) : String :=
  "Error reading directory " ++ refusal.path.text ++ ": " ++ refusal.message

-- The entry of a file that cannot be read or parsed.
def parseErrorAt? (grammar : Grammar) (disk : Disk) (path : Path) : Option String :=
  match Module.load grammar disk path with
  | .error e => some ("Error parsing " ++ path.text ++ ": " ++ e.message)
  | .ok _ => none

namespace Run

-- The books of a run agree with what it has found: `errors` were there before the first file.
structure Accounted (grammar : Grammar) (disk : Disk) (errors : List String) (run : Run) : Prop where
  componentsFound : run.diagnostics.componentsFound = run.components.map Component.summary
  accepted : run.diagnostics.accepted = run.components.length
  log : Accepting run.diagnostics.log run.components.length
  parseErrors : run.diagnostics.parseErrors =
    errors ++ run.visited.filterMap (parseErrorAt? grammar disk)

namespace Accounted

variable {grammar : Grammar} {disk : Disk} {errors : List String} {run : Run}

theorem note (h : run.Accounted grammar disk errors) {n : Note} (hn : n.isRoutine = true) :
    (run.note n).Accounted grammar disk errors := by
  have hnote : run.diagnostics.note n = _ := Diagnostics.notes_eq (.routine hn .nil) run.diagnostics
  unfold Run.note
  rw [hnote]
  exact ⟨h.componentsFound, h.accepted, h.log.append (.routine hn .nil), h.parseErrors⟩

theorem announce (h : run.Accounted grammar disk errors) (task : Task) :
    (task.announce run).Accounted grammar disk errors := by
  cases task with
  | found file => exact h
  | link target => exact h.note rfl

theorem refused (h : run.Accounted grammar disk errors) {path : Path} {e : ParseError}
    (hload : Module.load grammar disk path = .error e) :
    ((run.enter path).refuse path e).Accounted grammar disk errors where
  componentsFound := h.componentsFound
  accepted := h.accepted
  log := h.log
  parseErrors := by
    have hentry : parseErrorAt? grammar disk path =
        some ("Error parsing " ++ path.text ++ ": " ++ e.message) := by
      simp only [parseErrorAt?, hload]
    simp [refuse, enter, Diagnostics.parseError, Diagnostics.fileAnalyzed, h.parseErrors, hentry]

theorem taken (h : run.Accounted grammar disk errors) {path : Path} {m : Module} {links : Links}
    {notes : List Note} (hload : Module.load grammar disk path = .ok m)
    (hlinks : m.links disk = .ok (links, notes)) :
    ((run.enter path).take m links notes).Accounted grammar disk errors := by
  have hlinkNotes := Accepting.of_isRoutine (Module.isRoutine_of_links hlinks)
  have hnotes := m.accepting_componentNotes
  have hnone : parseErrorAt? grammar disk path = none := by simp only [parseErrorAt?, hload]
  unfold take
  rw [Diagnostics.foldl_componentFound, Diagnostics.notes_eq hlinkNotes, Diagnostics.notes_eq hnotes]
  constructor
  · simp [enter, Diagnostics.fileAnalyzed, h.componentsFound]
  · simp [enter, Diagnostics.fileAnalyzed, h.accepted]
  · simpa [enter, Diagnostics.fileAnalyzed] using h.log.append (hlinkNotes.append hnotes)
  · simp [enter, Diagnostics.fileAnalyzed, h.parseErrors, hnone]

end Accounted

end Run

theorem Explores.accounted {grammar : Grammar} {disk : Disk} {errors : List String} {run run' : Run}
    {tasks : List Task} (h : Explores grammar disk run tasks run')
    (hrun : run.Accounted grammar disk errors) : run'.Accounted grammar disk errors := by
  induction h with
  | done run => exact hrun
  | seen _ _ _ ih => exact ih hrun
  | @refused run _ task _ path _ _ _ hload _ ih => exact ih ((hrun.announce task).refused hload)
  | @taken run _ _ task _ path _ _ _ _ _ hload hlinks _ _ ihFollowed ih =>
      exact ih (ihFollowed ((hrun.announce task).taken hload hlinks))

namespace Run

theorem accounted_start (grammar : Grammar) (disk : Disk) (root : String) (found : Discovery.Found) :
    (start root found).Accounted grammar disk (found.refusals.map Discovery.Refusal.entry) := by
  have hrefused : ∀ (refusals : List Discovery.Refusal) (d : Diagnostics),
      refusals.foldl (fun d refusal => d.directoryError refusal.path.text refusal.message) d =
        { d with parseErrors := d.parseErrors ++ refusals.map Discovery.Refusal.entry } := by
    intro refusals
    induction refusals with
    | nil => simp
    | cons refusal rest ih =>
        intro d
        rw [List.foldl_cons, ih, List.map_cons, List.append_cons]
        rfl
  unfold start
  simp only [hrefused]
  constructor
  · rfl
  · rfl
  · exact .routine rfl (.routine rfl .nil)
  · simp [Diagnostics.note, Diagnostics.empty, empty]

-- Inferring the flows adds notes of its own and nothing else.
theorem Accounted.result {grammar : Grammar} {disk : Disk} {errors : List String} {run : Run}
    (h : run.Accounted grammar disk errors) :
    run.result.diagnostics.componentsFound = run.components.map Component.summary ∧
      run.result.diagnostics.accepted = run.components.length ∧
      Accepting run.result.diagnostics.log run.components.length ∧
      run.result.diagnostics.parseErrors =
        errors ++ run.visited.filterMap (parseErrorAt? grammar disk) := by
  have hcounted : (run.note (.componentsFound run.components.length)).Accounted grammar disk errors :=
    h.note rfl
  have hflows := Accepting.of_isRoutine (Flow.isRoutine_infer run.registry run.modules)
  unfold Run.result
  dsimp only
  rw [Diagnostics.notes_eq hflows]
  exact ⟨hcounted.componentsFound, hcounted.accepted, hcounted.log.append hflows, hcounted.parseErrors⟩

end Run

-- The counters, the log and the lists of a result tell the same story.
theorem analyze_accounts {grammar : Grammar} {disk : Disk} {root : String} {result : Result}
    (h : analyze grammar disk root = .ok result) :
    ∃ (found : Discovery.Found) (paths : List Path), Discovery.find disk root = .ok found ∧
      result.diagnostics.filesAnalyzed = paths.map Path.text ∧ paths.Nodup ∧
      result.diagnostics.componentsFound = result.components.map (fun c =>
        c.name ++ " (" ++ toString c.items.length ++ " items)") ∧
      result.diagnostics.componentsFound.length = result.components.length ∧
      result.diagnostics.accepted = result.components.length ∧
      result.diagnostics.lines.countP isTicked = result.components.length ∧
      result.diagnostics.parseErrors =
        found.refusals.map (fun r => "Error reading directory " ++ r.path.text ++ ": " ++ r.message) ++
          paths.filterMap fun path =>
            match Module.load grammar disk path with
            | .error e => some ("Error parsing " ++ path.text ++ ": " ++ e.message)
            | .ok _ => none := by
  obtain ⟨run, hrun, rfl⟩ := Except.map_eq_ok.mp h
  obtain ⟨found, hfound, hexplores⟩ := explores_of_explore hrun
  obtain ⟨hnodup, -, -, hfiles⟩ := explore_history hrun
  obtain ⟨hlisted, haccepted, hlog, herrors⟩ :=
    (hexplores.accounted (Run.accounted_start grammar disk root found)).result
  have hlength : run.result.components.length = run.components.length := List.length_mapIdx
  have hsummaries : run.result.components.map Component.summary =
      run.components.map Component.summary := by
    have hplaced := congrArg (List.map Component.summary) (Layout.map_unplaced_arrange run.components)
    rw [List.map_map, List.map_map] at hplaced
    exact hplaced
  refine ⟨found, run.visited, hfound, ?_, hnodup, ?_, ?_, ?_, ?_, herrors⟩
  · rw [Run.filesAnalyzed_result, hfiles]
  · rw [hlisted, ← hsummaries]
    rfl
  · rw [hlisted, List.length_map, hlength]
  · rw [haccepted, hlength]
  · rw [Diagnostics.lines, hlog.countP_isTicked, hlength]

-- A module with a component, a text that is no module, and a directory that cannot be listed.
namespace Mixed

open Syntax Node

def grammar : Grammar := fun _ source =>
  if source = "a" then branch "program" none [Barrels.button]
  else { branch "program" none [] with hasError := true }

def disk : Disk :=
  ⟨.dir .full [("a.js", .file (some [97])), ("b.js", .file (some [98])), ("locked", .dir .unlisted [])], [], []⟩

def scanned : List (String × Discovery.Found) :=
  [("a.js", ⟨[.absolute ["a.js"]], []⟩), ("b.js", ⟨[.absolute ["b.js"]], []⟩),
    ("locked", ⟨[], [⟨.absolute ["locked"], .notPermitted⟩]⟩)]

-- Sorting does not evaluate, but the names stand in their order already.
theorem find_eq : Discovery.find disk "/" = .ok (.concat (scanned.map (·.2))) := by
  have hsorted : scanned.mergeSort (fun a b => decide (a.1 ≤ b.1)) = scanned :=
    List.mergeSort_of_pairwise (by simp [scanned])
  calc
    Discovery.find disk "/" = .ok (.inOrder scanned) := rfl
    _ = .ok (.concat (scanned.map (·.2))) := by rw [Discovery.Found.inOrder, hsorted]

end Mixed

theorem analyze_accounts_mixed :
    ∃ result, analyze Mixed.grammar Mixed.disk "/" = .ok result ∧
      result.diagnostics.componentsFound = ["Button (0 items)"] ∧
      result.diagnostics.parseErrors =
        ["Error reading directory /locked: [Errno 13] Permission denied: '/locked'",
          "Error parsing /b.js: Syntax error"] ∧
      ∃ (found : Discovery.Found) (paths : List Path), Discovery.find Mixed.disk "/" = .ok found ∧
        result.diagnostics.filesAnalyzed = paths.map Path.text ∧ paths.Nodup ∧
        result.diagnostics.componentsFound = result.components.map (fun c =>
          c.name ++ " (" ++ toString c.items.length ++ " items)") ∧
        result.diagnostics.componentsFound.length = result.components.length ∧
        result.diagnostics.accepted = result.components.length ∧
        result.diagnostics.lines.countP isTicked = result.components.length ∧
        result.diagnostics.parseErrors =
          found.refusals.map (fun r => "Error reading directory " ++ r.path.text ++ ": " ++ r.message) ++
            paths.filterMap fun path =>
              match Module.load Mixed.grammar Mixed.disk path with
              | .error e => some ("Error parsing " ++ path.text ++ ": " ++ e.message)
              | .ok _ => none := by
  have hlists : (analyze Mixed.grammar Mixed.disk "/").toOption.map
      (fun r => (r.diagnostics.componentsFound, r.diagnostics.parseErrors)) =
      some (["Button (0 items)"],
        ["Error reading directory /locked: [Errno 13] Permission denied: '/locked'",
          "Error parsing /b.js: Syntax error"]) := by
    rw [analyze, explore, Mixed.find_eq]
    decide +kernel
  obtain ⟨result, h, hresult⟩ := Except.exists_of_toOption_map hlists
  obtain ⟨hlisted, herrors⟩ := Prod.mk.inj hresult
  exact ⟨result, h, hlisted, herrors, analyze_accounts h⟩

end PropFlow
