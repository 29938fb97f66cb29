import PropFlow.Proofs.Analysis.Progress
import PropFlow.Proofs.Flow.Endpoints

namespace PropFlow

-- The module at a path has no components, and it links to one other file and to nothing else.
structure PassesOn (grammar : Grammar) (disk : Disk) (barrel target : Path) : Prop where
  ne : barrel ≠ target
  links : ∃ m links notes, Module.load grammar disk barrel = .ok m ∧ m.components = [] ∧
    m.links disk = .ok (links, notes) ∧ links.values ≠ [] ∧ ∀ path ∈ links.values, path = target

namespace PassesOn

variable {grammar : Grammar} {disk : Disk} {barrel target : Path}

theorem load_ne_error (h : PassesOn grammar disk barrel target) (e : ParseError) :
    Module.load grammar disk barrel ≠ .error e := by
  obtain ⟨m, links, notes, hload, -⟩ := h.links
  simp [hload]

-- What is known of the barrel's module, whichever way it has been come by.
theorem of_load (h : PassesOn grammar disk barrel target) {m : Module}
    (hload : Module.load grammar disk barrel = .ok m) :
    m.components = [] ∧ ∃ links notes, m.links disk = .ok (links, notes) ∧ links.values ≠ [] ∧
      ∀ path ∈ links.values, path = target := by
  obtain ⟨m', links, notes, hload', hempty, hrest⟩ := h.links
  obtain rfl : m = m' := Except.ok.inj (hload.symm.trans hload')
  exact ⟨hempty, links, notes, hrest⟩

theorem of_links (h : PassesOn grammar disk barrel target) {m : Module} {links : Links}
    {notes : List Note} (hload : Module.load grammar disk barrel = .ok m)
    (hlinks : m.links disk = .ok (links, notes)) :
    links.values ≠ [] ∧ ∀ path ∈ links.values, path = target := by
  obtain ⟨-, links', notes', hlinks', hvalues⟩ := h.of_load hload
  obtain ⟨rfl, -⟩ := Prod.mk.inj (Except.ok.inj (hlinks.symm.trans hlinks'))
  exact hvalues

theorem realPath_target (h : PassesOn grammar disk barrel target) :
    disk.realPath target = .ok target := by
  obtain ⟨m, links, notes, -, -, hlinks, hne, hall⟩ := h.links
  obtain ⟨path, hpath⟩ := List.exists_mem_of_ne_nil _ hne
  have htarget := m.links_isTarget hlinks hpath
  rw [hall path hpath] at htarget
  exact htarget.realPath_self

theorem componentsAt_eq_nil (h : PassesOn grammar disk barrel target) :
    componentsAt grammar disk barrel = [] := by
  obtain ⟨m, links, notes, hload, hempty, -⟩ := h.links
  simp [componentsAt, hload, hempty]

theorem linked (h : PassesOn grammar disk barrel target) : Linked grammar disk barrel := by
  intro m hload
  obtain ⟨-, links, notes, hlinks, -⟩ := h.of_load hload
  exact ⟨links, notes, hlinks⟩

-- The one thing there is to follow from a barrel.
theorem ofModule_eq (h : PassesOn grammar disk barrel target) {m : Module} {links : Links}
    {notes : List Note} (hload : Module.load grammar disk barrel = .ok m)
    (hlinks : m.links disk = .ok (links, notes)) : Task.ofModule m links = [.link target] := by
  obtain ⟨hne, hall⟩ := h.of_links hload hlinks
  have hone : links.values.eraseDups = [target] := by
    cases hvalues : links.values with
    | nil => exact absurd hvalues hne
    | cons first rest =>
        rw [hvalues] at hall
        obtain ⟨rfl, hrest⟩ := List.forall_mem_cons.mp hall
        have hnothing : rest.filter (fun path => !path == first) = [] := by
          rw [List.filter_eq_nil_iff]
          intro path hpath
          simp [hrest path hpath]
        rw [List.eraseDups_cons, hnothing, List.eraseDups_nil]
  simp [Task.ofModule, (h.of_load hload).1, hone]

end PassesOn

-- Two lists of paths that agree when one path is left out.
def SameBut (barrel : Path) (xs ys : List Path) : Prop :=
  xs.filter (· ≠ barrel) = ys.filter (· ≠ barrel)

namespace SameBut

variable {barrel path : Path} {xs ys zs : List Path}

theorem symm (h : SameBut barrel xs ys) : SameBut barrel ys xs :=
  Eq.symm h

theorem trans (h : SameBut barrel xs ys) (h' : SameBut barrel ys zs) : SameBut barrel xs zs :=
  Eq.trans h h'

theorem mem_iff (h : SameBut barrel xs ys) (hne : path ≠ barrel) : path ∈ xs ↔ path ∈ ys := by
  have hmem : ∀ zs : List Path, path ∈ zs ↔ path ∈ zs.filter (· ≠ barrel) := by simp [hne]
  rw [hmem xs, hmem ys, h]

theorem enter (h : SameBut barrel xs ys) (path : Path) :
    SameBut barrel (xs ++ [path]) (ys ++ [path]) := by
  unfold SameBut at h ⊢
  rw [List.filter_append, List.filter_append, h]

theorem enter_barrel (barrel : Path) (xs : List Path) : SameBut barrel (xs ++ [barrel]) xs := by
  simp [SameBut, List.filter_append]

theorem flatMap_eq {α : Type} {f : Path → List α} (h : SameBut barrel xs ys) (hf : f barrel = []) :
    xs.flatMap f = ys.flatMap f := by
  have hbut : ∀ zs : List Path, (zs.filter (· ≠ barrel)).flatMap f = zs.flatMap f := by
    intro zs
    apply List.flatMap_filter_of_nil
    intro path _ hpath
    obtain rfl : path = barrel := by simpa using hpath
    exact hf
  rw [← hbut xs, ← hbut ys, h]

end SameBut

namespace Explores

variable {grammar : Grammar} {disk : Disk}

-- What a run can do with its first task.
theorem cons_cases {run run' : Run} {task : Task} {rest : List Task} {path : Path}
    (h : Explores grammar disk run (task :: rest) run') (hreal : disk.realPath task.path = .ok path) :
    (path ∈ run.visited ∧ Explores grammar disk run rest run') ∨
    (path ∉ run.visited ∧ ∃ e, Module.load grammar disk path = .error e ∧
      Explores grammar disk (((task.announce run).enter path).refuse path e) rest run') ∨
    (path ∉ run.visited ∧ ∃ m links notes mid, Module.load grammar disk path = .ok m ∧
      m.links disk = .ok (links, notes) ∧
      Explores grammar disk (((task.announce run).enter path).take m links notes)
        (Task.ofModule m links) mid ∧ Explores grammar disk mid rest run') := by
  cases h with
  | seen hreal' hseen hrest =>
      obtain rfl := Except.ok.inj (hreal.symm.trans hreal')
      exact .inl ⟨hseen, hrest⟩
  | refused hreal' hnew hload hrest =>
      obtain rfl := Except.ok.inj (hreal.symm.trans hreal')
      exact .inr (.inl ⟨hnew, _, hload, hrest⟩)
  | taken hreal' hnew hload hlinks hfollowed hrest =>
      obtain rfl := Except.ok.inj (hreal.symm.trans hreal')
      exact .inr (.inr ⟨hnew, _, _, _, _, hload, hlinks, hfollowed, hrest⟩)

theorem eq_of_nil {run run' : Run} (h : Explores grammar disk run [] run') : run' = run := by
  cases h
  rfl

section Barrel

variable {barrel target : Path} (hbarrel : PassesOn grammar disk barrel target)
include hbarrel

-- Behind a barrel there is nothing to follow once the target has been visited.
theorem visited_of_barrel {run mid : Run} {m : Module} {links : Links} {notes : List Note}
    (h : Explores grammar disk run (Task.ofModule m links) mid)
    (hload : Module.load grammar disk barrel = .ok m) (hlinks : m.links disk = .ok (links, notes))
    (htarget : target ∈ run.visited) : mid = run := by
  rw [hbarrel.ofModule_eq hload hlinks] at h
  rcases h.cons_cases hbarrel.realPath_target with ⟨-, hrest⟩ | ⟨hnew, -⟩ | ⟨hnew, -⟩
  · exact hrest.eq_of_nil
  · exact absurd htarget hnew
  · exact absurd htarget hnew

-- A barrel adds nothing but itself then, whenever it is met.
theorem barrel_cons {run run' : Run} {task : Task} {rest : List Task}
    (h : Explores grammar disk run (task :: rest) run') (hreal : disk.realPath task.path = .ok barrel)
    (htarget : target ∈ run.visited) :
    ∃ mid, SameBut barrel mid.visited run.visited ∧ Explores grammar disk mid rest run' := by
  rcases h.cons_cases hreal with ⟨-, hrest⟩ | ⟨-, e, hload, -⟩ |
    ⟨-, m, links, notes, mid, hload, hlinks, hfollowed, hrest⟩
  · exact ⟨run, rfl, hrest⟩
  · exact absurd hload (hbarrel.load_ne_error e)
  · refine ⟨mid, ?_, hrest⟩
    rw [visited_of_barrel hbarrel hfollowed hload hlinks (by simp [htarget])]
    simpa using SameBut.enter_barrel barrel run.visited

-- Two runs with the same tasks that differ by the barrel at most go on to do so, once the target
-- has been visited.
theorem sameBut {run run' other other' : Run} {tasks : List Task}
    (h : Explores grammar disk run tasks run') (h' : Explores grammar disk other tasks other')
    (hsame : SameBut barrel run.visited other.visited) (htarget : target ∈ run.visited) :
    SameBut barrel run'.visited other'.visited := by
  induction h generalizing other other' with
  | done run =>
      rw [h'.eq_of_nil]
      exact hsame
  | @seen run _ task rest path hreal hseen _ ih =>
      have htarget' := (hsame.mem_iff hbarrel.ne.symm).mp htarget
      by_cases hpath : path = barrel
      · subst hpath
        obtain ⟨mid, hmid, hrest'⟩ := barrel_cons hbarrel h' hreal htarget'
        exact ih hrest' (hsame.trans hmid.symm) htarget
      · have hseen' := (hsame.mem_iff hpath).mp hseen
        rcases h'.cons_cases hreal with ⟨-, hrest'⟩ | ⟨hnew, -⟩ | ⟨hnew, -⟩
        · exact ih hrest' hsame htarget
        · exact absurd hseen' hnew
        · exact absurd hseen' hnew
  | @refused run _ task rest path e hreal hnew hload _ ih =>
      have hpath : path ≠ barrel := by
        rintro rfl
        exact hbarrel.load_ne_error e hload
      rcases h'.cons_cases hreal with ⟨hseen, -⟩ | ⟨-, e', hload', hrest'⟩ | ⟨-, m, _, _, _, hload', -⟩
      · exact absurd ((hsame.mem_iff hpath).mpr hseen) hnew
      · exact ih hrest' (by simpa using hsame.enter path) (by simp [htarget])
      · cases hload.symm.trans hload'
  | @taken run mid _ task rest path m links notes hreal hnew hload hlinks hfollowed _ ihFollowed ih =>
      have htarget' := (hsame.mem_iff hbarrel.ne.symm).mp htarget
      by_cases hpath : path = barrel
      · subst hpath
        obtain ⟨mid', hmid', hrest'⟩ := barrel_cons hbarrel h' hreal htarget'
        have hmid := visited_of_barrel hbarrel hfollowed hload hlinks (by simp [htarget])
        refine ih hrest' ?_ (by simp [hmid, htarget])
        rw [hmid]
        have hbut := (SameBut.enter_barrel path run.visited).trans (hsame.trans hmid'.symm)
        simpa using hbut
      · rcases h'.cons_cases hreal with ⟨hseen, -⟩ | ⟨-, e', hload', -⟩ |
          ⟨-, m', links', notes', mid', hload', hlinks', hfollowed', hrest'⟩
        · exact absurd ((hsame.mem_iff hpath).mpr hseen) hnew
        · cases hload.symm.trans hload'
        · obtain rfl : m = m' := Except.ok.inj (hload.symm.trans hload')
          obtain ⟨rfl, rfl⟩ := Prod.mk.inj (Except.ok.inj (hlinks.symm.trans hlinks'))
          have hmid := ihFollowed hfollowed' (by simpa using hsame.enter path) (by simp [htarget])
          exact ih hrest' hmid (hfollowed.visited_subset (by simp [htarget]))

-- A task that leads to the target has the same effect on two runs that differ by the barrel.
theorem sameBut_of_target {run run' other other' : Run} {task task' : Task}
    (h : Explores grammar disk run [task] run') (h' : Explores grammar disk other [task'] other')
    (htask : task.path = target) (htask' : task'.path = target)
    (hsame : SameBut barrel run.visited other.visited) (hnew : target ∉ run.visited) :
    SameBut barrel run'.visited other'.visited := by
  have hreal : disk.realPath task.path = .ok target := htask ▸ hbarrel.realPath_target
  have hreal' : disk.realPath task'.path = .ok target := htask' ▸ hbarrel.realPath_target
  have hnew' := mt (hsame.mem_iff hbarrel.ne.symm).mpr hnew
  rcases h.cons_cases hreal with ⟨hseen, -⟩ | ⟨-, e, hload, hrest⟩ |
    ⟨-, m, links, notes, mid, hload, hlinks, hfollowed, hrest⟩
  · exact absurd hseen hnew
  · rcases h'.cons_cases hreal' with ⟨hseen, -⟩ | ⟨-, e', -, hrest'⟩ | ⟨-, m, _, _, _, hload', -⟩
    · exact absurd hseen hnew'
    · rw [hrest.eq_of_nil, hrest'.eq_of_nil]
      simpa using hsame.enter target
    · cases hload.symm.trans hload'
  · rcases h'.cons_cases hreal' with ⟨hseen, -⟩ | ⟨-, e', hload', -⟩ |
      ⟨-, m', links', notes', mid', hload', hlinks', hfollowed', hrest'⟩
    · exact absurd hseen hnew'
    · cases hload.symm.trans hload'
    · obtain rfl : m = m' := Except.ok.inj (hload.symm.trans hload')
      obtain ⟨rfl, rfl⟩ := Prod.mk.inj (Except.ok.inj (hlinks.symm.trans hlinks'))
      rw [hrest.eq_of_nil, hrest'.eq_of_nil]
      exact sameBut hbarrel hfollowed hfollowed' (by simpa using hsame.enter target) (by simp)

-- From the barrel and from its target a run comes to the same paths, the barrel aside.
theorem sameBut_of_found {run run' other other' : Run}
    (h : Explores grammar disk run [.found barrel] run')
    (h' : Explores grammar disk other [.found target] other') (hreal : disk.realPath barrel = .ok barrel)
    (hrun : run.visited = []) (hother : other.visited = []) :
    SameBut barrel run'.visited other'.visited := by
  rcases h.cons_cases hreal with ⟨hseen, -⟩ | ⟨-, e, hload, -⟩ |
    ⟨-, m, links, notes, mid, hload, hlinks, hfollowed, hrest⟩
  · simp [hrun] at hseen
  · exact absurd hload (hbarrel.load_ne_error e)
  · rw [hbarrel.ofModule_eq hload hlinks] at hfollowed
    rw [hrest.eq_of_nil]
    refine sameBut_of_target hbarrel hfollowed h' rfl rfl ?_ ?_
    · simp [hrun, hother, SameBut]
    · simpa [hrun] using hbarrel.ne.symm

end Barrel

end Explores

namespace Flow

-- What the module at a path shows.
def atPath (grammar : Grammar) (disk : Disk) (registry : Registry) (path : Path) : List Flow :=
  (opened? grammar disk path).toList.flatMap fun entry => (ofModule registry entry.1 entry.2).flows

theorem flows_infer_opened (grammar : Grammar) (disk : Disk) (registry : Registry)
    (paths : List Path) : (infer registry (paths.filterMap (opened? grammar disk))).flows =
      paths.flatMap (atPath grammar disk registry) := by
  unfold infer atPath
  simp only [List.filterMap_eq_flatMap_toList, List.flatMap_map, List.flatMap_assoc]

-- A module without registered components shows no flow.
theorem flows_ofModule_eq_nil {registry : Registry} {m : Module} (links : Links)
    (h : ∀ name, registry.get? name m.path.text = none) : (ofModule registry m links).flows = [] := by
  have hnone : ∀ above, enclosing? registry m.path.text above = none := by
    intro above
    cases hc : enclosing? registry m.path.text above with
    | none => rfl
    | some c =>
        obtain ⟨name, hname⟩ := exists_get?_of_enclosing? hc
        rw [h name] at hname
        cases hname
  simp only [ofModule, List.flatMap_eq_nil_iff, List.forall_mem_map]
  intro site _
  unfold atSite
  split
  · rfl
  · rename_i parent child hrendering
    obtain ⟨-, _, -, -, -, -, hparent⟩ := rendering?_eq_some_iff.mp hrendering
    rw [hnone] at hparent
    cases hparent

-- Nothing flows from a file that none of the registered components is in.
theorem atPath_eq_nil {grammar : Grammar} {disk : Disk} {path : Path} {paths : List Path}
    (hnone : componentsAt grammar disk path = []) (hpath : path ∈ readable)
    (hpaths : ∀ other ∈ paths, other ∈ readable) :
    atPath grammar disk ((paths.flatMap (componentsAt grammar disk)).foldl Registry.register .empty)
      path = [] := by
  unfold atPath
  rw [List.flatMap_eq_nil_iff]
  intro ⟨m, links⟩ hopened
  apply flows_ofModule_eq_nil
  intro name
  rw [Registry.get?_foldl_register, List.find?_eq_none]
  intro c hc hkey
  obtain ⟨other, hother, hcomponent⟩ := List.mem_flatMap.mp (List.mem_reverse.mp hc)
  have hfile : c.file = m.path.text := congrArg Prod.snd (beq_iff_eq.mp hkey)
  rw [file_of_mem_componentsAt hcomponent, path_of_opened? (Option.mem_toList.mp hopened)] at hfile
  obtain rfl := text_injOn_readable (hpaths other hother) hpath hfile
  rw [hnone] at hcomponent
  cases hcomponent

end Flow

namespace PassesOn

variable {grammar : Grammar} {disk : Disk} {barrel target : Path}

-- What a run has visited stays closed with the barrel in it, as long as the target has been visited.
theorem exists_explore_eq_ok (h : PassesOn grammar disk barrel target) (hdisk : disk.WellNamed)
    {root : String} {run : Run} (hrun : explore grammar disk root = .ok run)
    (htarget : target ∈ run.visited) {path : Path} (hfile : disk.HoldsFile path)
    (hpath : path = barrel ∨ path ∈ run.visited) :
    ∃ run', explore grammar disk path.text = .ok run' := by
  obtain ⟨found, -, hleast⟩ := explore_isLeast hrun
  have hclosed : Closed grammar disk [] {p | p = barrel ∨ p ∈ run.visited} := by
    constructor
    · intro file hfile
      cases hfile
    · rintro p (rfl | hp) m links notes hload hempty hlinks next hnext
      · rw [(h.of_links hload hlinks).2 next hnext]
        exact .inr htarget
      · exact .inr (hleast.1.passed p hp m links notes hload hempty hlinks next hnext)
  refine PropFlow.exists_explore_eq_ok hdisk hclosed ?_ hfile hpath
  obtain ⟨_, -, hexplores⟩ := explores_of_explore hrun
  rintro p (rfl | hp)
  · exact h.linked
  · exact hexplores.linked_of_visited hp (by simp [Run.start, Run.empty])

theorem target_mem_visited (h : PassesOn grammar disk barrel target) {root : String} {run : Run}
    (hrun : explore grammar disk root = .ok run) (hbarrel : barrel ∈ run.visited) :
    target ∈ run.visited := by
  obtain ⟨m, links, notes, hload, hempty, hlinks, hne, hall⟩ := h.links
  obtain ⟨found, -, hleast⟩ := explore_isLeast hrun
  obtain ⟨path, hpath⟩ := List.exists_mem_of_ne_nil _ hne
  have hpassed := hleast.1.passed barrel hbarrel m links notes hload hempty hlinks path hpath
  rwa [hall path hpath] at hpassed

end PassesOn

-- What a result says about a project, without the notes on how it was found.
def Result.content (r : Result) : List Component × List Flow × List Conflict :=
  (r.components, r.flows, r.conflicts)

namespace PassesOn

variable {grammar : Grammar} {disk : Disk} {barrel target : Path}

-- Runs that differ by the barrel alone come to the same result.
theorem content_eq (h : PassesOn grammar disk barrel target) (hdisk : disk.WellNamed)
    (hbarrel : barrel ∈ readable) {root root' : String} {run run' : Run}
    (hrun : explore grammar disk root = .ok run) (hrun' : explore grammar disk root' = .ok run')
    (hsame : SameBut barrel run.visited run'.visited) : run.result.content = run'.result.content := by
  obtain ⟨-, hmodules, hcomponents, -⟩ := explore_history hrun
  obtain ⟨-, hmodules', hcomponents', -⟩ := explore_history hrun'
  have hequal : run.components = run'.components := by
    rw [hcomponents, hcomponents']
    exact hsame.flatMap_eq h.componentsAt_eq_nil
  have hflows : (Flow.infer run.registry run.modules).flows =
      (Flow.infer run'.registry run'.modules).flows := by
    have hnothing := Flow.atPath_eq_nil h.componentsAt_eq_nil hbarrel (explore_readable hdisk hrun)
    rw [← hcomponents] at hnothing
    unfold Run.registry
    rw [← hequal, hmodules, hmodules', Flow.flows_infer_opened, Flow.flows_infer_opened]
    exact hsame.flatMap_eq hnothing
  simp only [Result.content, Run.result, hequal, hflows]

end PassesOn

-- A module that has nothing of its own and links to one file can be analysed in place of that file.
theorem analyze_barrel_eq_target {grammar : Grammar} {disk : Disk} {barrel target : Path}
    (hdisk : disk.WellNamed) (hbarrel : disk.HoldsFile barrel) (htarget : disk.HoldsFile target)
    (h : PassesOn grammar disk barrel target) :
    (analyze grammar disk barrel.text).toOption.map Result.content =
      (analyze grammar disk target.text).toOption.map Result.content := by
  cases hrun : explore grammar disk barrel.text with
  | error e =>
      cases hrun' : explore grammar disk target.text with
      | error e' => simp [analyze, hrun, hrun', Except.map, Except.toOption]
      | ok run' =>
          have hvisited := (htarget.explores hdisk hrun').tasks_visited (List.mem_singleton_self _)
            htarget.realPath
          obtain ⟨run, hok⟩ := h.exists_explore_eq_ok hdisk hrun' hvisited hbarrel (.inl rfl)
          rw [hrun] at hok
          cases hok
  | ok run =>
      have hvisited := (hbarrel.explores hdisk hrun).tasks_visited (List.mem_singleton_self _)
        hbarrel.realPath
      have hpassed := h.target_mem_visited hrun hvisited
      obtain ⟨run', hrun'⟩ := h.exists_explore_eq_ok hdisk hrun hpassed htarget (.inr hpassed)
      have hsame := Explores.sameBut_of_found h (hbarrel.explores hdisk hrun)
        (htarget.explores hdisk hrun') hbarrel.realPath rfl rfl
      have hcontent := h.content_eq hdisk (hbarrel.isTarget.mem_readable hdisk) hrun hrun' hsame
      simp [analyze, hrun, hrun', Except.map, Except.toOption, hcontent]

namespace Barrels

def barrel : Path := .absolute ["a.js"]

def target : Path := .absolute ["b.js"]

theorem passesOn : PassesOn grammar disk barrel target where
  ne := by decide
  links := ⟨⟨barrel, .javascript, "a", grammar .javascript "a"⟩, ⟨[("*:./b", target)]⟩,
    [.reexportFound "./b", .reexported "*:./b" "./b"], rfl, by decide +kernel, by decide +kernel,
    by decide, by decide⟩

end Barrels

-- The target passes the barrel on in its turn.
theorem analyze_barrel_eq_target_cycle :
    Barrels.disk.WellNamed ∧ Barrels.disk.HoldsFile Barrels.barrel ∧
      Barrels.disk.HoldsFile Barrels.target ∧
      PassesOn Barrels.grammar Barrels.disk Barrels.barrel Barrels.target ∧
      (analyze Barrels.grammar Barrels.disk Barrels.target.text).toOption.map
        (fun r => (r.components.map Component.name, r.diagnostics.filesAnalyzed)) =
          some (["Button"], ["/b.js", "/a.js", "/c.js"]) ∧
      (analyze Barrels.grammar Barrels.disk Barrels.barrel.text).toOption.map Result.content =
        (analyze Barrels.grammar Barrels.disk Barrels.target.text).toOption.map Result.content := by
  have hdisk : Barrels.disk.WellNamed := by decide +kernel
  have hbarrel : Barrels.disk.HoldsFile Barrels.barrel := ⟨by decide +kernel, by decide +kernel⟩
  have htarget : Barrels.disk.HoldsFile Barrels.target := ⟨by decide +kernel, by decide +kernel⟩
  exact ⟨hdisk, hbarrel, htarget, Barrels.passesOn, by decide +kernel,
    analyze_barrel_eq_target hdisk hbarrel htarget Barrels.passesOn⟩

end PropFlow
