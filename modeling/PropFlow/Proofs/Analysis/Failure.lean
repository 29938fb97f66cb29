import PropFlow.Proofs.Analysis.Progress

namespace PropFlow

namespace ModuleLink

-- A path that is tried for a relative specifier, after others where there is no file, and that it is
-- an error to ask for: it is too long, or a directory on its way may not be searched.
structure Stops (disk : Disk) (importer : Path) (specifier : String) (path : Path) (e : FileError) :
    Prop where
  relative : isRelative specifier = true
  tried : ∃ before after, candidates (base importer specifier) = before ++ path :: after ∧
    ∀ other ∈ before, disk.isFile other = .ok false
  stopped : disk.isFile path = .error e

theorem firstFile?_eq_error_iff {disk : Disk} {paths : List Path} {failure : Failure} :
    firstFile? disk paths = .error failure ↔ ∃ path e,
      (∃ before after, paths = before ++ path :: after ∧
        ∀ other ∈ before, disk.isFile other = .ok false) ∧
      disk.isFile path = .error e ∧ failure = .file e path := by
  induction paths with
  | nil => simp [firstFile?]
  | cons first rest ih =>
      rw [firstFile?]
      constructor
      · intro h
        split at h
        · cases h
        · rename_i hfirst
          obtain ⟨path, e, ⟨before, after, rfl, hbefore⟩, hstopped⟩ := ih.mp h
          have hall : ∀ other ∈ first :: before, disk.isFile other = .ok false :=
            List.forall_mem_cons.mpr ⟨hfirst, hbefore⟩
          exact ⟨path, e, ⟨first :: before, after, rfl, hall⟩, hstopped⟩
        · rename_i e hfirst
          cases h
          exact ⟨first, e, ⟨[], rest, rfl, List.forall_mem_nil _⟩, hfirst, rfl⟩
      · rintro ⟨path, e, ⟨before, after, hpaths, hbefore⟩, hstopped, rfl⟩
        cases before with
        | nil =>
            obtain ⟨rfl, rfl⟩ := List.cons.inj hpaths
            simp only [hstopped]
        | cons other before =>
            obtain ⟨rfl, rfl⟩ := List.cons.inj hpaths
            obtain ⟨hfirst, hbefore⟩ := List.forall_mem_cons.mp hbefore
            simp only [hfirst]
            exact ih.mpr ⟨path, e, ⟨before, after, rfl, hbefore⟩, hstopped, rfl⟩

-- A specifier cannot be resolved for no other reason.
theorem resolve?_eq_error_iff {disk : Disk} {importer : Path} {specifier : String} {failure : Failure} :
    resolve? disk importer specifier = .error failure ↔
      ∃ path e, Stops disk importer specifier path e ∧ failure = .file e path := by
  unfold resolve?
  constructor
  · intro h
    split at h
    · rename_i hrelative
      obtain ⟨path, e, htried, hstopped, rfl⟩ := firstFile?_eq_error_iff.mp h
      exact ⟨path, e, ⟨hrelative, htried, hstopped⟩, rfl⟩
    · cases h
  · rintro ⟨path, e, hstops, rfl⟩
    rw [if_pos hstops.relative]
    exact firstFile?_eq_error_iff.mpr ⟨path, e, hstops.tried, hstops.stopped, rfl⟩

theorem exists_resolve?_iff {disk : Disk} {importer : Path} {specifier : String} :
    (∃ path, resolve? disk importer specifier = .ok path) ↔
      ∀ tried e, ¬Stops disk importer specifier tried e := by
  constructor
  · rintro ⟨path, hpath⟩ tried e hstops
    rw [resolve?_eq_error_iff.mpr ⟨tried, e, hstops, rfl⟩] at hpath
    cases hpath
  · intro hanswered
    cases h : resolve? disk importer specifier with
    | ok path => exact ⟨path, rfl⟩
    | error failure =>
        obtain ⟨tried, e, hstops, -⟩ := resolve?_eq_error_iff.mp h
        exact absurd hstops (hanswered tried e)

theorem isFile_of_resolve? {disk : Disk} {importer path : Path} {specifier : String}
    (h : resolve? disk importer specifier = .ok (some path)) : disk.isFile path = .ok true := by
  unfold resolve? at h
  split at h
  · exact (firstFile?_eq_some h).2
  · cases h

-- The file that a specifier stands for has a real path.
theorem target?_eq_error_iff {disk : Disk} {importer : Path} {specifier : String} {failure : Failure} :
    target? disk importer specifier = .error failure ↔
      ∃ path e, Stops disk importer specifier path e ∧ failure = .file e path := by
  rw [← resolve?_eq_error_iff, target?]
  rcases hresolve : resolve? disk importer specifier with e | _ | path
  · rfl
  · simp
  · obtain ⟨place, bytes, hstat, -⟩ := Disk.stat_of_isFile (isFile_of_resolve? hresolve)
    simp only [Disk.realPath_of_stat hstat]
    split <;> simp

end ModuleLink

namespace Module

-- The modules that a module names.
def sources (m : Module) : List String :=
  m.root.parts.filterMap ModuleLink.sourceOf?

theorem links_eq_error {m : Module} {disk : Disk} {failure : Failure} (h : m.links disk = .error failure) :
    ∃ source ∈ m.sources, ∃ path e, ModuleLink.Stops disk m.path source path e ∧ failure = .file e path := by
  obtain ⟨statement, hmem, hstatement⟩ := List.exists_of_mapM_eq_error (Except.map_eq_error.mp h)
  rw [ModuleLink.ofStatement_eq] at hstatement
  split at hstatement
  · cases hstatement
  · rename_i source hsource
    exact ⟨source, List.mem_filterMap.mpr ⟨statement, hmem, hsource⟩,
      ModuleLink.target?_eq_error_iff.mp (Except.map_eq_error.mp hstatement)⟩

-- The links of a module can be looked up unless it is an error to ask for a path that is tried.
theorem exists_links_iff {m : Module} {disk : Disk} :
    (∃ links notes, m.links disk = .ok (links, notes)) ↔
      ∀ source ∈ m.sources, ∀ tried e, ¬ModuleLink.Stops disk m.path source tried e := by
  constructor
  · rintro ⟨links, notes, h⟩ source hsource tried e hstops
    obtain ⟨readings, hreadings, -⟩ := Except.map_eq_ok.mp h
    obtain ⟨statement, hmem, hsource⟩ := List.mem_filterMap.mp hsource
    obtain ⟨reading, -, hreading⟩ := List.exists_of_mapM_eq_ok hreadings hmem
    rw [ModuleLink.ofStatement_eq, hsource] at hreading
    obtain ⟨target, htarget, -⟩ := Except.map_eq_ok.mp hreading
    rw [ModuleLink.target?_eq_error_iff.mpr ⟨tried, e, hstops, rfl⟩] at htarget
    cases htarget
  · intro hanswered
    cases hlinks : m.links disk with
    | ok read => exact ⟨read.1, read.2, rfl⟩
    | error failure =>
        obtain ⟨source, hsource, tried, e, hstops, -⟩ := links_eq_error hlinks
        exact absurd hstops (hanswered source hsource tried e)

end Module

-- The ways in which an analysis can fail, each with its reason: the root starts from a home directory
-- that nobody knows, there is nothing at the root, a link leads to itself, or a look-up is stopped by a
-- name or a path that is too long or by a directory that may not be searched.
inductive CanFail (disk : Disk) (root : String) : Failure → Prop
  | homeless (hpath : disk.expand? (.ofString root) = none) : CanFail disk root .homeless
  | missing {path real : Path} (hpath : disk.expand? (.ofString root) = some path)
      (hreal : disk.realPath path = .ok real) (habsent : disk.isPresent real = .ok false) :
      CanFail disk root (.missing root)
  | loop {path : Path} {l : Entry.LinkLoop} (hreal : disk.realPath path = .error l) :
      CanFail disk root (.loop l)
  | stopped {path : Path} {e : FileError} (hstat : disk.stat path = .error e)
      (herror : e = .nameTooLong ∨ e = .notPermitted) : CanFail disk root (.file e path)

namespace Discovery

-- The files under a root are found just when there is something at the root.
theorem exists_find_iff {disk : Disk} {root : String} :
    (∃ found, find disk root = .ok found) ↔ ∃ path real, disk.expand? (.ofString root) = some path ∧
      disk.realPath path = .ok real ∧ disk.isPresent real = .ok true := by
  constructor
  · rintro ⟨found, h⟩
    unfold find at h
    split at h
    · cases h
    rename_i path hpath
    split at h
    · cases h
    rename_i real hreal
    unfold findAt at h
    split at h
    · rename_i place hstat
      exact ⟨path, real, hpath, hreal, by rw [Disk.isPresent, hstat]; rfl⟩
    · split at h <;> cases h
  · rintro ⟨path, real, hpath, hreal, hpresent⟩
    obtain ⟨place, hstat⟩ := Disk.stat_of_isPresent hpresent
    simp only [find, hpath, hreal, findAt, hstat]
    split
    · exact ⟨_, rfl⟩
    · exact ⟨_, rfl⟩

theorem canFail_of_find {disk : Disk} {root : String} {failure : Failure}
    (h : find disk root = .error failure) : CanFail disk root failure := by
  unfold find at h
  split at h
  · rename_i hpath
    cases h
    exact .homeless hpath
  rename_i path hpath
  split at h
  · rename_i l hreal
    cases h
    exact .loop hreal
  rename_i real hreal
  unfold findAt at h
  split at h
  · split at h <;> cases h
  rename_i e hstat
  split at h
  · rename_i habsent
    cases h
    exact .missing hpath hreal (by rw [Disk.isPresent, hstat]; exact if_pos habsent)
  · rename_i hpresent
    cases h
    exact .stopped hstat ((Disk.stat_error hstat).resolve_left hpresent)

end Discovery

-- The paths that no closed set over some files is without.
def reached (grammar : Grammar) (disk : Disk) (files : List Path) : Set Path :=
  {path | ∀ paths, Closed grammar disk files paths → path ∈ paths}

theorem closed_reached (grammar : Grammar) (disk : Disk) (files : List Path) :
    Closed grammar disk files (reached grammar disk files) where
  found file hfile path hpath _ hclosed := hclosed.found file hfile path hpath
  passed path hpath m links notes hload hempty hlinks target htarget paths hclosed :=
    hclosed.passed path (hpath paths hclosed) m links notes hload hempty hlinks target htarget

theorem Run.canFail_of_visit {grammar : Grammar} {disk : Disk} {depth : Nat} {run : Run} {file : Path}
    {failure : Failure} (h : visit grammar disk depth run file = .error failure) (root : String) :
    CanFail disk root failure := by
  induction depth using Nat.strongRecOn generalizing run file with
  | ind depth ih =>
      rw [visit.eq_def] at h
      split at h
      · rename_i l hreal
        cases h
        exact .loop hreal
      · split at h
        · cases h
        · split at h
          · cases h
          · split at h
            · rename_i e hlinks
              cases h
              obtain ⟨_, -, path, e, hstops, rfl⟩ := Module.links_eq_error hlinks
              obtain ⟨hstat, herror⟩ := Disk.isFile_eq_error hstops.stopped
              exact .stopped hstat herror
            · split at h
              · split at h
                · cases h
                · obtain ⟨mid, target, -, hfails⟩ := List.exists_of_foldlM_eq_error h
                  split at hfails
                  · cases hfails
                  · exact ih _ (by omega) hfails
              · cases h

-- What an analysis depends on: the root's home directory is known, there is something at the root's
-- real path, no link among the files found leads to itself, and every path that is tried for an import
-- of a module on the way can be asked for.
structure Viable (grammar : Grammar) (disk : Disk) (root : String) : Prop where
  rooted : ∃ path real, disk.expand? (.ofString root) = some path ∧ disk.realPath path = .ok real ∧
    disk.isPresent real = .ok true
  loopless : ∀ found, Discovery.find disk root = .ok found →
    ∀ file ∈ found.files, ∃ path, disk.realPath file = .ok path
  answered : ∀ found, Discovery.find disk root = .ok found →
    ∀ path ∈ reached grammar disk found.files, ∀ m, Module.load grammar disk path = .ok m →
      ∀ source ∈ m.sources, ∀ tried e, ¬ModuleLink.Stops disk path source tried e

theorem Viable.linked {grammar : Grammar} {disk : Disk} {root : String} (h : Viable grammar disk root)
    {found : Discovery.Found} (hfound : Discovery.find disk root = .ok found) :
    ∀ path ∈ reached grammar disk found.files, Linked grammar disk path := by
  intro path hpath m hload
  rw [Module.exists_links_iff, Module.path_of_load hload]
  exact h.answered found hfound path hpath m hload

theorem viable_of_explore {grammar : Grammar} {disk : Disk} {root : String} {run : Run}
    (hrun : explore grammar disk root = .ok run) : Viable grammar disk root := by
  obtain ⟨found, hfound, hexplores⟩ := explores_of_explore hrun
  obtain ⟨found', hfound', hleast⟩ := explore_isLeast hrun
  obtain rfl : found = found' := Except.ok.inj (hfound.symm.trans hfound')
  constructor
  · exact Discovery.exists_find_iff.mp ⟨found, hfound⟩
  · intro found' hfound' file hfile
    obtain rfl := Except.ok.inj (hfound.symm.trans hfound')
    obtain ⟨path, hpath⟩ := hexplores.exists_realPath (List.mem_map_of_mem hfile)
    exact ⟨path, hpath⟩
  · intro found' hfound' path hpath m hload
    obtain rfl := Except.ok.inj (hfound.symm.trans hfound')
    have hlinked := hexplores.linked_of_visited (hpath _ hleast.1) (by simp [Run.start, Run.empty])
    rw [← Module.path_of_load hload]
    exact Module.exists_links_iff.mp (hlinked m hload)

-- An analysis comes to an end just when these conditions hold, and fails in no other ways than those
-- above; a single specifier is resolved unless it is an error to ask for a path that is tried. Calls
-- are taken to nest as deeply as the modules and their trees need.
theorem analyze_succeeds_iff_viable (grammar : Grammar) (disk : Disk) (root : String) :
    ((∃ result, analyze grammar disk root = .ok result) ↔ Viable grammar disk root) ∧
    (∀ failure, analyze grammar disk root = .error failure → CanFail disk root failure) ∧
    ∀ importer specifier, (∃ path, ModuleLink.resolve? disk importer specifier = .ok path) ↔
      ∀ tried e, ¬ModuleLink.Stops disk importer specifier tried e := by
  refine ⟨⟨?_, ?_⟩, ?_, fun _ _ => ModuleLink.exists_resolve?_iff⟩
  · rintro ⟨result, h⟩
    obtain ⟨run, hrun, -⟩ := Except.map_eq_ok.mp h
    exact viable_of_explore hrun
  · intro hviable
    obtain ⟨found, hfound⟩ := Discovery.exists_find_iff.mpr hviable.rooted
    obtain ⟨run, hrun⟩ := exists_explore_of_closed hfound (closed_reached _ _ _)
      (hviable.linked hfound) (hviable.loopless found hfound)
    exact ⟨run.result, Except.map_eq_ok.mpr ⟨run, hrun, rfl⟩⟩
  · intro failure h
    have h := Except.map_eq_error.mp h
    unfold explore at h
    split at h
    · rename_i e hfound
      cases h
      exact Discovery.canFail_of_find hfound
    · obtain ⟨run, file, -, hfails⟩ := List.exists_of_foldlM_eq_error h
      exact Run.canFail_of_visit hfails root

-- A directory with nothing in it but a link to itself.
namespace Circle

def disk : Disk :=
  ⟨.dir .full [("a.js", .link "a.js")], [], []⟩

def link : Path :=
  .absolute ["a.js"]

theorem follow_eq : disk.top.follow Entry.linkLimit [] ["a.js"] = .error .tooManyLinks :=
  Entry.follow_self rfl rfl (by decide) (by decide) rfl rfl rfl Entry.linkLimit []

theorem realPath_eq : disk.realPath link = .error ⟨link⟩ := by
  have hstat : disk.stat link = .error .tooManyLinks := by
    rw [Disk.stat, if_neg (by decide +kernel), show disk.names link = ["a.js"] from rfl, follow_eq]
  have hreal : Path.absolute (disk.top.settleWithin disk.top.linkCount [] [] [.pass "a.js"]) = link := rfl
  rw [Disk.realPath, show (disk.names link).map Entry.Step.pass = [.pass "a.js"] from rfl]
  simp only [hreal, hstat]

theorem find_eq : Discovery.find disk "/" = .ok ⟨[link], []⟩ := by
  have hlink : Discovery.ofEntry disk.top Entry.linkLimit [] link
      (Discovery.scanWithin disk.top 39 link) = ⟨[link], []⟩ := by
    rw [Discovery.ofEntry, if_neg (by decide +kernel), show link.name = "a.js" from rfl, follow_eq]
    rfl
  calc
    Discovery.find disk "/" = .ok (.inOrder [("a.js", Discovery.ofEntry disk.top Entry.linkLimit [] link
        (Discovery.scanWithin disk.top 39 link))]) := rfl
    _ = .ok ⟨[link], []⟩ := by
      rw [hlink, Discovery.Found.inOrder, List.mergeSort_singleton]
      rfl

theorem analyze_eq (grammar : Grammar) : analyze grammar disk "/" = .error (.loop ⟨link⟩) := by
  rw [analyze, explore, find_eq]
  simp only [List.foldlM_cons]
  rw [Run.visit.eq_def, realPath_eq]
  rfl

end Circle

theorem analyze_succeeds_iff_viable_barrels :
    (∃ result, analyze Barrels.grammar Barrels.disk "/a.js" = .ok result) ∧
      Viable Barrels.grammar Barrels.disk "/a.js" ∧ ¬Viable Barrels.grammar Circle.disk "/" := by
  have hfiles : (analyze Barrels.grammar Barrels.disk "/a.js").toOption.map
      (·.diagnostics.filesAnalyzed) = some ["/a.js", "/b.js", "/c.js"] := by decide +kernel
  obtain ⟨result, hresult, -⟩ := Except.exists_of_toOption_map hfiles
  refine ⟨⟨result, hresult⟩, (analyze_succeeds_iff_viable _ _ _).1.mp ⟨result, hresult⟩, ?_⟩
  intro hviable
  obtain ⟨result, hresult⟩ := (analyze_succeeds_iff_viable _ _ _).1.mpr hviable
  rw [Circle.analyze_eq] at hresult
  cases hresult

-- A directory with the name of a user that nobody knows, and one that may not be searched.
def Refusing.disk : Disk :=
  ⟨.dir .full [("~nobody", .dir .full []), ("locked", .dir ⟨false, false⟩ [])], [], []⟩

-- Roots that are there and can be listed, but cannot be analysed, and a specifier that cannot be resolved.
theorem analyze_fails_under_present_root :
    Circle.disk.isPresent (.ofString "/") = .ok true ∧
      (∀ grammar, analyze grammar Circle.disk "/" = .error (.loop ⟨.absolute ["a.js"]⟩)) ∧
      Refusing.disk.isPresent (.ofString "~nobody") = .ok true ∧
      (∀ grammar, analyze grammar Refusing.disk "~nobody" = .error .homeless) ∧
      ModuleLink.resolve? Refusing.disk (.absolute ["a.js"]) "./locked/b" =
        .error (.file .notPermitted (.absolute ["locked", "b.tsx"])) := by
  refine ⟨by decide +kernel, Circle.analyze_eq, by decide +kernel, ?_, by decide +kernel⟩
  intro grammar
  have hpath : Refusing.disk.expand? (.ofString "~nobody") = none := by decide +kernel
  simp only [analyze, explore, Discovery.find, hpath]
  rfl

end PropFlow
