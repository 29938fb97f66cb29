import PropFlow.Proofs.FileTree.Names

namespace PropFlow

namespace Entry

mutual
-- The names of all entries in a tree.
def allNames : Entry → List String
  | .file _ => []
  | .link _ => []
  | .dir _ entries => allNamesIn entries

def allNamesIn : List (String × Entry) → List String
  | [] => []
  | (name, entry) :: rest => name :: (allNames entry ++ allNamesIn rest)
end

theorem allNames_subset_of_mem {entries : List (String × Entry)} {name : String} {entry : Entry}
    (h : (name, entry) ∈ entries) : name :: entry.allNames ⊆ allNamesIn entries := by
  induction entries with
  | nil => cases h
  | cons first rest ih =>
      obtain ⟨other, old⟩ := first
      rw [allNamesIn]
      cases h with
      | head => exact List.cons_subset_cons name (List.subset_append_left _ _)
      | tail _ h =>
          have hrest := List.Subset.trans (ih h) (List.subset_append_right old.allNames _)
          exact List.Subset.trans hrest (List.subset_cons_self _ _)

theorem forall_mem_allNamesIn_cons {name : String} {entry : Entry} {rest : List (String × Entry)}
    {P : String → Prop} : (∀ other ∈ allNamesIn ((name, entry) :: rest), P other) ↔
      P name ∧ (∀ other ∈ entry.allNames, P other) ∧ ∀ other ∈ allNamesIn rest, P other := by
  simp only [allNamesIn, List.forall_mem_cons, List.forall_mem_append]

theorem append_allNames_subset_of_get? {top entry : Entry} {names : List String}
    (h : top.get? names = some entry) : names ++ entry.allNames ⊆ top.allNames := by
  induction names generalizing top with
  | nil =>
      obtain rfl : top = entry := by simpa [get?] using h
      exact List.Subset.refl _
  | cons name rest ih =>
      cases top with
      | file => simp [get?] at h
      | link => simp [get?] at h
      | dir listable entries =>
          rw [get?] at h
          split at h
          · rename_i child hchild
            obtain ⟨before, after, hentries, -⟩ := List.lookup_eq_some_iff.mp hchild
            have hmem : (name, child) ∈ entries := by simp [hentries]
            exact List.Subset.trans (List.cons_subset_cons name (ih h)) (allNames_subset_of_mem hmem)
          · cases h

end Entry

-- No name on the disk has a slash in it.
def Disk.WellNamed (disk : Disk) : Prop :=
  ∀ name ∈ disk.cwd ++ disk.top.allNames, Slashless name

instance (disk : Disk) : Decidable disk.WellNamed :=
  inferInstanceAs (Decidable (∀ _ ∈ _, _))

namespace Discovery

theorem Found.mem_files_inOrder {founds : List (String × Found)} {file : Path} :
    file ∈ (inOrder founds).files ↔ ∃ found ∈ founds, file ∈ found.2.files := by
  simp only [inOrder, concat, List.mem_flatMap, List.mem_map, List.mem_mergeSort]
  constructor
  · rintro ⟨_, ⟨found, hfound, rfl⟩, hfile⟩
    exact ⟨found, hfound, hfile⟩
  · rintro ⟨found, hfound, hfile⟩
    exact ⟨_, ⟨found, hfound, rfl⟩, hfile⟩

theorem mem_files_ofFile {path file : Path} (h : file ∈ (ofFile path).files) : file = path := by
  unfold ofFile at h
  split at h
  · simpa using h
  · cases h

theorem slashless_child {path : Path} {name : String} (h : ∀ part ∈ path.parts, Slashless part)
    (hname : Slashless name) : ∀ part ∈ (path.child name).parts, Slashless part := by
  intro part hpart
  rcases List.mem_append.mp hpart with hpart | hpart
  · exact h part hpart
  · rwa [List.mem_singleton.mp hpart]

-- A search whose files are made of names without slashes, wherever in the tree it starts.
def NamesOnly (top : Entry) (jump : Path → Entry.Place → Found) : Prop :=
  ∀ path place, (∀ part ∈ path.parts, Slashless part) → top.get? place.names = some place.entry →
    ∀ file ∈ (jump path place).files, ∀ part ∈ file.parts, Slashless part

section Scan

variable {top : Entry} {budget : Nat} {jump : Path → Entry.Place → Found}

theorem ofEntry_slashless {here : List String} {path file : Path} {inside : Entry.Place → Found}
    (hpath : ∀ part ∈ path.parts, Slashless part)
    (hinside : ∀ place, top.get? place.names = some place.entry → file ∈ (inside place).files →
      ∀ part ∈ file.parts, Slashless part)
    (h : file ∈ (ofEntry top budget here path inside).files) :
    ∀ part ∈ file.parts, Slashless part := by
  unfold ofEntry at h
  split at h
  · cases h
  split at h
  · rename_i place hplace
    split at h
    · split at h
      · cases h
      · exact hinside place (Entry.get?_of_search? (Entry.search?_of_follow hplace)) h
    · rwa [mem_files_ofFile h]
  · split at h
    · rwa [mem_files_ofFile h]
    · cases h

mutual
theorem scan_slashless (hjump : NamesOnly top jump) : (entry : Entry) → (path : Path) →
    (here : List String) → (∀ part ∈ path.parts, Slashless part) →
    (∀ name ∈ entry.allNames, Slashless name) →
    ∀ file ∈ (scan top budget jump path here entry).files, ∀ part ∈ file.parts, Slashless part
  | .file _, _, _, _, _, _, hfile => by cases hfile
  | .link _, _, _, _, _, _, hfile => by cases hfile
  | .dir access entries, path, here, hpath, hnames, file, hfile => by
    rw [scan] at hfile
    split at hfile
    · rw [Found.mem_files_inOrder] at hfile
      obtain ⟨found, hfound, hfile⟩ := hfile
      exact scanAll_slashless hjump entries path here hpath hnames found hfound file hfile
    · cases hfile

theorem scanAll_slashless (hjump : NamesOnly top jump) : (entries : List (String × Entry)) →
    (path : Path) → (here : List String) → (∀ part ∈ path.parts, Slashless part) →
    (∀ name ∈ Entry.allNamesIn entries, Slashless name) →
    ∀ found ∈ scanAll top budget jump path here entries,
      ∀ file ∈ found.2.files, ∀ part ∈ file.parts, Slashless part
  | [], _, _, _, _, _, hfound => by cases hfound
  | (name, .file bytes) :: rest, path, here, hpath, hnames, found, hfound => by
    obtain ⟨hname, -, hrest⟩ := Entry.forall_mem_allNamesIn_cons.mp hnames
    have hchild := slashless_child hpath hname
    rw [scanAll] at hfound
    rcases List.mem_cons.mp hfound with rfl | hfound
    · intro file hfile
      exact ofEntry_slashless hchild (fun place hplace => hjump _ place hchild hplace file) hfile
    · exact scanAll_slashless hjump rest path here hpath hrest found hfound
  | (name, .link target) :: rest, path, here, hpath, hnames, found, hfound => by
    obtain ⟨hname, -, hrest⟩ := Entry.forall_mem_allNamesIn_cons.mp hnames
    have hchild := slashless_child hpath hname
    rw [scanAll] at hfound
    rcases List.mem_cons.mp hfound with rfl | hfound
    · intro file hfile
      exact ofEntry_slashless hchild (fun place hplace => hjump _ place hchild hplace file) hfile
    · exact scanAll_slashless hjump rest path here hpath hrest found hfound
  | (name, .dir access entries) :: rest, path, here, hpath, hnames, found, hfound => by
    obtain ⟨hname, hentries, hrest⟩ := Entry.forall_mem_allNamesIn_cons.mp hnames
    have hchild := slashless_child hpath hname
    rw [scanAll] at hfound
    rcases List.mem_cons.mp hfound with rfl | hfound
    · intro file hfile
      refine ofEntry_slashless hchild (fun _ _ hinside => ?_) hfile
      exact scan_slashless hjump (.dir access entries) (path.child name) _ hchild hentries file hinside
    · exact scanAll_slashless hjump rest path here hpath hrest found hfound
end

end Scan

theorem scanWithin_namesOnly {top : Entry} (htop : ∀ name ∈ top.allNames, Slashless name)
    (jumps : Nat) : NamesOnly top (scanWithin top jumps) := by
  induction jumps with
  | zero =>
      intro path place hpath hplace
      have hnames := fun name hname =>
        htop name (Entry.append_allNames_subset_of_get? hplace (List.mem_append_right _ hname))
      rw [scanWithin]
      refine scan_slashless ?_ place.entry path place.names hpath hnames
      intro _ _ _ _ file hfile
      cases hfile
  | succ jumps ih =>
      intro path place hpath hplace
      have hnames := fun name hname =>
        htop name (Entry.append_allNames_subset_of_get? hplace (List.mem_append_right _ hname))
      rw [scanWithin]
      exact scan_slashless ih place.entry path place.names hpath hnames

-- Home directories are made of names as well.
theorem slashless_expand? {disk : Disk} {path expanded : Path} (h : disk.expand? path = some expanded)
    (hpath : ∀ part ∈ path.parts, Slashless part) : ∀ part ∈ expanded.parts, Slashless part := by
  unfold Disk.expand? at h
  split at h
  · rename_i first rest
    split at h
    · obtain ⟨base, hbase, rfl⟩ := Option.map_eq_some_iff.mp h
      obtain ⟨home, -, hhome⟩ := Option.bind_eq_some_iff.mp hbase
      have hparts : ∀ part ∈ base.parts, Slashless part := by
        simp only [homePath?] at hhome
        split at hhome
        · cases hhome
        split at hhome
        · cases hhome
          exact List.forall_mem_nil _
        · cases hhome
          exact fun part hpart => Path.slashless_ofString hpart
      exact List.forall_mem_append.mpr ⟨hparts, (List.forall_mem_cons.mp hpath).2⟩
    · cases h
      exact hpath
  · cases h
    exact hpath

-- The files found on a disk are made of names without slashes.
theorem find_slashless {disk : Disk} (hdisk : disk.WellNamed) {root : String} {found : Found}
    (h : find disk root = .ok found) {file : Path} (hfile : file ∈ found.files) :
    ∀ name ∈ disk.names file, Slashless name := by
  have hnames : ∀ path : Path, (∀ part ∈ path.parts, Slashless part) →
      ∀ name ∈ disk.names path, Slashless name := by
    intro path hpath name hname
    unfold Disk.names at hname
    split at hname
    · exact hpath name hname
    · rcases List.mem_append.mp hname with hname | hname
      · exact hdisk name (List.mem_append_left _ hname)
      · exact hpath name hname
  unfold find at h
  split at h
  · cases h
  rename_i path hpath
  split at h
  · cases h
  rename_i real hreal
  obtain ⟨names, rfl, hparts⟩ := Disk.realPath_isRealName hreal
    (hnames _ (slashless_expand? hpath fun part hpart => Path.slashless_ofString hpart))
  have hslash : ∀ part ∈ (Path.absolute names).parts, Slashless part :=
    fun part hpart => (hparts part hpart).2
  apply hnames
  unfold findAt at h
  split at h
  · rename_i place hplace
    split at h
    · cases h
      have hplace : disk.top.get? place.names = some place.entry := by
        unfold Disk.stat at hplace
        split at hplace
        · cases hplace
        · exact Entry.get?_of_search? (Entry.search?_of_follow hplace)
      have htop : ∀ name ∈ disk.top.allNames, Slashless name :=
        fun name hname => hdisk name (List.mem_append_right _ hname)
      exact scanWithin_namesOnly htop _ _ place hslash hplace file hfile
    · cases h
      rwa [List.mem_singleton.mp hfile]
  · split at h <;> cases h

end Discovery

end PropFlow
