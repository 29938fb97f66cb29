import PropFlow.Proofs.FileTree.Outline

namespace PropFlow

namespace Entry

-- Entries of one sort. Links of one sort have one target, and directories one access.
def Alike : Entry → Entry → Prop
  | .file _, .file _ => True
  | .link target, .link other => target = other
  | .dir access _, .dir other _ => access = other
  | _, _ => False

theorem Alike.refl (entry : Entry) : Alike entry entry := by
  cases entry <;> simp [Alike]

-- A tree with more in it: whatever the first one has is there, and of the same sort.
def Grows (top grown : Entry) : Prop :=
  ∀ names entry, top.search? names = some entry →
    ∃ other, grown.search? names = some other ∧ Alike entry other

section Grows

variable {top grown : Entry}

theorem Grows.dir (h : Grows top grown) {names : List String} {access : Access}
    {entries : List (String × Entry)} (hdir : top.search? names = some (.dir access entries)) :
    ∃ entries, grown.search? names = some (.dir access entries) := by
  obtain ⟨other, hother, halike⟩ := h names _ hdir
  cases other with
  | dir access' entries =>
      obtain rfl : access = access' := halike
      exact ⟨entries, hother⟩
  | file bytes => cases halike
  | link target => cases halike

theorem descend_grows (hgrows : Grows top grown) {budget : Nat}
    {jump jump' : List String → List String → Except FileError Place}
    (hjump : ∀ here names place, jump here names = .ok place →
      ∃ entry, jump' here names = .ok ⟨place.names, entry, place.budget⟩)
    {here names : List String} {place : Place} (h : descend top budget jump here names = .ok place) :
    ∃ entry, descend grown budget jump' here names = .ok ⟨place.names, entry, place.budget⟩ := by
  induction names generalizing here with
  | nil =>
      simp only [descend] at h ⊢
      split at h
      · rename_i entry hentry
        cases h
        obtain ⟨other, hother, -⟩ := hgrows here entry hentry
        rw [hother]
        exact ⟨other, rfl⟩
      · cases h
  | cons name rest ih =>
      simp only [descend] at h ⊢
      split at h
      · cases h
      · rename_i access entries hdir
        obtain ⟨entries', hdir'⟩ := hgrows.dir hdir
        simp only [hdir']
        by_cases hempty : name = ""
        · rw [if_pos hempty] at h ⊢
          exact ih h
        rw [if_neg hempty] at h ⊢
        split at h
        · cases h
        rename_i hclosed
        rw [if_neg hclosed]
        have hopen := Bool.of_not_eq_false hclosed
        have hchild := search?_child hdir hopen name
        have hchild' := search?_child hdir' hopen name
        by_cases hdot : name = "."
        · rw [if_pos hdot] at h ⊢
          exact ih h
        rw [if_neg hdot] at h ⊢
        by_cases hup : name = ".."
        · rw [if_pos hup] at h ⊢
          exact ih h
        rw [if_neg hup] at h ⊢
        split at h
        · cases h
        rename_i hlong
        rw [if_neg hlong]
        cases hentry : entries.lookup name with
        | none =>
            rw [hentry] at h
            cases h
        | some entry =>
            obtain ⟨other, hother, halike⟩ := hgrows _ entry (hchild.trans hentry)
            rw [hchild'] at hother
            rw [hentry] at h
            rw [hother]
            cases entry <;> cases other <;> cases halike
            · exact ih h
            · exact hjump _ _ _ h
            · exact ih h
      · cases h

-- In a tree with more in it a look-up still ends where it did.
theorem follow_grows (hgrows : Grows top grown) {budget : Nat} {here names : List String} {place : Place}
    (h : top.follow budget here names = .ok place) :
    ∃ entry, grown.follow budget here names = .ok ⟨place.names, entry, place.budget⟩ := by
  induction budget generalizing here names place with
  | zero =>
      rw [follow] at h ⊢
      exact descend_grows hgrows (fun _ _ _ h => by cases h) h
  | succ budget ih =>
      rw [follow] at h ⊢
      exact descend_grows hgrows (fun _ _ _ h => ih h) h

end Grows

section Put

-- What is put into a directory that is searchable is found there.
theorem search?_put_self {top : Entry} {folder : List String} {access : Access}
    {entries : List (String × Entry)} (hfolder : top.search? folder = some (.dir access entries))
    (hopen : access.searchable = true) (new : Entry) (name : String) :
    (top.put new (folder ++ [name])).search? (folder ++ [name]) = some new := by
  induction folder generalizing top with
  | nil =>
      obtain rfl : top = .dir access entries := by simpa [search?] using hfolder
      rw [List.nil_append, put, put, search?, if_pos hopen, lookup_putEntry_self]
      simp [search?]
  | cons first rest ih =>
      obtain ⟨access', entries', child, rfl, hopen', hchild, hrest⟩ := exists_dir_of_search? hfolder
      rw [List.cons_append, put, hchild, Option.getD_some, search?, if_pos hopen', lookup_putEntry_self]
      exact ih hrest

-- A file that is put into a directory takes the place of a file or of nothing.
theorem grows_put {top : Entry} {folder : List String} {name : String} {access : Access}
    {entries : List (String × Entry)} (hfolder : top.search? folder = some (.dir access entries))
    (hname : ∀ entry, entries.lookup name = some entry → ∃ old, entry = .file (some old)) (bytes : List UInt8) :
    Grows top (top.put (.file bytes) (folder ++ [name])) := by
  induction folder generalizing top with
  | nil =>
      obtain rfl : top = .dir access entries := by simpa [search?] using hfolder
      intro names entry hentry
      rw [List.nil_append, put, put]
      cases names with
      | nil =>
          obtain rfl : Entry.dir access entries = entry := by simpa [search?] using hentry
          exact ⟨_, rfl, rfl⟩
      | cons asked rest =>
          obtain ⟨_, _, child, hdir, hopen, hchild, hrest⟩ := exists_dir_of_search? hentry
          cases hdir
          rw [search?, if_pos hopen]
          by_cases hasked : asked = name
          · subst hasked
            rw [lookup_putEntry_self]
            obtain ⟨old, rfl⟩ := hname child hchild
            cases rest with
            | nil =>
                obtain rfl : Entry.file old = entry := by simpa [search?] using hrest
                exact ⟨.file bytes, rfl, trivial⟩
            | cons => cases hrest
          · rw [lookup_putEntry_of_ne hasked, hchild]
            exact ⟨entry, hrest, .refl entry⟩
  | cons first rest ih =>
      obtain ⟨access', entries', child, rfl, hopen', hchild, hrest⟩ := exists_dir_of_search? hfolder
      intro names entry hentry
      rw [List.cons_append, put, hchild, Option.getD_some]
      cases names with
      | nil =>
          obtain rfl : Entry.dir access' entries' = entry := by simpa [search?] using hentry
          exact ⟨_, rfl, rfl⟩
      | cons asked after =>
          rw [search?, if_pos hopen'] at hentry ⊢
          by_cases hasked : asked = first
          · subst hasked
            rw [hchild] at hentry
            rw [lookup_putEntry_self]
            exact ih hrest after entry hentry
          · rw [lookup_putEntry_of_ne hasked]
            exact ⟨entry, hentry, .refl entry⟩

theorem outlineAll_putEntry_congr {entry other : Entry} (h : entry.outline = other.outline) (name : String)
    (entries : List (String × Entry)) :
    outlineAll (putEntry name entry entries) = outlineAll (putEntry name other entries) := by
  induction entries with
  | nil => simp only [putEntry, outlineAll, h]
  | cons first rest ih =>
      obtain ⟨asked, old⟩ := first
      by_cases hasked : asked = name
      · simp only [putEntry, if_pos hasked, outlineAll, h]
      · simp only [putEntry, if_neg hasked, outlineAll, ih]

theorem outline_put_congr (top : Entry) (names : List String) (bytes other : List UInt8) :
    (top.put (.file bytes) names).outline = (top.put (.file other) names).outline := by
  induction names generalizing top with
  | nil => rfl
  | cons name rest ih =>
      cases top with
      | dir access entries => simp only [put, outline, outlineAll_putEntry_congr (ih _)]
      | file bytes => simp only [put, outline, outlineAll, ih]
      | link target => simp only [put, outline, outlineAll, ih]

end Put

section Creation

variable {top grown : Entry} {links : Nat} {here names place : List String}

theorem grows_of_creationPlace (h : top.creationPlace links here names = .ok place) (bytes : List UInt8) :
    Grows top (top.put (.file bytes) place) := by
  induction links generalizing here names with
  | zero => cases h
  | succ links ih =>
      obtain ⟨front, name, folder, _, entries, _, rfl, hfolder, -, -, -, hcase⟩ := creationPlace_eq_ok_iff.mp h
      rcases hcase with ⟨target, -, hnext⟩ | ⟨rfl, hfile⟩
      · exact ih hnext
      · exact grows_put (search?_of_follow hfolder) hfile bytes

theorem search?_put_creationPlace (h : top.creationPlace links here names = .ok place) (new : Entry) :
    (top.put new place).search? place = some new := by
  induction links generalizing here names with
  | zero => cases h
  | succ links ih =>
      obtain ⟨front, name, folder, _, entries, _, rfl, hfolder, hopen, -, -, hcase⟩ :=
        creationPlace_eq_ok_iff.mp h
      rcases hcase with ⟨target, -, hnext⟩ | ⟨rfl, -⟩
      · exact ih hnext
      · exact search?_put_self (search?_of_follow hfolder) hopen new name

-- Directories are still directories in a tree with more in it.
theorem follow_grows_dir (hgrows : Grows top grown) {budget left : Nat} {folder : List String}
    {access : Access} {entries : List (String × Entry)}
    (h : top.follow budget here names = .ok ⟨folder, .dir access entries, left⟩) :
    ∃ entries', grown.follow budget here names = .ok ⟨folder, .dir access entries', left⟩ := by
  obtain ⟨entry, hentry⟩ := follow_grows hgrows h
  obtain ⟨entries', hdir⟩ := hgrows.dir (search?_of_follow h)
  have hfound : grown.search? folder = some entry := search?_of_follow hentry
  obtain rfl := Option.some.inj (hdir.symm.trans hfound)
  exact ⟨entries', hentry⟩

-- With a file there, the next one is written in its place.
theorem creationPlace_grows (hgrows : Grows top grown) {bytes : List UInt8}
    (hplace : grown.search? place = some (.file bytes)) (h : top.creationPlace links here names = .ok place) :
    grown.creationPlace links here names = .ok place := by
  induction links generalizing here names with
  | zero => cases h
  | succ links ih =>
      obtain ⟨front, name, folder, access, entries, budget, rfl, hfolder, hopen, hname, hshort, hcase⟩ :=
        creationPlace_eq_ok_iff.mp h
      obtain ⟨entries', hentry⟩ := follow_grows_dir hgrows hfolder
      have hchild := search?_child (search?_of_follow hentry) hopen name
      refine creationPlace_eq_ok_iff.mpr
        ⟨front, name, folder, access, entries', budget, rfl, hentry, hopen, hname, hshort, ?_⟩
      rcases hcase with ⟨target, hlink, hnext⟩ | ⟨rfl, -⟩
      · have hthere := (search?_child (search?_of_follow hfolder) hopen name).trans hlink
        obtain ⟨other, hother, halike⟩ := hgrows _ _ hthere
        cases other with
        | link target' =>
            obtain rfl : target = target' := halike
            exact .inl ⟨target, hchild.symm.trans hother, ih hnext⟩
        | file bytes => cases halike
        | dir access entries => cases halike
      · refine .inr ⟨rfl, fun entry hentry => ⟨bytes, ?_⟩⟩
        rw [← hchild, hplace] at hentry
        exact (Option.some.inj hentry).symm

end Creation

end Entry

namespace Disk

-- A file can be kept at a path: an empty one that is written there, once the directories above it are
-- made, is found again.
structure Admits (disk : Disk) (path : Path) : Prop where
  named : path.parts ≠ []
  writes : ∃ made blank, disk.makeDir path.parent = .ok made ∧ made.write path [] = .ok blank ∧
    blank.isFile path = .ok true

theorem names_parent (disk : Disk) {path : Path} (h : path.parts ≠ []) :
    disk.names path.parent = (disk.names path).dropLast := by
  have hanchor : path.parent.isAbsolute = path.isAbsolute := rfl
  have hparts : path.parent.parts = path.parts.dropLast := rfl
  rw [names, names, hanchor, hparts]
  by_cases habsolute : path.isAbsolute = true
  · rw [if_pos habsolute, if_pos habsolute]
  · rw [if_neg habsolute, if_neg habsolute, List.dropLast_append_of_ne_nil h]

section MakeDir

variable {disk made : Disk} {path : Path}

theorem limit_of_isDir (h : disk.isDir path = .ok true) : path.text.utf8ByteSize ≤ Entry.pathLimit := by
  obtain ⟨place, hstat, -⟩ := Entry.test_eq_true h
  unfold stat at hstat
  split at hstat
  · cases hstat
  · omega

theorem limit_of_makeOne (h : disk.makeOne path = .ok made) : path.text.utf8ByteSize ≤ Entry.pathLimit := by
  unfold makeOne at h
  split at h
  · cases h
  · omega

theorem isDir_of_unlessDir {e : FileError} (h : disk.unlessDir path e = .ok made) :
    disk.isDir path = .ok true := by
  unfold unlessDir at h
  split at h
  · assumption
  · cases h
  · cases h

-- A directory is only made at a path that can be looked up.
theorem limit_of_makeDirWithin {above : Nat} (h : disk.makeDirWithin above path = .ok made) :
    path.text.utf8ByteSize ≤ Entry.pathLimit := by
  have hlast : ∀ {disk : Disk}, disk.makeDirWithin 0 path = .ok made →
      path.text.utf8ByteSize ≤ Entry.pathLimit := by
    intro disk h
    rw [makeDirWithin] at h
    split at h
    · rename_i hone
      exact limit_of_makeOne hone
    · split at h
      · cases h
      · exact limit_of_isDir (isDir_of_unlessDir h)
  cases above with
  | zero => exact hlast h
  | succ above =>
      rw [makeDirWithin] at h
      split at h
      · rename_i hone
        exact limit_of_makeOne hone
      · split at h
        · obtain ⟨_, -, h⟩ := Except.bind_eq_ok.mp h
          exact hlast h
        · exact limit_of_isDir (isDir_of_unlessDir h)

-- What is a directory is not made again, for another reason than that there is nothing above it.
theorem makeOne_of_isDir (h : disk.isDir path = .ok true) :
    ∃ e, disk.makeOne path = .error e ∧ e ≠ .notFound := by
  obtain ⟨place, hstat, -⟩ := Entry.test_eq_true h
  have hfollow := follow_of_stat hstat
  rw [makeOne, if_neg (Nat.not_lt.mpr (limit_of_isDir h))]
  split
  · exact ⟨_, rfl, by decide⟩
  rename_i name hlast
  obtain ⟨front, hnames⟩ := List.getLast?_eq_some_iff.mp hlast
  rw [hnames] at hfollow
  rw [hnames, List.dropLast_concat]
  split
  · rename_i e herror
    rw [Entry.follow_append_error herror] at hfollow
    cases hfollow
  · rename_i folder access entries budget hfolder
    rw [Entry.follow_append hfolder] at hfollow
    split
    · exact ⟨_, rfl, by decide⟩
    rename_i hclosed
    split
    · exact ⟨_, rfl, by decide⟩
    rename_i hname
    split
    · exact ⟨_, rfl, by decide⟩
    rename_i hlong
    split
    · exact ⟨_, rfl, by decide⟩
    rename_i hnone
    obtain ⟨hempty, hdot, hup⟩ : name ≠ "" ∧ name ≠ "." ∧ name ≠ ".." := by simpa using hname
    have hdir := Entry.search?_of_follow hfolder
    cases budget <;>
      simp [Entry.follow, Entry.descend, hdir, hempty, hdot, hup, hclosed, hlong, hnone] at hfollow
  · exact ⟨_, rfl, by decide⟩

theorem makeDir_of_isDir (h : disk.isDir path = .ok true) : disk.makeDir path = .ok disk := by
  obtain ⟨e, hone, hfound⟩ := makeOne_of_isDir h
  unfold makeDir
  cases path.parts.length <;> simp only [makeDirWithin, hone, if_neg hfound, unlessDir, h]

end MakeDir

section Write

variable {disk : Disk} {path : Path} {place : List String} {bytes : List UInt8}

-- What is on the disk after a file has been written at a place.
def withFile (disk : Disk) (place : List String) (bytes : List UInt8) : Disk :=
  { disk with top := disk.top.put (.file bytes) place }

theorem write_eq_ok_iff {written : Disk} :
    disk.write path bytes = .ok written ↔ path.text.utf8ByteSize ≤ Entry.pathLimit ∧
      ∃ place, disk.top.creationPlace (Entry.linkLimit + 1) [] (disk.names path) = .ok place ∧
        disk.withFile place bytes = written := by
  unfold write
  split
  · rename_i hlong
    constructor
    · rintro ⟨⟩
    · rintro ⟨hlimit, -⟩
      omega
  · rename_i hlimit
    rw [Except.map_eq_ok]
    exact ⟨fun h => ⟨Nat.le_of_not_lt hlimit, h⟩, fun h => h.2⟩

theorem creationPlace_withFile
    (hplace : disk.top.creationPlace (Entry.linkLimit + 1) [] (disk.names path) = .ok place) (bytes : List UInt8) :
    (disk.withFile place bytes).top.creationPlace (Entry.linkLimit + 1) [] ((disk.withFile place bytes).names path) =
      .ok place :=
  Entry.creationPlace_grows (Entry.grows_of_creationPlace hplace bytes)
    (Entry.search?_put_creationPlace hplace _) hplace

theorem isFile_withFile (hfile : (disk.withFile place []).isFile path = .ok true) (bytes : List UInt8) :
    (disk.withFile place bytes).isFile path = .ok true := by
  have houtline : (disk.withFile place bytes).outline = (disk.withFile place []).outline := by
    unfold withFile outline
    dsimp only
    rw [Entry.outline_put_congr]
  rw [← isFile_outline, houtline, isFile_outline, hfile]

-- A look-up ends where the file was written.
theorem read_withFile (hplace : disk.top.creationPlace (Entry.linkLimit + 1) [] (disk.names path) = .ok place)
    (hfile : (disk.withFile place bytes).isFile path = .ok true) :
    (disk.withFile place bytes).read path = .ok bytes := by
  obtain ⟨found, _, hstat, -⟩ := stat_of_isFile hfile
  have hfollow := follow_of_stat hstat
  obtain ⟨-, cost, hleads⟩ := Entry.leads_of_follow (.nil _) hfollow
  obtain ⟨cost', hcreated⟩ := Entry.leads_of_creationPlace (.nil _) (creationPlace_withFile hplace bytes)
  obtain ⟨-, rfl⟩ := hcreated.unique hleads
  have hput := Entry.search?_put_creationPlace hplace (.file bytes)
  have hsame := Option.some.inj (hput.symm.trans (Entry.search?_of_follow hfollow))
  obtain ⟨names, entry, budget⟩ := found
  subst hsame
  rw [read, hstat]

-- The directory that a file was written in is there.
theorem makeDir_withFile (hnamed : path.parts ≠ [])
    (hlimit : path.parent.text.utf8ByteSize ≤ Entry.pathLimit)
    (hplace : disk.top.creationPlace (Entry.linkLimit + 1) [] (disk.names path) = .ok place) (bytes : List UInt8) :
    (disk.withFile place bytes).makeDir path.parent = .ok (disk.withFile place bytes) := by
  obtain ⟨front, name, folder, _, entries, _, hnames, hfolder, -⟩ := Entry.creationPlace_eq_ok_iff.mp hplace
  obtain ⟨entries', hentry⟩ := Entry.follow_grows_dir (Entry.grows_of_creationPlace hplace bytes) hfolder
  have hparent : (disk.withFile place bytes).names path.parent = front := by
    rw [names_parent _ hnamed]
    exact (congrArg List.dropLast hnames).trans List.dropLast_concat
  have htop : (disk.withFile place bytes).top = disk.top.put (.file bytes) place := rfl
  apply makeDir_of_isDir
  rw [isDir, stat, if_neg (Nat.not_lt.mpr hlimit), hparent, htop, hentry]
  rfl

end Write

-- What is kept at a path is read there, and something else can be kept there again.
theorem Admits.write {disk : Disk} {path : Path} (h : disk.Admits path) (bytes : List UInt8) :
    ∃ made kept, disk.makeDir path.parent = .ok made ∧ made.write path bytes = .ok kept ∧
      kept.read path = .ok bytes ∧ kept.Admits path := by
  obtain ⟨hnamed, made, blank, hmade, hwrite, hfile⟩ := h
  obtain ⟨hlimit, place, hplace, rfl⟩ := write_eq_ok_iff.mp hwrite
  have hkept := isFile_withFile hfile bytes
  refine ⟨made, _, hmade, write_eq_ok_iff.mpr ⟨hlimit, place, hplace, rfl⟩, read_withFile hplace hkept, hnamed,
    made.withFile place bytes, (made.withFile place bytes).withFile place [], ?_, ?_, ?_⟩
  · exact makeDir_withFile hnamed (limit_of_makeDirWithin hmade) hplace bytes
  · exact write_eq_ok_iff.mpr ⟨hlimit, place, creationPlace_withFile hplace bytes, rfl⟩
  · have hget := Entry.get?_of_search? (Entry.search?_put_creationPlace hplace (.file bytes))
    have houtline : ((made.withFile place bytes).withFile place []).outline =
        (made.withFile place bytes).outline := by
      unfold outline
      rw [withFile, withFile, Entry.outline_put hget]
    rw [← isFile_outline, houtline, isFile_outline, hkept]

end Disk

end PropFlow
