import PropFlow.Proofs.Except
import PropFlow.Proofs.FileTree.RealPath

namespace PropFlow

namespace Entry

mutual
-- A tree without what is in its files, and whether they may be read.
def outline : Entry → Entry
  | .file _ => .file (some [])
  | .link target => .link target
  | .dir access entries => .dir access (outlineAll entries)

def outlineAll : List (String × Entry) → List (String × Entry)
  | [] => []
  | (name, entry) :: rest => (name, outline entry) :: outlineAll rest
end

def Place.outline (place : Place) : Place :=
  { place with entry := place.entry.outline }

theorem Place.sortDir_outline (place : Place) : place.outline.entry.sortDir = place.entry.sortDir := by
  rw [outline]
  cases place.entry <;> rfl

theorem lookup_outlineAll (name : String) (entries : List (String × Entry)) :
    (outlineAll entries).lookup name = (entries.lookup name).map outline := by
  induction entries with
  | nil => rfl
  | cons first rest ih =>
      obtain ⟨other, entry⟩ := first
      rw [outlineAll, List.lookup_cons, List.lookup_cons, ih]
      cases name == other <;> rfl

theorem search?_outline (top : Entry) (names : List String) :
    top.outline.search? names = (top.search? names).map outline := by
  induction names generalizing top with
  | nil => simp [search?]
  | cons name rest ih =>
      cases top with
      | file bytes => rfl
      | link target => rfl
      | dir access entries =>
          simp only [outline, search?, lookup_outlineAll]
          split
          · cases entries.lookup name with
            | none => rfl
            | some entry => exact ih entry
          · rfl

theorem descend_outline (top : Entry) (budget : Nat)
    {jump jump' : List String → List String → Except FileError Place}
    (hjump : ∀ here names, jump' here names = (jump here names).map Place.outline)
    (here names : List String) :
    top.outline.descend budget jump' here names =
      (top.descend budget jump here names).map Place.outline := by
  induction names generalizing here with
  | nil =>
      simp only [descend, search?_outline]
      cases top.search? here <;> rfl
  | cons name rest ih =>
      simp only [descend, search?_outline]
      rcases top.search? here with _ | _ | _ | ⟨access, entries⟩
      · rfl
      · rfl
      · rfl
      · simp only [Option.map_some, outline, lookup_outlineAll, ih, hjump]
        split
        · rfl
        split
        · rfl
        split
        · rfl
        split
        · rfl
        split
        · rfl
        · rcases entries.lookup name with _ | _ | _ | _ <;> rfl

theorem follow_outline (top : Entry) (budget : Nat) (here names : List String) :
    top.outline.follow budget here names = (top.follow budget here names).map Place.outline := by
  induction budget generalizing here names with
  | zero =>
      rw [follow, follow]
      apply descend_outline
      intro _ _
      rfl
  | succ budget ih => exact descend_outline top (budget + 1) ih here names

theorem settle_outline (top : Entry) {jump jump' : Known → List String → List Step → List String}
    (hjump : ∀ known here steps, jump' known here steps = jump known here steps) (known : Known)
    (here : List String) (steps : List Step) :
    top.outline.settle jump' known here steps = top.settle jump known here steps := by
  induction steps generalizing known here with
  | nil => rfl
  | cons step rest ih =>
      cases step with
      | resolved place => simp only [settle, ih]
      | pass name =>
          simp only [settle, search?_outline, ih, hjump]
          rcases top.search? (here ++ [name]) with _ | _ | _ | _ <;> rfl

theorem settleWithin_outline (top : Entry) (links : Nat) (known : Known) (here : List String)
    (steps : List Step) :
    top.outline.settleWithin links known here steps = top.settleWithin links known here steps := by
  induction links generalizing known here steps with
  | zero => exact settle_outline top (fun _ _ _ => rfl) known here steps
  | succ links ih => exact settle_outline top ih known here steps

mutual
theorem linkCount_outline : (entry : Entry) → entry.outline.linkCount = entry.linkCount
  | .file _ => rfl
  | .link _ => rfl
  | .dir _ entries => by rw [outline, linkCount, linkCount, linkCountAll_outlineAll entries]

theorem linkCountAll_outlineAll : (entries : List (String × Entry)) →
    linkCountAll (outlineAll entries) = linkCountAll entries
  | [] => rfl
  | (_, entry) :: rest => by
    rw [outlineAll, linkCountAll, linkCountAll, linkCount_outline entry, linkCountAll_outlineAll rest]
end

section Put

variable {entries : List (String × Entry)} {name : String} {old new : Entry}

theorem outlineAll_putEntry (h : entries.lookup name = some old) (hnew : new.outline = old.outline) :
    outlineAll (putEntry name new entries) = outlineAll entries := by
  induction entries with
  | nil => cases h
  | cons first rest ih =>
      obtain ⟨other, entry⟩ := first
      rw [List.lookup_cons] at h
      by_cases hother : other = name
      · subst hother
        obtain rfl : entry = old := by simpa using h
        simp only [putEntry, if_true, outlineAll, hnew]
      · have hne : (name == other) = false := beq_eq_false_iff_ne.mpr (Ne.symm hother)
        rw [hne] at h
        simp only [putEntry, if_neg hother, outlineAll, ih h]

theorem lookup_putEntry_self (name : String) (new : Entry) (entries : List (String × Entry)) :
    (putEntry name new entries).lookup name = some new := by
  induction entries with
  | nil => simp [putEntry]
  | cons first rest ih =>
      obtain ⟨other, entry⟩ := first
      by_cases hother : other = name
      · simp [putEntry, hother]
      · have hne : (name == other) = false := beq_eq_false_iff_ne.mpr (Ne.symm hother)
        simp only [putEntry, if_neg hother, List.lookup_cons, hne, ih]

theorem lookup_putEntry_of_ne {asked : String} (h : asked ≠ name) :
    (putEntry name new entries).lookup asked = entries.lookup asked := by
  have hasked : (asked == name) = false := beq_eq_false_iff_ne.mpr h
  induction entries with
  | nil => simp [putEntry, List.lookup_cons, hasked]
  | cons first rest ih =>
      obtain ⟨other, entry⟩ := first
      by_cases hother : other = name
      · subst hother
        simp [putEntry, List.lookup_cons, hasked]
      · simp only [putEntry, if_neg hother, List.lookup_cons, ih]

end Put

-- Other contents of a file do not show in the outline, nor in any other file.
theorem outline_put {top : Entry} {names : List String} {old : Option (List UInt8)}
    (h : top.get? names = some (.file old)) (bytes : List UInt8) :
    (top.put (.file bytes) names).outline = top.outline := by
  induction names generalizing top with
  | nil =>
      obtain rfl : top = .file old := by simpa [get?] using h
      rfl
  | cons name rest ih =>
      obtain ⟨access, entries, child, rfl, hchild, hrest⟩ := exists_dir_of_get? h
      rw [put, hchild, Option.getD_some, outline, outlineAll_putEntry hchild (ih hrest), outline]

theorem get?_put_of_ne {top : Entry} {names other : List String} {old kept : Option (List UInt8)}
    (h : top.get? names = some (.file old)) (hother : top.get? other = some (.file kept))
    (hne : other ≠ names) (bytes : List UInt8) :
    (top.put (.file bytes) names).get? other = some (.file kept) := by
  induction names generalizing top other with
  | nil =>
      obtain rfl : top = .file old := by simpa [get?] using h
      cases other with
      | nil => exact absurd rfl hne
      | cons => cases hother
  | cons name rest ih =>
      obtain ⟨access, entries, child, rfl, hchild, hrest⟩ := exists_dir_of_get? h
      cases other with
      | nil => cases hother
      | cons asked after =>
          rw [put, hchild, Option.getD_some, get?]
          rw [get?] at hother
          by_cases hasked : asked = name
          · subst hasked
            rw [hchild] at hother
            rw [lookup_putEntry_self]
            exact ih hrest hother (by simpa using hne)
          · rwa [lookup_putEntry_of_ne hasked]

theorem Leads.trans {top : Entry} {cost cost' : Nat} {here xs mid ys there : List String}
    (h : Leads top cost here xs mid) (h' : Leads top cost' mid ys there) :
    Leads top (cost + cost') here (xs ++ ys) there := by
  induction h with
  | stop here => simpa using h'
  | stay hname _ ih => exact .stay hname (ih h')
  | up _ ih => exact .up (ih h')
  | down hname hlink _ ih => exact .down hname hlink (ih h')
  | @jump cost₁ cost₂ _ _ _ _ _ _ hname hlink htarget _ _ ih =>
      have hall := Leads.jump hname hlink htarget (ih h')
      rwa [show cost₁ + (cost₂ + cost') + 1 = cost₁ + cost₂ + 1 + cost' by omega] at hall

-- A file is written under the last name of its path, in the directory that the other names lead to. A
-- link there says where to go on.
theorem creationPlace_eq_ok_iff {top : Entry} {links : Nat} {here names place : List String} :
    top.creationPlace (links + 1) here names = .ok place ↔
      ∃ front name folder access entries budget, names = front ++ [name] ∧
        top.follow linkLimit here front = .ok ⟨folder, .dir access entries, budget⟩ ∧
        access.searchable = true ∧ IsName name ∧ name.utf8ByteSize ≤ nameLimit ∧
        ((∃ target, entries.lookup name = some (.link target) ∧
            top.creationPlace links (targetStart folder target) (targetNames target) = .ok place) ∨
          place = folder ++ [name] ∧
            ∀ entry, entries.lookup name = some entry → ∃ old, entry = .file (some old)) := by
  constructor
  · intro h
    rw [creationPlace] at h
    split at h
    · cases h
    rename_i name hlast
    obtain ⟨front, rfl⟩ := List.getLast?_eq_some_iff.mp hlast
    rw [List.dropLast_concat] at h
    split at h
    · cases h
    · rename_i folder access entries budget hfolder
      split at h
      · cases h
      rename_i hempty
      split at h
      · cases h
      rename_i hopen
      split at h
      · cases h
      rename_i hsteps
      have hname : IsName name := ⟨hempty, not_or.mp hsteps⟩
      split at h
      · cases h
      rename_i hshort
      refine ⟨front, name, folder, access, entries, budget, rfl, hfolder, Bool.of_not_eq_false hopen, hname,
        by omega, ?_⟩
      split at h
      · cases h
      · cases h
      · rename_i target hlink
        exact .inl ⟨target, hlink, h⟩
      · rename_i hnodir hreadable hnolink
        refine .inr ⟨(Except.ok.inj h).symm, fun entry hentry => ?_⟩
        cases entry with
        | file bytes =>
            cases bytes with
            | none => exact absurd hentry hreadable
            | some old => exact ⟨old, rfl⟩
        | link target => exact absurd hentry (hnolink target)
        | dir access entries => exact absurd hentry (hnodir access entries)
    · cases h
  · rintro ⟨front, name, folder, access, entries, budget, rfl, hfolder, hopen, hname, hshort, hcase⟩
    obtain ⟨hempty, hsteps⟩ := hname
    rw [creationPlace, List.getLast?_concat, List.dropLast_concat]
    simp only [hfolder, hopen, if_neg hempty, if_neg (not_or.mpr hsteps), if_neg (Nat.not_lt.mpr hshort),
      Bool.true_eq_false, if_false]
    rcases hcase with ⟨target, hlink, h⟩ | ⟨rfl, hfile⟩
    · rw [hlink]
      exact h
    · cases hentry : entries.lookup name with
      | none => rfl
      | some entry =>
          obtain ⟨old, rfl⟩ := hfile entry hentry
          rfl

-- A file is written where its path leads.
theorem leads_of_creationPlace {top : Entry} {links : Nat} {here names place : List String}
    (hplain : Plain top here) (h : top.creationPlace links here names = .ok place) :
    ∃ cost, Leads top cost here names place := by
  induction links generalizing here names with
  | zero => cases h
  | succ links ih =>
      obtain ⟨front, name, folder, _, entries, _, rfl, hfolder, hopen, hname, -, hcase⟩ :=
        creationPlace_eq_ok_iff.mp h
      obtain ⟨hplain', cost, hleads⟩ := leads_of_follow hplain hfolder
      have hchild := search?_child (search?_of_follow hfolder) hopen name
      rcases hcase with ⟨target, hlink, hnext⟩ | ⟨rfl, hfile⟩
      · obtain ⟨cost', hrest⟩ := ih (plain_targetStart hplain' target) hnext
        have hjump := Leads.jump hname (hchild.trans hlink) hrest (.stop place)
        exact ⟨_, hleads.trans hjump⟩
      · have hdown : Leads top 0 folder [name] (folder ++ [name]) := by
          refine .down hname ?_ (.stop _)
          intro target htarget
          obtain ⟨old, hold⟩ := hfile _ (hchild.symm.trans htarget)
          cases hold
        exact ⟨_, hleads.trans hdown⟩

end Entry

namespace Disk

def outline (disk : Disk) : Disk :=
  { disk with top := disk.top.outline }

@[simp] theorem names_outline (disk : Disk) (path : Path) :
    disk.outline.names path = disk.names path := rfl

theorem stat_outline (disk : Disk) (path : Path) :
    disk.outline.stat path = (disk.stat path).map Entry.Place.outline := by
  unfold stat
  split
  · rfl
  · exact Entry.follow_outline disk.top Entry.linkLimit [] (disk.names path)

theorem isFile_outline (disk : Disk) (path : Path) : disk.outline.isFile path = disk.isFile path := by
  unfold isFile
  rw [stat_outline]
  split
  · rfl
  rcases disk.stat path with e | ⟨names, entry, budget⟩
  · rfl
  · cases entry <;> rfl

theorem realPath_outline (disk : Disk) (path : Path) :
    disk.outline.realPath path = disk.realPath path := by
  have hreal : disk.outline.top.settleWithin disk.outline.top.linkCount [] [] =
      disk.top.settleWithin disk.top.linkCount [] [] := by
    funext steps
    rw [outline, Entry.linkCount_outline, Entry.settleWithin_outline]
  unfold realPath
  simp only [names_outline, hreal, stat_outline]
  rcases disk.stat _ with e | place
  · rfl
  · rfl

-- A disk on which one file has other contents, and all else is as it was.
structure Rewrites (disk : Disk) (path : Path) (disk' : Disk) : Prop where
  outline : disk'.outline = disk.outline
  read : ∀ other, disk.realPath other ≠ disk.realPath path → disk'.read other = disk.read other

-- Disks with one outline are read alike where the file that is read has the same contents.
theorem read_eq_of_outline_eq {disk disk' : Disk} (houtline : disk'.outline = disk.outline) {path : Path}
    (hkept : ∀ place bytes, disk.stat path = .ok place → place.entry = .file bytes →
      disk'.top.get? place.names = some (.file bytes)) : disk'.read path = disk.read path := by
  have hstats : (disk'.stat path).map Entry.Place.outline =
      (disk.stat path).map Entry.Place.outline := by
    rw [← stat_outline, houtline, stat_outline]
  unfold read
  cases hstat : disk.stat path with
  | error e =>
      rw [hstat] at hstats
      cases hstat' : disk'.stat path with
      | error e' =>
          rw [hstat'] at hstats
          cases hstats
          rfl
      | ok place =>
          rw [hstat'] at hstats
          cases hstats
  | ok place =>
      rw [hstat] at hstats
      obtain ⟨place', hstat', hplaces⟩ := Except.map_eq_ok.mp hstats
      obtain ⟨names, entry, budget⟩ := place
      obtain ⟨names', entry', budget'⟩ := place'
      obtain ⟨rfl, hentries, -⟩ := Entry.Place.mk.inj hplaces
      rw [hstat']
      cases entry with
      | file bytes =>
          have hget := hkept _ bytes hstat rfl
          have hget' := Entry.get?_of_search? (Entry.search?_of_follow (follow_of_stat hstat'))
          obtain rfl := Option.some.inj (hget'.symm.trans hget)
          cases bytes <;> rfl
      | link target => cases entry' <;> first | rfl | cases hentries
      | dir access entries => cases entry' <;> first | rfl | cases hentries

theorem rewrites_of_write {disk disk' : Disk} {path : Path} {bytes : List UInt8}
    (hfile : disk.isFile path = .ok true) (h : disk.write path bytes = .ok disk') :
    disk.Rewrites path disk' := by
  unfold write at h
  split at h
  · cases h
  obtain ⟨names, hnames, rfl⟩ := Except.map_eq_ok.mp h
  obtain ⟨place, old, hplace, hentry⟩ := isFile_eq_true hfile
  obtain ⟨-, cost, hleads⟩ := Entry.leads_of_follow (.nil _) hplace
  obtain ⟨cost', hcreated⟩ := Entry.leads_of_creationPlace (.nil _) hnames
  obtain ⟨-, rfl⟩ := hcreated.unique hleads
  have hget : disk.top.get? place.names = some (.file old) :=
    hentry ▸ Entry.get?_of_search? (Entry.search?_of_follow hplace)
  have houtline : ({ disk with top := disk.top.put (.file bytes) place.names } : Disk).outline =
      disk.outline := by
    rw [outline, outline, Entry.outline_put hget]
  refine ⟨houtline, fun other hother => read_eq_of_outline_eq houtline ?_⟩
  intro place' kept hplace' hkept
  have hfollow := follow_of_stat hplace'
  have hget' : disk.top.get? place'.names = some (.file kept) :=
    hkept ▸ Entry.get?_of_search? (Entry.search?_of_follow hfollow)
  refine Entry.get?_put_of_ne hget hget' ?_ bytes
  intro hsame
  obtain ⟨-, cost', hleads'⟩ := Entry.leads_of_follow (.nil _) hfollow
  rw [hsame] at hleads'
  exact hother (realPath_congr hleads' hleads)

end Disk

end PropFlow
