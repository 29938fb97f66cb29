import Mathlib.Data.List.Induction
import Mathlib.Data.String.Basic
import PropFlow.Proofs.Discovery
import PropFlow.Proofs.Enumerates
import PropFlow.Proofs.FileTree.Leaves
import PropFlow.Proofs.FileTree.RealPath
import PropFlow.Proofs.OrderedMap

namespace PropFlow

-- The path of a place below a directory.
def Path.below (p : Path) (names : List String) : Path :=
  { p with parts := p.parts ++ names }

theorem Path.name_child (p : Path) (name : String) : (p.child name).name = name := by
  simp [Path.name, child]

theorem Path.below_cons (p : Path) (name : String) (rest : List String) :
    p.below (name :: rest) = (p.child name).below rest := by
  simp [below, child]

namespace Entry

mutual
-- Whether the entries of every directory have names of their own, of those that a directory can hold.
def hasProperNames : Entry → Bool
  | .dir _ entries =>
    decide ((entries.map (·.1)).Nodup)
      && entries.all (fun entry => decide (IsName entry.1 ∧ entry.1.utf8ByteSize ≤ nameLimit))
      && haveProperNames entries
  | _ => true

def haveProperNames : List (String × Entry) → Bool
  | [] => true
  | (_, entry) :: rest => entry.hasProperNames && haveProperNames rest
end

def ProperNames (entry : Entry) : Prop :=
  entry.hasProperNames = true

instance (entry : Entry) : Decidable entry.ProperNames :=
  inferInstanceAs (Decidable (_ = true))

theorem haveProperNames_iff {entries : List (String × Entry)} :
    haveProperNames entries = true ↔ ∀ entry ∈ entries, entry.2.ProperNames := by
  induction entries with
  | nil => simp [haveProperNames]
  | cons entry rest ih => simp [haveProperNames, ih, ProperNames]

theorem properNames_dir {access : Access} {entries : List (String × Entry)} :
    (dir access entries).ProperNames ↔ (entries.map (·.1)).Nodup ∧
      (∀ entry ∈ entries, IsName entry.1 ∧ entry.1.utf8ByteSize ≤ nameLimit) ∧
      ∀ entry ∈ entries, entry.2.ProperNames := by
  rw [← haveProperNames_iff]
  simp [ProperNames, hasProperNames, and_assoc]

theorem properName_of_get? {tree entry : Entry} (h : tree.ProperNames) {names : List String}
    (hget : tree.get? names = some entry) :
    ∀ name ∈ names, IsName name ∧ name.utf8ByteSize ≤ nameLimit := by
  induction names generalizing tree with
  | nil => exact List.forall_mem_nil _
  | cons first rest ih =>
      obtain ⟨_, entries, child, rfl, hchild, hrest⟩ := exists_dir_of_get? hget
      obtain ⟨-, hnames, hproper⟩ := properNames_dir.mp h
      obtain ⟨before, after, hentries, -⟩ := List.lookup_eq_some_iff.mp hchild
      have hmem : (first, child) ∈ entries := by simp [hentries]
      exact List.forall_mem_cons.mpr ⟨hnames _ hmem, ih (hproper _ hmem) hrest⟩

-- No link is on the way to what is at a place below a directory.
theorem plain_append {top tree : Entry} {here names : List String} {access : Access}
    {entries : List (String × Entry)} (hhere : Plain top here) (hplace : top.get? here = some tree)
    (htree : tree.ProperNames) (hget : tree.get? names = some (.dir access entries)) :
    Plain top (here ++ names) := by
  induction names using List.reverseRecOn generalizing access entries with
  | nil => rwa [List.append_nil]
  | append_singleton front name ih =>
      have hfront := hget
      rw [get?_append, Option.bind_eq_some_iff] at hfront
      obtain ⟨folder, hfolder, hlast⟩ := hfront
      obtain ⟨_, _, _, rfl, -⟩ := exists_dir_of_get? hlast
      have hname := (properName_of_get? htree hget name (by simp)).1
      rw [← List.append_assoc]
      refine (ih hfolder).child hname ?_
      intro target hlink
      have hthere := get?_of_search? hlink
      rw [List.append_assoc, get?_append, hplace, Option.bind_some, hget] at hthere
      cases hthere

-- A directory that answers for one of its entries is searchable.
theorem searchable_of_test {top : Entry} {budget : Nat} {here : List String} {access : Access}
    {entries : List (String × Entry)} {name : String} {sort : Entry → Bool} {answer : Bool}
    (hdir : top.search? here = some (.dir access entries)) (hname : name ≠ "")
    (h : test sort (top.follow budget here [name]) = .ok answer) : access.searchable = true := by
  by_contra hopen
  have hrefused : top.follow budget here [name] = .error .notPermitted := by
    cases budget <;> simp only [follow, descend, hdir, hname, if_false, Bool.of_not_eq_true hopen, if_true]
  rw [hrefused] at h
  cases h

mutual
-- Every entry of a tree with its place.
def places : Entry → List (List String × Entry)
  | .file bytes => [([], .file bytes)]
  | .link target => [([], .link target)]
  | .dir access entries => ([], .dir access entries) :: placesIn entries

def placesIn : List (String × Entry) → List (List String × Entry)
  | [] => []
  | (name, entry) :: rest => entry.places.map (fun place => (name :: place.1, place.2)) ++ placesIn rest
end

theorem mem_placesIn {name : String} {entry : Entry} {entries : List (String × Entry)}
    (h : (name, entry) ∈ entries) {place : List String × Entry} (hplace : place ∈ entry.places) :
    (name :: place.1, place.2) ∈ placesIn entries := by
  induction entries with
  | nil => cases h
  | cons first rest ih =>
      rw [placesIn, List.mem_append]
      rcases List.mem_cons.mp h with rfl | h
      · exact .inl (List.mem_map_of_mem hplace)
      · exact .inr (ih h)

theorem mem_places {tree entry : Entry} {names : List String} (h : tree.get? names = some entry) :
    (names, entry) ∈ tree.places := by
  induction names generalizing tree with
  | nil =>
      obtain rfl : tree = entry := by simpa [get?] using h
      cases tree <;> exact List.mem_cons_self
  | cons name rest ih =>
      obtain ⟨access, entries, child, rfl, hchild, hrest⟩ := exists_dir_of_get? h
      obtain ⟨before, after, hentries, -⟩ := List.lookup_eq_some_iff.mp hchild
      have hmem : (name, child) ∈ entries := by simp [hentries]
      exact List.mem_cons_of_mem _ (mem_placesIn hmem (ih hrest))

end Entry

namespace Discovery

-- What is found below a path: the places of the source files and of the directories that cannot be
-- listed.
def Lists (path : Path) (source locked : List String → Prop) (found : Found) : Prop :=
  ∃ files refused, found = ⟨files.map path.below, refused.map fun names => ⟨path.below names, .notPermitted⟩⟩ ∧
    Enumerates id source files ∧ Enumerates id locked refused

theorem Lists.congr {path : Path} {source locked source' locked' : List String → Prop} {found : Found}
    (h : Lists path source locked found) (hsource : ∀ names, source names ↔ source' names)
    (hlocked : ∀ names, locked names ↔ locked' names) : Lists path source' locked' found := by
  obtain ⟨files, refused, hfound, hfiles, hrefused⟩ := h
  exact ⟨files, refused, hfound, hfiles.congr hsource, hrefused.congr hlocked⟩

-- Places that begin with the name of an entry of a list.
def Behind {α : Type} (entries : List (String × α)) (P : String → List String → Prop) (names : List String) :
    Prop :=
  ∃ entry ∈ entries, ∃ rest, names = entry.1 :: rest ∧ P entry.1 rest

theorem behind_cons {α : Type} {entry : String × α} {entries : List (String × α)}
    {P : String → List String → Prop} {names : List String} :
    Behind (entry :: entries) P names ↔
      (∃ rest, names = entry.1 :: rest ∧ P entry.1 rest) ∨ Behind entries P names := by
  simp only [Behind, List.exists_mem_cons_iff]

theorem exists_lt_of_behind {α : Type} {entry : String × α} {entries : List (String × α)}
    (hfirst : ∀ other ∈ entries, entry.1 < other.1) {P : String → List String → Prop} {names : List String}
    (h : Behind entries P names) : ∃ other rest, names = other :: rest ∧ entry.1 < other := by
  obtain ⟨other, hother, rest, rfl, -⟩ := h
  exact ⟨other.1, rest, rfl, hfirst other hother⟩

-- What stands in a directory is listed when the entries stand in the order of their names.
theorem lists_concat {path : Path} {source locked : String → List String → Prop}
    {founds : List (String × Found)} (hsorted : founds.Pairwise fun a b => a.1 < b.1)
    (h : ∀ found ∈ founds, Lists (path.child found.1) (source found.1) (locked found.1) found.2) :
    Lists path (Behind founds source) (Behind founds locked) (.concat (founds.map (·.2))) := by
  induction founds with
  | nil => exact ⟨[], [], rfl, Enumerates.nil (by simp [Behind]), Enumerates.nil (by simp [Behind])⟩
  | cons first rest ih =>
      obtain ⟨hfirst, hrest⟩ := List.pairwise_cons.mp hsorted
      obtain ⟨hhead, htail⟩ := List.forall_mem_cons.mp h
      obtain ⟨files, refused, hfound, hfiles, hrefused⟩ := hhead
      obtain ⟨files', refused', hfound', hfiles', hrefused'⟩ := ih hrest htail
      have hpush : ∀ names : List String, id (first.1 :: names) = first.1 :: id names := fun _ => rfl
      refine ⟨files.map (first.1 :: ·) ++ files', refused.map (first.1 :: ·) ++ refused', ?_, ?_, ?_⟩
      · obtain ⟨hlaterFiles, hlaterRefusals⟩ := Found.mk.inj hfound'
        simp only [Found.concat, List.map_cons, List.flatMap_cons, hfound, hlaterFiles, hlaterRefusals]
        simp [Function.comp_def, Path.below_cons]
      · have hall := hfiles.behind hpush hfiles' fun _ => exists_lt_of_behind hfirst
        exact hall.congr fun _ => behind_cons.symm
      · have hall := hrefused.behind hpush hrefused' fun _ => exists_lt_of_behind hfirst
        exact hall.congr fun _ => behind_cons.symm

theorem lists_inOrder {path : Path} {source locked : String → List String → Prop}
    {founds : List (String × Found)} (hnames : (founds.map (·.1)).Nodup)
    (h : ∀ found ∈ founds, Lists (path.child found.1) (source found.1) (locked found.1) found.2) :
    Lists path (Behind founds source) (Behind founds locked) (.inOrder founds) := by
  have hconcat := lists_concat (List.pairwise_lt_mergeSort Prod.fst hnames) fun found hfound =>
    h found (List.mem_mergeSort.mp hfound)
  have hbehind : ∀ P names, Behind (founds.mergeSort fun a b => decide (a.1 ≤ b.1)) P names ↔
      Behind founds P names := by
    intro P names
    simp only [Behind, List.mem_mergeSort]
  exact hconcat.congr (hbehind source) (hbehind locked)

-- A directory that cannot be listed.
def Locked (tree : Entry) (names : List String) : Prop :=
  ∃ access entries, tree.get? names = some (.dir access entries) ∧ access.listable = false

-- A place that the search comes to: the directories on the way can be listed and are not excluded by
-- their names.
def Visited (tree : Entry) (names : List String) : Prop :=
  ∀ front name rest, names = front ++ name :: rest →
    ¬Locked tree front ∧ (rest ≠ [] → name ∉ excludedNames)

-- What counts as a source file below a directory: no directory itself, with a suffix of source files,
-- behind directories that can all be listed and are not excluded by their names. The name of the
-- directory at the top does not count.
structure SourceAt (tree : Entry) (names : List String) : Prop where
  present : ∃ entry, tree.get? names = some entry ∧ entry.sortDir = false
  suffix : ∃ name, names.getLast? = some name ∧ Text.lower (Path.suffixOf name) ∈ sourceSuffixes
  way : Visited tree names

-- A directory that cannot be listed, and that the search comes to.
structure LockedAt (tree : Entry) (names : List String) : Prop where
  locked : Locked tree names
  way : ∀ front name rest, names = front ++ name :: rest → ¬Locked tree front ∧ name ∉ excludedNames

theorem get?_dir_cons {access : Access} {entries : List (String × Entry)} {name : String} {entry : Entry}
    (h : entries.lookup name = some entry) (rest : List String) :
    (Entry.dir access entries).get? (name :: rest) = entry.get? rest := by
  rw [Entry.get?, h]

theorem locked_dir_cons {access : Access} {entries : List (String × Entry)} {name : String} {entry : Entry}
    (h : entries.lookup name = some entry) (rest : List String) :
    Locked (.dir access entries) (name :: rest) ↔ Locked entry rest := by
  unfold Locked
  rw [get?_dir_cons h]

theorem locked_dir_nil {access : Access} {entries : List (String × Entry)} :
    Locked (.dir access entries) [] ↔ access.listable = false := by
  constructor
  · rintro ⟨_, _, hget, hlisted⟩
    cases hget
    exact hlisted
  · intro hlisted
    exact ⟨access, entries, rfl, hlisted⟩

theorem not_locked_dir_nil {access : Access} (hlisted : access.listable = true)
    (entries : List (String × Entry)) : ¬Locked (.dir access entries) [] := by
  rw [locked_dir_nil, hlisted]
  exact Bool.noConfusion

theorem visited_nil (tree : Entry) : Visited tree [] := by
  intro front name rest heq
  simp at heq

theorem visited_dir_cons {access : Access} (hlisted : access.listable = true)
    {entries : List (String × Entry)} {name : String} {entry : Entry}
    (hentry : entries.lookup name = some entry) {rest : List String} :
    Visited (.dir access entries) (name :: rest) ↔ (rest ≠ [] → name ∉ excludedNames) ∧ Visited entry rest := by
  constructor
  · intro h
    refine ⟨(h [] name rest rfl).2, ?_⟩
    intro front other after heq
    have hway := h (name :: front) other after (by rw [heq]; rfl)
    rwa [locked_dir_cons hentry] at hway
  · rintro ⟨hname, h⟩ front other after heq
    cases front with
    | nil =>
        cases heq
        exact ⟨not_locked_dir_nil hlisted entries, hname⟩
    | cons first front =>
        obtain ⟨rfl, rfl⟩ := List.cons.inj heq
        rw [locked_dir_cons hentry]
        exact h front other after rfl

-- What a source file in an entry of a directory is, and what a directory that the search comes to is.
def SourceUnder (name : String) (entry : Entry) (rest : List String) : Prop :=
  (rest = [] ∧ entry.sortDir = false ∧ Text.lower (Path.suffixOf name) ∈ sourceSuffixes) ∨
    (name ∉ excludedNames ∧ SourceAt entry rest)

def LockedUnder (name : String) (entry : Entry) (rest : List String) : Prop :=
  name ∉ excludedNames ∧ LockedAt entry rest

-- What is so of the entry that stands under a name.
def Under (entries : List (String × Entry)) (Q : String → Entry → List String → Prop) (name : String)
    (rest : List String) : Prop :=
  ∃ entry, entries.lookup name = some entry ∧ Q name entry rest

theorem sourceAt_cons {access : Access} (hlisted : access.listable = true) {entries : List (String × Entry)}
    {name : String} {rest : List String} :
    SourceAt (.dir access entries) (name :: rest) ↔ Under entries SourceUnder name rest := by
  constructor
  · intro h
    obtain ⟨last, hlast, hsort⟩ := h.present
    obtain ⟨_, _, entry, hdir, hentry, hget⟩ := Entry.exists_dir_of_get? hlast
    cases hdir
    obtain ⟨hname, hway⟩ := (visited_dir_cons hlisted hentry).mp h.way
    refine ⟨entry, hentry, ?_⟩
    cases rest with
    | nil =>
        obtain rfl : entry = last := by simpa [Entry.get?] using hget
        obtain ⟨_, hlast, hsuffix⟩ := h.suffix
        cases hlast
        exact .inl ⟨rfl, hsort, hsuffix⟩
    | cons next rest =>
        exact .inr ⟨hname (List.cons_ne_nil _ _), ⟨last, hget, hsort⟩, by simpa using h.suffix, hway⟩
  · rintro ⟨entry, hentry, ⟨rfl, hsort, hsuffix⟩ | ⟨hname, hsource⟩⟩
    · have hway := (visited_dir_cons hlisted hentry).mpr ⟨fun hne => absurd rfl hne, visited_nil entry⟩
      refine ⟨⟨entry, ?_, hsort⟩, ⟨name, rfl, hsuffix⟩, hway⟩
      rw [get?_dir_cons hentry]
      simp [Entry.get?]
    · obtain ⟨last, hlast, hsort⟩ := hsource.present
      obtain ⟨ending, hending, hsuffix⟩ := hsource.suffix
      have hway := (visited_dir_cons hlisted hentry).mpr ⟨fun _ => hname, hsource.way⟩
      refine ⟨⟨last, by rwa [get?_dir_cons hentry], hsort⟩, ⟨ending, ?_, hsuffix⟩, hway⟩
      rw [List.getLast?_cons, hending]
      rfl

theorem lockedAt_cons {access : Access} (hlisted : access.listable = true) {entries : List (String × Entry)}
    {name : String} {rest : List String} :
    LockedAt (.dir access entries) (name :: rest) ↔ Under entries LockedUnder name rest := by
  constructor
  · intro h
    obtain ⟨_, _, hlast, -⟩ := h.locked
    obtain ⟨_, _, entry, hdir, hentry, -⟩ := Entry.exists_dir_of_get? hlast
    cases hdir
    refine ⟨entry, hentry, (h.way [] name rest rfl).2, (locked_dir_cons hentry rest).mp h.locked, ?_⟩
    intro front other after heq
    have hway := h.way (name :: front) other after (by rw [heq]; rfl)
    rwa [locked_dir_cons hentry] at hway
  · rintro ⟨entry, hentry, hname, hlocked⟩
    refine ⟨(locked_dir_cons hentry rest).mpr hlocked.locked, ?_⟩
    intro front other after heq
    cases front with
    | nil =>
        cases heq
        exact ⟨not_locked_dir_nil hlisted entries, hname⟩
    | cons first front =>
        obtain ⟨rfl, rfl⟩ := List.cons.inj heq
        rw [locked_dir_cons hentry]
        exact hlocked.way front other after rfl

theorem not_sourceAt_nil {tree : Entry} : ¬SourceAt tree [] := by
  intro h
  obtain ⟨_, hname, -⟩ := h.suffix
  cases hname

-- Nothing behind a directory that cannot be listed is found.
theorem not_sourceAt_locked {tree : Entry} (h : Locked tree []) {names : List String} :
    ¬SourceAt tree names := by
  intro hsource
  cases names with
  | nil => exact not_sourceAt_nil hsource
  | cons name rest => exact (hsource.way [] name rest rfl).1 h

theorem lockedAt_locked_iff {tree : Entry} (h : Locked tree []) {names : List String} :
    LockedAt tree names ↔ names = [] := by
  constructor
  · intro hlocked
    cases names with
    | nil => rfl
    | cons name rest => exact absurd h (hlocked.way [] name rest rfl).1
  · rintro rfl
    exact ⟨h, fun front name rest heq => by simp at heq⟩

theorem Visited.folder {tree : Entry} {folder : List String} {name : String}
    (h : Visited tree (folder ++ [name])) : Visited tree folder := by
  rintro front other rest rfl
  obtain ⟨hlocked, hname⟩ := h front other (rest ++ [name]) (by simp)
  exact ⟨hlocked, fun _ => hname (by simp)⟩

-- Whether an entry is a directory is answered, and by what the entry is itself.
def Answers (top : Entry) (budget : Nat) (path : Path) (here : List String) (name : String) (entry : Entry) :
    Prop :=
  (path.child name).text.utf8ByteSize ≤ Entry.pathLimit ∧
    Entry.test Entry.sortDir (top.follow budget here [name]) = .ok entry.sortDir

-- So it is for every entry that the search comes to in a tree that stands at `here`.
def AllAnswer (top : Entry) (budget : Nat) (path : Path) (here : List String) (tree : Entry) : Prop :=
  ∀ folder name entry, tree.get? (folder ++ [name]) = some entry → Visited tree (folder ++ [name]) →
    Answers top budget (path.below folder) (here ++ folder) name entry

theorem AllAnswer.entry {top : Entry} {budget : Nat} {path : Path} {here : List String} {access : Access}
    (hlisted : access.listable = true) {entries : List (String × Entry)}
    (h : AllAnswer top budget path here (.dir access entries)) {name : String} {entry : Entry}
    (hentry : entries.lookup name = some entry) :
    Answers top budget path here name entry ∧
      (name ∉ excludedNames → AllAnswer top budget (path.child name) (here ++ [name]) entry) := by
  constructor
  · have hanswers := h [] name entry (by rw [List.nil_append, get?_dir_cons hentry]; simp [Entry.get?])
      ((visited_dir_cons hlisted hentry).mpr ⟨fun hne => absurd rfl hne, visited_nil entry⟩)
    simpa [Path.below] using hanswers
  · intro hname folder last inner hinner hvisited
    have hanswers := h (name :: folder) last inner (by rw [List.cons_append, get?_dir_cons hentry, hinner])
      ((visited_dir_cons hlisted hentry).mpr ⟨fun _ => hname, hvisited⟩)
    rw [List.append_assoc, List.singleton_append, ← Path.below_cons]
    exact hanswers

section OfEntry

variable {top : Entry} {budget : Nat} {here : List String} {path : Path} {name : String}
  (hlimit : (path.child name).text.utf8ByteSize ≤ Entry.pathLimit)

include hlimit

theorem ofEntry_eq_ofFile {inside : Entry.Place → Found}
    (h : Entry.test Entry.sortDir (top.follow budget here [name]) = .ok false) :
    ofEntry top budget here (path.child name) inside = ofFile (path.child name) := by
  rw [ofEntry, if_neg (Nat.not_lt.mpr hlimit), Path.name_child]
  cases hfollow : top.follow budget here [name] with
  | ok place =>
      rw [hfollow] at h
      have hsort : place.entry.sortDir = false := Except.ok.inj h
      simp [hsort]
  | error e =>
      rw [hfollow] at h
      simp only [Entry.test] at h
      split at h
      · rename_i habsent
        exact if_pos habsent
      · cases h

theorem ofEntry_of_dir {found : Found}
    (h : Entry.test Entry.sortDir (top.follow budget here [name]) = .ok true) :
    ofEntry top budget here (path.child name) (fun _ => found) =
      if name ∈ excludedNames then .nothing else found := by
  obtain ⟨place, hfollow, hsort⟩ := Entry.test_eq_true h
  rw [ofEntry, if_neg (Nat.not_lt.mpr hlimit), Path.name_child, hfollow]
  exact if_pos hsort

end OfEntry

theorem lists_nothing {path : Path} {source locked : List String → Prop} (hsource : ∀ names, ¬source names)
    (hlocked : ∀ names, ¬locked names) : Lists path source locked .nothing :=
  ⟨[], [], rfl, Enumerates.nil hsource, Enumerates.nil hlocked⟩

-- An entry that is no directory is found if its name is that of a source file.
theorem lists_ofFile {path : Path} {name : String} {entry : Entry} (hsort : entry.sortDir = false) :
    Lists (path.child name) (SourceUnder name entry) (LockedUnder name entry)
      (ofFile (path.child name)) := by
  have hinner : ∀ rest, ¬SourceAt entry rest := by
    intro rest h
    cases rest with
    | nil =>
        obtain ⟨_, hname, -⟩ := h.suffix
        cases hname
    | cons next rest =>
        obtain ⟨_, hget, -⟩ := h.present
        obtain ⟨_, _, _, rfl, -⟩ := Entry.exists_dir_of_get? hget
        cases hsort
  have hlocked : ∀ rest, ¬LockedUnder name entry rest := by
    rintro rest ⟨-, h⟩
    obtain ⟨_, _, hget, -⟩ := h.locked
    cases rest with
    | nil =>
        obtain rfl : entry = _ := by simpa [Entry.get?] using hget
        cases hsort
    | cons next rest =>
        obtain ⟨_, _, _, rfl, -⟩ := Entry.exists_dir_of_get? hget
        cases hsort
  have hsuffix : (path.child name).suffix = Path.suffixOf name := by
    rw [Path.suffix, Path.name_child]
  unfold ofFile isSource
  rw [hsuffix]
  by_cases hname : Text.lower (Path.suffixOf name) ∈ sourceSuffixes
  · rw [if_pos (decide_eq_true hname)]
    refine ⟨[[]], [], by simp [Path.below], Enumerates.single ?_, Enumerates.nil hlocked⟩
    intro rest
    simp [SourceUnder, hsort, hname, hinner]
  · rw [if_neg (by simpa using hname)]
    refine lists_nothing ?_ hlocked
    intro rest
    simp [SourceUnder, hname, hinner]

-- What is found in one entry of a directory.
def ofNamed (top : Entry) (budget : Nat) (jump : Path → Entry.Place → Found) (path : Path)
    (here : List String) (name : String) : Entry → Found
  | .dir access entries =>
    ofEntry top budget here (path.child name) fun _ =>
      scan top budget jump (path.child name) (here ++ [name]) (.dir access entries)
  | .file _ => ofEntry top budget here (path.child name) (jump (path.child name))
  | .link _ => ofEntry top budget here (path.child name) (jump (path.child name))

section Scan

variable {top : Entry} {budget : Nat} {jump : Path → Entry.Place → Found}

theorem scanAll_cons (path : Path) (here : List String) (entry : String × Entry)
    (rest : List (String × Entry)) : scanAll top budget jump path here (entry :: rest) =
      (entry.1, ofNamed top budget jump path here entry.1 entry.2) :: scanAll top budget jump path here rest := by
  obtain ⟨name, entry⟩ := entry
  cases entry <;> rw [scanAll, ofNamed]

theorem map_fst_scanAll (path : Path) (here : List String) (entries : List (String × Entry)) :
    (scanAll top budget jump path here entries).map (·.1) = entries.map (·.1) := by
  induction entries with
  | nil => rfl
  | cons entry rest ih => rw [scanAll_cons, List.map_cons, List.map_cons, ih]

-- A place that begins with a name is a place behind what was found under that name.
theorem behind_scanAll_iff {path : Path} {here : List String} {entries : List (String × Entry)}
    {P : List String → Prop} {Q : String → Entry → List String → Prop} (hnil : ¬P [])
    (hcons : ∀ name rest, P (name :: rest) ↔ Under entries Q name rest) (names : List String) :
    Behind (scanAll top budget jump path here entries) (Under entries Q) names ↔ P names := by
  constructor
  · rintro ⟨found, -, rest, rfl, hunder⟩
    exact (hcons found.1 rest).mpr hunder
  · intro hP
    cases names with
    | nil => exact absurd hP hnil
    | cons name rest =>
        have hunder := (hcons name rest).mp hP
        obtain ⟨entry, hentry, -⟩ := hunder
        obtain ⟨before, after, hentries, -⟩ := List.lookup_eq_some_iff.mp hentry
        have hname : name ∈ (scanAll top budget jump path here entries).map (·.1) := by
          rw [map_fst_scanAll, hentries]
          simp
        obtain ⟨found, hfound, rfl⟩ := List.mem_map.mp hname
        exact ⟨found, hfound, rest, rfl, (hcons found.1 rest).mp hP⟩

-- What a directory holds is what its entries hold, each under its name.
theorem lists_dir {path : Path} {here : List String} {access : Access} {entries : List (String × Entry)}
    (hlisted : access.listable = true) (hnodup : (entries.map (·.1)).Nodup)
    (h : ∀ found ∈ scanAll top budget jump path here entries, ∃ entry,
      entries.lookup found.1 = some entry ∧
        Lists (path.child found.1) (SourceUnder found.1 entry) (LockedUnder found.1 entry) found.2) :
    Lists path (SourceAt (.dir access entries)) (LockedAt (.dir access entries))
      (.inOrder (scanAll top budget jump path here entries)) := by
  have hlists : Lists path
      (Behind (scanAll top budget jump path here entries) (Under entries SourceUnder))
      (Behind (scanAll top budget jump path here entries) (Under entries LockedUnder))
      (.inOrder (scanAll top budget jump path here entries)) := by
    apply lists_inOrder
    · rwa [map_fst_scanAll]
    · intro found hfound
      obtain ⟨entry, hentry, hlists⟩ := h found hfound
      have hunder : ∀ Q rest, Q found.1 entry rest ↔ Under entries Q found.1 rest := by
        intro Q rest
        simp [Under, hentry]
      exact hlists.congr (hunder SourceUnder) (hunder LockedUnder)
  exact hlists.congr (behind_scanAll_iff not_sourceAt_nil fun _ _ => sourceAt_cons hlisted)
    (behind_scanAll_iff (fun h => not_locked_dir_nil hlisted entries h.locked) fun _ _ => lockedAt_cons hlisted)

theorem lists_ofNamed {path : Path} {here : List String} {name : String} {entry : Entry}
    (hanswers : Answers top budget path here name entry)
    (hscan : entry.sortDir = true → name ∉ excludedNames →
      Lists (path.child name) (SourceAt entry) (LockedAt entry)
        (scan top budget jump (path.child name) (here ++ [name]) entry)) :
    Lists (path.child name) (SourceUnder name entry) (LockedUnder name entry)
      (ofNamed top budget jump path here name entry) := by
  obtain ⟨hlimit, htest⟩ := hanswers
  cases entry with
  | file bytes =>
      rw [ofNamed, ofEntry_eq_ofFile hlimit htest]
      exact lists_ofFile rfl
  | link target =>
      rw [ofNamed, ofEntry_eq_ofFile hlimit htest]
      exact lists_ofFile rfl
  | dir access entries =>
      rw [ofNamed, ofEntry_of_dir hlimit htest]
      by_cases hname : name ∈ excludedNames
      · rw [if_pos hname]
        apply lists_nothing
        · intro rest
          simp [SourceUnder, hname, Entry.sortDir]
        · rintro rest ⟨hnot, -⟩
          exact hnot hname
      · rw [if_neg hname]
        apply (hscan rfl hname).congr
        · intro rest
          simp [SourceUnder, hname, Entry.sortDir]
        · intro rest
          simp [LockedUnder, hname]

mutual
-- The induction is on the tree: a directory is listed once each of its entries is.
theorem lists_scan : (entry : Entry) → (path : Path) → (here : List String) → entry.sortDir = true →
    entry.ProperNames → AllAnswer top budget path here entry →
    Lists path (SourceAt entry) (LockedAt entry) (scan top budget jump path here entry)
  | .file _, _, _, hsort, _, _ => by cases hsort
  | .link _, _, _, hsort, _, _ => by cases hsort
  | .dir access entries, path, here, _, hproper, hanswer => by
    obtain ⟨hnodup, -, hinner⟩ := Entry.properNames_dir.mp hproper
    have hlookup : ∀ entry ∈ entries, entries.lookup entry.1 = some entry.2 := by
      intro entry hmem
      exact (OrderedMap.mem_entries_iff (m := ⟨entries⟩) hnodup).mp hmem
    rw [scan]
    split
    · rename_i hlisted
      apply lists_dir hlisted hnodup
      intro found hfound
      obtain ⟨entry, hmem, hlists⟩ := lists_scanAll entries path here hinner
        (fun entry hentry => hanswer.entry hlisted (hlookup entry hentry)) found hfound
      exact ⟨entry, hlookup _ hmem, hlists⟩
    · rename_i hlisted
      have hlocked : Locked (.dir access entries) [] := locked_dir_nil.mpr (Bool.of_not_eq_true hlisted)
      refine ⟨[], [[]], by simp [Path.below], Enumerates.nil fun _ => not_sourceAt_locked hlocked, ?_⟩
      exact Enumerates.single fun _ => lockedAt_locked_iff hlocked

theorem lists_scanAll : (entries : List (String × Entry)) → (path : Path) → (here : List String) →
    (∀ entry ∈ entries, entry.2.ProperNames) →
    (∀ entry ∈ entries, Answers top budget path here entry.1 entry.2 ∧
      (entry.1 ∉ excludedNames → AllAnswer top budget (path.child entry.1) (here ++ [entry.1]) entry.2)) →
    ∀ found ∈ scanAll top budget jump path here entries, ∃ entry, (found.1, entry) ∈ entries ∧
      Lists (path.child found.1) (SourceUnder found.1 entry) (LockedUnder found.1 entry) found.2
  | [], _, _, _, _, _, hfound => by cases hfound
  | (name, entry) :: rest, path, here, hproper, hanswer, found, hfound => by
    obtain ⟨hentryProper, hrestProper⟩ := List.forall_mem_cons.mp hproper
    obtain ⟨⟨hentry, hbelow⟩, hrest⟩ := List.forall_mem_cons.mp hanswer
    rw [scanAll_cons] at hfound
    rcases List.mem_cons.mp hfound with rfl | hfound
    · have hscan := fun hsort hname =>
        lists_scan entry (path.child name) (here ++ [name]) hsort hentryProper (hbelow hname)
      exact ⟨entry, List.mem_cons_self, lists_ofNamed hentry hscan⟩
    · obtain ⟨other, hmem, hlists⟩ := lists_scanAll rest path here hrestProper hrest found hfound
      exact ⟨other, List.mem_cons_of_mem _ hmem, hlists⟩
end

end Scan

section Answers

variable {disk : Disk} {start : List String} {place : Entry.Place}
  (hstat : disk.stat (.absolute start) = .ok place) (hnames : place.entry.ProperNames)

include hstat hnames

-- What is in a directory of a tree is asked for from the directory's own place.
theorem answers_of_isDir {folder : List String} {access : Access} {entries : List (String × Entry)}
    (hinner : place.entry.get? folder = some (.dir access entries))
    (hthere : disk.top.search? (place.names ++ folder) = some (.dir access entries)) {name : String}
    {entry : Entry}
    (h : disk.isDir ((Path.absolute start).below (folder ++ [name])) = .ok entry.sortDir) :
    Answers disk.top place.budget ((Path.absolute start).below folder) (place.names ++ folder) name entry := by
  have hfollow := Disk.follow_of_stat hstat
  have hplace := Entry.get?_of_search? (Entry.search?_of_follow hfollow)
  have hplain := Entry.plain_append (Entry.leads_of_follow (.nil _) hfollow).1 hplace hnames hinner
  have hshort : Entry.Short folder := fun other hother => (Entry.properName_of_get? hnames hinner other hother).2
  have hdown : disk.top.follow place.budget place.names folder =
      .ok ⟨place.names ++ folder, .dir access entries, place.budget⟩ := by
    cases hbudget : place.budget <;> exact Entry.descend_of_plain hplain hshort hthere
  have hpath : (Path.absolute start).below (folder ++ [name]) =
      ((Path.absolute start).below folder).child name := by
    simp [Path.below, Path.child]
  rw [Disk.isDir, Disk.stat] at h
  split at h
  · cases h
  · rename_i hlimit
    have hparts : disk.names ((Path.absolute start).below (folder ++ [name])) =
        disk.names (.absolute start) ++ (folder ++ [name]) := rfl
    rw [hparts, Entry.follow_append hfollow, Entry.follow_append hdown] at h
    exact ⟨hpath ▸ Nat.le_of_not_lt hlimit, h⟩

variable (htests : ∀ names entry, place.entry.get? names = some entry → Visited place.entry names →
  disk.isDir ((Path.absolute start).below names) = .ok entry.sortDir)

include htests

-- The directories that the search comes to are reached by looking them up, as each answers for the next.
theorem search?_of_visited {folder : List String} {access : Access} {entries : List (String × Entry)}
    (hget : place.entry.get? folder = some (.dir access entries)) (hvisited : Visited place.entry folder) :
    disk.top.search? (place.names ++ folder) = some (.dir access entries) := by
  induction folder using List.reverseRecOn generalizing access entries with
  | nil =>
      have hentry : place.entry = .dir access entries := by simpa [Entry.get?] using hget
      rw [List.append_nil, Entry.search?_of_follow (Disk.follow_of_stat hstat), hentry]
  | append_singleton front name ih =>
      have hfront := hget
      rw [Entry.get?_append, Option.bind_eq_some_iff] at hfront
      obtain ⟨folder, hfolder, hlast⟩ := hfront
      obtain ⟨_, _, child, rfl, hchild, hself⟩ := Entry.exists_dir_of_get? hlast
      obtain rfl : child = .dir access entries := by simpa [Entry.get?] using hself
      have hthere := ih hfolder hvisited.folder
      obtain ⟨-, htest⟩ := answers_of_isDir hstat hnames hfolder hthere (htests _ _ hget hvisited)
      have hname := (Entry.properName_of_get? hnames hget name (by simp)).1.1
      rw [← List.append_assoc, Entry.search?_child hthere (Entry.searchable_of_test hthere hname htest), hchild]

theorem allAnswer_of_isDir :
    AllAnswer disk.top place.budget (.absolute start) place.names place.entry := by
  intro folder name entry hget hvisited
  have hfolder := hget
  rw [Entry.get?_append, Option.bind_eq_some_iff] at hfolder
  obtain ⟨inner, hinner, hlast⟩ := hfolder
  obtain ⟨access, entries, _, rfl, -⟩ := Entry.exists_dir_of_get? hlast
  have hthere := search?_of_visited hstat hnames htests hinner hvisited.folder
  exact answers_of_isDir hstat hnames hinner hthere (htests _ _ hget hvisited)

end Answers

-- In a directory tree without links to directories and without entries whose directory test fails, the
-- search finds the source files that no excluded name and no locked directory hides, and the locked
-- directories that it comes to, both in the order of their names.
theorem find_enumerates_sources {disk : Disk} {root : String} {path real : Path} {place : Entry.Place}
    (hpath : disk.expand? (.ofString root) = some path) (hreal : disk.realPath path = .ok real)
    (hstat : disk.stat real = .ok place) (hdir : place.entry.sortDir = true)
    (hnames : place.entry.ProperNames)
    (htests : ∀ names entry, place.entry.get? names = some entry → Visited place.entry names →
      disk.isDir (real.below names) = .ok entry.sortDir) :
    ∃ files refused : List (List String), find disk root =
        .ok ⟨files.map real.below, refused.map fun names => ⟨real.below names, .notPermitted⟩⟩ ∧
      files.Pairwise (· < ·) ∧ (∀ names, names ∈ files ↔ SourceAt place.entry names) ∧
      refused.Pairwise (· < ·) ∧ ∀ names, names ∈ refused ↔ LockedAt place.entry names := by
  obtain ⟨start, rfl⟩ : ∃ start, real = .absolute start := by
    unfold Disk.realPath at hreal
    dsimp only at hreal
    split at hreal
    · cases hreal
    · exact ⟨_, (Except.ok.inj hreal).symm⟩
  have hscan : Lists (.absolute start) (SourceAt place.entry) (LockedAt place.entry)
      (scanWithin disk.top Entry.linkLimit (.absolute start) place) :=
    lists_scan place.entry _ _ hdir hnames (allAnswer_of_isDir hstat hnames htests)
  have hfind : find disk root = .ok (scanWithin disk.top Entry.linkLimit (.absolute start) place) := by
    simp only [find, hpath, hreal, findAt, hstat, hdir, if_true]
  obtain ⟨files, refused, hfound, ⟨hsorted, hfiles⟩, hordered, hrefused⟩ := hscan
  exact ⟨files, refused, by rw [hfind, hfound], hsorted, hfiles, hordered, hrefused⟩

-- A project with a link to a file, a link to nothing, an excluded directory, and a directory that can
-- neither be listed nor passed through.
namespace Project

def tree : Entry :=
  .dir .full [
    ("src", .dir .full
      [("b.tsx", .file (some [])), ("App.JSX", .file (some [])), ("note.md", .file (some []))]),
    ("node_modules", .dir .full [("x.js", .file (some []))]),
    ("locked", .dir ⟨false, false⟩ [("y.js", .file (some []))]),
    ("a.js", .link "src/b.tsx"), ("gone.ts", .link "nowhere")]

def disk : Disk :=
  ⟨.dir .full [("proj", tree)], [], []⟩

def root : Path :=
  .absolute ["proj"]

theorem locked : Locked tree ["locked"] :=
  ⟨_, _, rfl, rfl⟩

theorem isDir_visited (names : List String) (entry : Entry) (h : tree.get? names = some entry)
    (hvisited : Visited tree names) : disk.isDir (root.below names) = .ok entry.sortDir := by
  have hplaces : ∀ place ∈ tree.places, place.1.dropLast ≠ ["locked"] →
      disk.isDir (root.below place.1) = .ok place.2.sortDir := by decide +kernel
  refine hplaces (names, entry) (Entry.mem_places h) ?_
  intro hfolder
  cases hlast : names.getLast? with
  | none =>
      rw [List.getLast?_eq_none_iff.mp hlast] at hfolder
      cases hfolder
  | some name =>
      have hsplit := List.dropLast_append_getLast? name hlast
      exact (hvisited _ name [] hsplit.symm).1 (hfolder ▸ locked)

end Project

theorem find_enumerates_sources_project :
    ∃ files refused : List (List String), find Project.disk "/proj" =
        .ok ⟨files.map Project.root.below,
          refused.map fun names => ⟨Project.root.below names, .notPermitted⟩⟩ ∧
      files.Pairwise (· < ·) ∧ (∀ names, names ∈ files ↔ SourceAt Project.tree names) ∧
      refused.Pairwise (· < ·) ∧ (∀ names, names ∈ refused ↔ LockedAt Project.tree names) ∧
      ["src", "App.JSX"] ∈ files ∧ ["node_modules", "x.js"] ∉ files ∧ ["locked", "y.js"] ∉ files ∧
      ["locked"] ∈ refused := by
  have hpath : Project.disk.expand? (.ofString "/proj") = some (.ofString "/proj") := by decide +kernel
  have hreal : Project.disk.realPath (.ofString "/proj") = .ok Project.root := by decide +kernel
  have hstat : Project.disk.stat Project.root = .ok ⟨["proj"], Project.tree, Entry.linkLimit⟩ := by
    rw [Disk.stat, if_neg (by decide +kernel)]
    rfl
  obtain ⟨files, refused, hfind, hsorted, hfiles, hordered, hrefused⟩ :=
    find_enumerates_sources hpath hreal hstat rfl (by decide +kernel) Project.isDir_visited
  refine ⟨files, refused, hfind, hsorted, hfiles, hordered, hrefused, ?_, ?_, ?_, ?_⟩
  · apply (hfiles _).mpr
    refine (sourceAt_cons rfl).mpr ⟨_, rfl, .inr ⟨by decide, ?_⟩⟩
    exact (sourceAt_cons rfl).mpr ⟨_, rfl, .inl ⟨rfl, rfl, by decide +kernel⟩⟩
  · intro h
    exact (((hfiles _).mp h).way [] "node_modules" ["x.js"] rfl).2 (by decide) (by decide)
  · intro h
    exact (((hfiles _).mp h).way ["locked"] "y.js" [] rfl).1 Project.locked
  · apply (hrefused _).mpr
    exact (lockedAt_cons rfl).mpr ⟨_, rfl, by decide, (lockedAt_locked_iff ⟨_, _, rfl, rfl⟩).mpr rfl⟩

end Discovery

end PropFlow
