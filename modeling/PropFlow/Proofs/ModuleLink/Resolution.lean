import PropFlow.Proofs.ModuleLink
import PropFlow.Proofs.Path.Normal

namespace PropFlow.ModuleLink

section Base

variable {importer : Path} {specifier : String}

theorem isAbsolute_ofString (h : isRelative specifier = true) :
    (Path.ofString specifier).isAbsolute = false := by
  unfold isRelative at h
  cases hchars : specifier.toList with
  | nil => simp [hchars] at h
  | cons c rest =>
      obtain rfl : c = '.' := by simpa [hchars] using h
      simp [Path.isAbsolute, Path.ofString, hchars, Anchor.ofChars]

-- The names from the importing file's directory on, as they are written.
def written (importer : Path) (specifier : String) : List String :=
  importer.parent.parts ++ Path.segments specifier

theorem base_eq (hroot : importer.isAbsolute = true) (hreal : ∀ name ∈ importer.parts, IsRealName name)
    (h : isRelative specifier = true) :
    base importer specifier = ⟨importer.anchor, (Path.walked (written importer specifier)).reverse⟩ := by
  have hparent : importer.parent.parts.filter Path.moves = importer.parent.parts := by
    refine List.filter_eq_self.mpr fun name hname => Path.moves_of_isName ?_
    exact (Path.isRealName_parent hreal name hname).1
  have hjoin : importer.parent.join (Path.ofString specifier) =
      ⟨importer.anchor, (written importer specifier).filter Path.moves⟩ := by
    rw [Path.join, isAbsolute_ofString h, written, List.filter_append, hparent]
    rfl
  have habsolute : (Path.mk importer.anchor ((written importer specifier).filter Path.moves)).isAbsolute =
      true := hroot
  rw [base, hjoin, Path.normalize, habsolute]
  rfl

theorem isRealName_base (hroot : importer.isAbsolute = true)
    (hreal : ∀ name ∈ importer.parts, IsRealName name) (h : isRelative specifier = true) :
    ∀ name ∈ (base importer specifier).parts, IsRealName name := by
  rw [base_eq hroot hreal h]
  intro name hname
  refine ⟨(Path.settles_walked _).2 name hname, ?_⟩
  have hmem := (Path.mem_foldl_pushPart (by simp) (List.mem_reverse.mp hname)).1.resolve_left (by simp)
  rcases List.mem_append.mp (List.mem_filter.mp hmem).1 with hmem | hmem
  · exact (Path.isRealName_parent hreal name hmem).2
  · exact Path.slashless_segments hmem

end Base

section Candidates

variable {base : Path}

-- The texts of the files that a base can stand for, in the order in which they are tried.
def spelled (base : Path) : List String :=
  (if Path.HasEnding base.name then [base.text] else [])
    ++ [".tsx", ".ts", ".jsx", ".js"].map (base.text ++ ·)
    ++ ["index.tsx", "index.ts", "index.jsx", "index.js"].map
      (base.text ++ (if base.parts = [] then "" else "/") ++ ·)

theorem map_text_candidates (h : base.isAbsolute = true) : (candidates base).map Path.text = spelled base := by
  have hexact : (if base.suffix = "" then [] else [base]).map Path.text =
      if Path.HasEnding base.name then [base.text] else [] := by
    by_cases hsuffix : base.suffix = ""
    · rw [if_pos hsuffix, if_neg fun hending => Path.suffixOf_ne_iff.mpr hending hsuffix, List.map_nil]
    · rw [if_neg hsuffix, if_pos (Path.suffixOf_ne_iff.mp hsuffix), List.map_singleton]
  rw [candidates, spelled, List.map_append, List.map_append, hexact]
  simp [tried, Path.text_withEnding h, Path.text_child h]

theorem isRealName_of_length {name : String} (hslash : Slashless name) (hlength : 2 < name.length) :
    IsRealName name := by
  refine ⟨⟨?_, ?_, ?_⟩, hslash⟩ <;> rintro rfl <;> exact absurd hlength (by decide)

theorem slashless_append {front rest : String} (hfront : Slashless front) (hrest : Slashless rest) :
    Slashless (front ++ rest) := by
  simpa [Slashless] using ⟨hfront, hrest⟩

-- The endings are long enough for no name with one to be a step.
theorem candidates_isRealName (hreal : ∀ name ∈ base.parts, IsRealName name) {path : Path}
    (h : path ∈ candidates base) : path.anchor = base.anchor ∧ ∀ name ∈ path.parts, IsRealName name := by
  have htried : ∀ ending ∈ tried, Slashless ending ∧ 2 < ending.length := by decide
  have hindex : ∀ ending ∈ tried, IsRealName ("index" ++ ending) := by decide
  rcases List.mem_append.mp h with h | h
  · rcases List.mem_append.mp h with h | h
    · split at h
      · cases h
      · cases List.mem_singleton.mp h
        exact ⟨rfl, hreal⟩
    · obtain ⟨ending, hending, rfl⟩ := List.mem_map.mp h
      obtain ⟨hslash, hlength⟩ := htried ending hending
      refine ⟨rfl, Path.isRealName_child (Path.isRealName_parent hreal) ?_⟩
      refine isRealName_of_length (slashless_append (Path.slashless_name hreal) hslash) ?_
      rw [String.length_append]
      omega
  · obtain ⟨ending, hending, rfl⟩ := List.mem_map.mp h
    exact ⟨rfl, Path.isRealName_child hreal (hindex ending hending)⟩

theorem candidates_eq (hroot : base.isAbsolute = true) (hreal : ∀ name ∈ base.parts, IsRealName name) :
    candidates base = (spelled base).map Path.ofString := by
  rw [← map_text_candidates hroot, List.map_map]
  refine (List.map_id _).symm.trans (List.map_congr_left fun path hpath => ?_)
  obtain ⟨hanchor, hnames⟩ := candidates_isRealName hreal hpath
  refine (Path.ofString_text ?_ hnames).symm
  rwa [Path.isAbsolute, hanchor]

theorem firstFile?_eq_find? {disk : Disk} {paths : List Path}
    (h : ∀ path ∈ paths, ∃ answer, disk.isFile path = .ok answer) :
    firstFile? disk paths = .ok (paths.find? fun path => disk.isFile path = .ok true) := by
  induction paths with
  | nil => rfl
  | cons first rest ih =>
      obtain ⟨⟨answer, hfirst⟩, hrest⟩ := List.forall_mem_cons.mp h
      cases answer <;> simp [firstFile?, hfirst, ih hrest]

end Candidates

section Way

-- How a file is written that is reached from a directory by going up some steps.
def wayText (ups : Nat) (down : List String) : String :=
  "/".intercalate ((if ups = 0 then ["."] else List.replicate ups "..") ++ down)

-- How a file is written in an import of a file in a directory.
def specifierTo (directory file : Path) : String :=
  let shared := (Path.sharedStart directory.parts file.parts).length
  wayText (directory.parts.length - shared) (file.parts.drop shared)

theorem exists_specifierTo_eq (directory file : Path) : ∃ shared up down,
    directory.parts = shared ++ up ∧ file.parts = shared ++ down ∧
      specifierTo directory file = wayText up.length down := by
  have hshared := Path.sharedStart_isPrefix directory.parts file.parts
  dsimp only [specifierTo]
  generalize Path.sharedStart directory.parts file.parts = shared at hshared ⊢
  obtain ⟨⟨up, hup⟩, ⟨down, hdown⟩⟩ := hshared
  refine ⟨shared, up, down, hup.symm, hdown.symm, ?_⟩
  rw [← hup, ← hdown, List.length_append, Nat.add_sub_cancel_left, List.drop_left]

variable {ups : Nat} {down : List String}

theorem isRelative_append {first : String} (h : isRelative first = true) (rest : String) :
    isRelative (first ++ rest) = true := by
  unfold isRelative at h ⊢
  cases hchars : first.toList with
  | nil => simp [hchars] at h
  | cons c cs => simpa [hchars] using h

theorem isRelative_wayText (ups : Nat) (down : List String) : isRelative (wayText ups down) = true := by
  have hfirst : ∃ first rest, isRelative first = true ∧
      (if ups = 0 then ["."] else List.replicate ups "..") ++ down = first :: rest := by
    cases ups with
    | zero => exact ⟨".", down, by decide, rfl⟩
    | succ ups => exact ⟨"..", List.replicate ups ".." ++ down, by decide, rfl⟩
  obtain ⟨first, rest, hrelative, hsteps⟩ := hfirst
  rw [wayText, hsteps]
  cases rest with
  | nil => simpa using hrelative
  | cons next rest =>
      rw [String.intercalate_cons_cons, String.append_assoc]
      exact isRelative_append hrelative _

theorem isRelative_specifierTo (directory file : Path) :
    isRelative (specifierTo directory file) = true :=
  isRelative_wayText _ _

theorem segments_wayText (hdown : ∀ name ∈ down, IsRealName name) :
    Path.segments (wayText ups down) =
      (if ups = 0 then ["."] else List.replicate ups "..") ++ down := by
  have hsteps : ∀ name ∈ (if ups = 0 then ["."] else List.replicate ups ".."), Slashless name := by
    split
    · decide
    · intro name hname
      rw [List.eq_of_mem_replicate hname]
      decide
  have hslash : ∀ name ∈ down, Slashless name := fun name hname => (hdown name hname).2
  refine Path.segments_intercalate ?_ (List.forall_mem_append.mpr ⟨hsteps, hslash⟩)
  by_cases hups : ups = 0 <;> simp [hups]

-- The way to a file settles in its names.
theorem settles_way {shared up : List String} (hup : ∀ name ∈ up, IsRealName name)
    (hfile : ∀ name ∈ shared ++ down, IsRealName name) :
    Path.Settles (shared ++ up ++ Path.segments (wayText up.length down)) (shared ++ down) := by
  have hdown : ∀ name ∈ down, IsRealName name := (List.forall_mem_append.mp hfile).2
  refine ⟨?_, fun name hname => (hfile name hname).1⟩
  rw [segments_wayText hdown]
  by_cases hnone : up = []
  · subst hnone
    simpa using .single (Path.Cancels.stay shared down (.inr rfl))
  · rw [if_neg (by simpa using hnone)]
    exact Path.reaches_replicate_up (fun name hname => (hup name hname).1) shared down

variable {importer file : Path}

theorem base_specifierTo (hroot : importer.isAbsolute = true)
    (hreal : ∀ name ∈ importer.parts, IsRealName name) (hanchor : file.anchor = importer.anchor)
    (hfile : ∀ name ∈ file.parts, IsRealName name) :
    base importer (specifierTo importer.parent file) = file := by
  obtain ⟨shared, up, down, hparent, hparts, hspecifier⟩ := exists_specifierTo_eq importer.parent file
  have hup : ∀ name ∈ up, IsRealName name :=
    (List.forall_mem_append.mp (hparent ▸ Path.isRealName_parent hreal)).2
  have hsettles := settles_way hup (hparts ▸ hfile)
  rw [← hparent, ← hspecifier] at hsettles
  rw [base_eq hroot hreal (isRelative_specifierTo importer.parent file), written,
    ← Path.settles_iff.mp hsettles, ← hparts, ← hanchor]

end Way

-- What a relative specifier in a file stands for: the first file among those that can be meant by
-- the settled way from the file's directory.
structure StandsFor (disk : Disk) (importer : Path) (specifier : String) (base : Path) : Prop where
  anchor_eq : base.anchor = importer.anchor
  settles_iff : ∀ names, Path.Settles (written importer specifier) names ↔ names = base.parts
  resolve?_eq : (∀ path ∈ (spelled base).map Path.ofString, ∃ answer, disk.isFile path = .ok answer) →
    resolve? disk importer specifier =
      .ok (((spelled base).map Path.ofString).find? fun path => disk.isFile path = .ok true)
  resolve?_eq_none_iff :
    (∀ path ∈ (spelled base).map Path.ofString, ∃ answer, disk.isFile path = .ok answer) →
    (resolve? disk importer specifier = .ok none ↔
      ∀ path ∈ (spelled base).map Path.ofString, disk.isFile path = .ok false)
  isRealName : ∀ path, resolve? disk importer specifier = .ok (some path) →
    path.anchor = importer.anchor ∧ ∀ name ∈ path.parts, IsRealName name

section Resolve

variable {importer : Path}

theorem base_standsFor (disk : Disk) (hroot : importer.isAbsolute = true)
    (hreal : ∀ name ∈ importer.parts, IsRealName name) {specifier : String}
    (hrelative : isRelative specifier = true) :
    StandsFor disk importer specifier (base importer specifier) := by
  have hbase := base_eq hroot hreal hrelative
  have hnames := isRealName_base hroot hreal hrelative
  have hanchor : (base importer specifier).anchor = importer.anchor := by rw [hbase]
  have habsolute : (base importer specifier).isAbsolute = true := by rwa [Path.isAbsolute, hanchor]
  have hcandidates := candidates_eq habsolute hnames
  have hresolve : resolve? disk importer specifier =
      firstFile? disk ((spelled (base importer specifier)).map Path.ofString) := by
    rw [resolve?, if_pos hrelative, hcandidates]
  constructor
  case anchor_eq => exact hanchor
  case settles_iff =>
    intro names
    rw [Path.settles_iff, hbase]
  case resolve?_eq =>
    intro hanswers
    rw [hresolve, firstFile?_eq_find? hanswers]
  case resolve?_eq_none_iff =>
    intro hanswers
    rw [hresolve, firstFile?_eq_find? hanswers, Except.ok.injEq, List.find?_eq_none]
    refine forall₂_congr fun path hpath => ?_
    obtain ⟨answer, hanswer⟩ := hanswers path hpath
    cases answer <;> simp [hanswer]
  case isRealName =>
    intro path hpath
    rw [hresolve, ← hcandidates] at hpath
    rw [← hanchor]
    exact candidates_isRealName hnames (firstFile?_eq_some hpath).1

-- A file with an ending is the first candidate for itself.
theorem resolve?_specifierTo {disk : Disk} {file : Path} (hroot : importer.isAbsolute = true)
    (hreal : ∀ name ∈ importer.parts, IsRealName name) (hanchor : file.anchor = importer.anchor)
    (hfile : ∀ name ∈ file.parts, IsRealName name) (hending : Path.HasEnding file.name)
    (hexists : disk.isFile file = .ok true) :
    resolve? disk importer (specifierTo importer.parent file) = .ok (some file) := by
  have hsuffix : file.suffix ≠ "" := Path.suffixOf_ne_iff.mpr hending
  rw [resolve?, if_pos (isRelative_specifierTo importer.parent file),
    base_specifierTo hroot hreal hanchor hfile, candidates, if_neg hsuffix]
  simp [firstFile?, hexists]

end Resolve

theorem resolve?_relative (disk : Disk) {importer : Path} (hroot : importer.isAbsolute = true)
    (hreal : ∀ name ∈ importer.parts, IsRealName name) :
    (∀ specifier, isRelative specifier = true → ∃ base, StandsFor disk importer specifier base) ∧
      ∀ file : Path, file.anchor = importer.anchor → (∀ name ∈ file.parts, IsRealName name) →
        Path.HasEnding file.name → disk.isFile file = .ok true →
        resolve? disk importer (specifierTo importer.parent file) = .ok (some file) := by
  constructor
  · intro specifier hrelative
    exact ⟨base importer specifier, base_standsFor disk hroot hreal hrelative⟩
  · intro file hanchor hfile hending hexists
    exact resolve?_specifierTo hroot hreal hanchor hfile hending hexists

namespace Shadowed

-- A file and a directory that the same specifier can mean.
def disk : Disk :=
  ⟨.dir .full [("app", .dir .full [
    ("theme", .dir .full [("index.tsx", .file (some []))]),
    ("theme.js", .file (some [])),
    ("ui", .dir .full [("Card.jsx", .file (some []))])])], [], []⟩

def importer : Path :=
  .absolute ["app", "ui", "Card.jsx"]

end Shadowed

theorem resolve?_relative_shadowed :
    (Shadowed.importer.isAbsolute = true ∧ ∀ name ∈ Shadowed.importer.parts, IsRealName name) ∧
      resolve? Shadowed.disk Shadowed.importer "..//./theme" = .ok (some (.absolute ["app", "theme.js"])) ∧
      resolve? Shadowed.disk Shadowed.importer "../theme/index.tsx" =
        .ok (some (.absolute ["app", "theme", "index.tsx"])) := by
  have hroot : Shadowed.importer.isAbsolute = true := by decide
  have hreal : ∀ name ∈ Shadowed.importer.parts, IsRealName name := by decide
  obtain ⟨hstands, hround⟩ := resolve?_relative Shadowed.disk hroot hreal
  refine ⟨⟨hroot, hreal⟩, ?_, ?_⟩
  · obtain ⟨base, hbase⟩ := hstands "..//./theme" (by decide)
    have hparts : ["app", "theme"] = base.parts :=
      (hbase.settles_iff _).mp (Path.settles_iff.mpr (by decide))
    obtain rfl : base = .absolute ["app", "theme"] := by
      cases base
      cases hbase.anchor_eq
      cases hparts
      rfl
    have hanswers : ∀ path ∈ (spelled (.absolute ["app", "theme"])).map Path.ofString,
        Shadowed.disk.isFile path = .ok true ∨ Shadowed.disk.isFile path = .ok false := by
      decide +kernel
    rw [hbase.resolve?_eq fun path hpath => (hanswers path hpath).elim (⟨true, ·⟩) (⟨false, ·⟩)]
    decide +kernel
  · exact hround (.absolute ["app", "theme", "index.tsx"]) rfl (by decide) (by decide) (by decide +kernel)

end PropFlow.ModuleLink
