import Mathlib.Data.List.Infix
import PropFlow.Path.Location
import PropFlow.Proofs.FileTree.Names

namespace PropFlow.Path

-- The text of a path from the root to a file, without steps and with single slashes.
def IsFilePath (file : String) : Prop :=
  ∃ names, names ≠ [] ∧ (∀ name ∈ names, IsRealName name) ∧ file = (absolute names).text

section Directory

theorem toList_text_concat (names : List String) (last : String) :
    (absolute (names ++ [last])).text.toList =
      (if names = [] then ['/'] else (absolute names).text.toList ++ ['/']) ++ last.toList := by
  cases names with
  | nil => simp [toList_text_absolute]
  | cons first rest =>
      simp only [toList_text_absolute, List.cons_append, List.map_cons, List.map_append,
        List.map_nil, reduceCtorEq, if_false]
      induction rest generalizing first with
      | nil => simp [List.intercalate_cons_cons]
      | cons next rest ih => simpa [List.intercalate_cons_cons] using ih next

variable {names : List String} {last : String}

theorem exists_reverse_of_isRealName (h : IsRealName last) :
    ∃ c cs, last.toList.reverse = c :: cs ∧ c ≠ '/' := by
  obtain ⟨⟨hempty, -⟩, hslash⟩ := h
  have hne : last.toList.reverse ≠ [] := by simpa using hempty
  obtain ⟨c, cs, hcs⟩ := List.exists_cons_of_ne_nil hne
  refine ⟨c, cs, hcs, ?_⟩
  rintro rfl
  have hmem : '/' ∈ last.toList.reverse := by simp [hcs]
  exact hslash (List.mem_reverse.mp hmem)

-- Below the root no text of a path ends in a slash.
theorem dropWhile_reverse_text (hne : names ≠ []) (h : ∀ name ∈ names, IsRealName name) :
    (absolute names).text.toList.reverse.dropWhile (· = '/') = (absolute names).text.toList.reverse := by
  obtain ⟨front, last, rfl⟩ := List.eq_nil_or_concat' names |>.resolve_left hne
  obtain ⟨c, cs, hcs, hc⟩ := exists_reverse_of_isRealName (h last (by simp))
  rw [toList_text_concat, List.reverse_append, hcs, List.cons_append,
    List.dropWhile_cons_of_neg (by simpa using hc)]

theorem directory_text (h : ∀ name ∈ names ++ [last], IsRealName name) :
    directory (absolute (names ++ [last])).text = (absolute names).text := by
  have hlast : Slashless last := (h last (by simp)).2
  have hpassed : ∀ c ∈ last.toList.reverse, decide (c ≠ '/') = true := by
    intro c hc
    rw [List.mem_reverse] at hc
    simpa using fun heq : c = '/' => hlast (heq ▸ hc)
  unfold directory
  rw [toList_text_concat, List.reverse_append, List.dropWhile_append_of_pos hpassed]
  by_cases hne : names = []
  · subst hne
    decide
  · have hreal : ∀ name ∈ names, IsRealName name := fun name hname => h name (by simp [hname])
    have hstripped : (((absolute names).text.toList ++ ['/']).reverse.dropWhile (· = '/')).reverse =
        (absolute names).text.toList := by
      simp [dropWhile_reverse_text hne hreal]
    have hhead : (((absolute names).text.toList ++ ['/']).reverse.dropWhile (· ≠ '/')).reverse =
        (absolute names).text.toList ++ ['/'] := by
      simp
    have hbelow : (absolute names).text.toList.isEmpty = false := by
      simp [toList_text_absolute]
    simp only [if_neg hne, hhead, hstripped, hbelow]
    simp

theorem startsAtRoot_text (names : List String) : startsAtRoot (absolute names).text = true := by
  simp [startsAtRoot, toList_text_absolute]

end Directory

section Shared

theorem sharedStart_isPrefix (xs ys : List String) :
    sharedStart xs ys <+: xs ∧ sharedStart xs ys <+: ys := by
  induction xs generalizing ys with
  | nil => simp [sharedStart]
  | cons x xs ih =>
      cases ys with
      | nil => simp [sharedStart]
      | cons y ys =>
          unfold sharedStart
          split
          · rename_i heq
            subst heq
            simpa [List.cons_prefix_cons] using ih ys
          · simp

theorem isPrefix_sharedStart {xs ys zs : List String} (hx : zs <+: xs) (hy : zs <+: ys) :
    zs <+: sharedStart xs ys := by
  obtain ⟨as, rfl⟩ := hx
  obtain ⟨bs, rfl⟩ := hy
  induction zs with
  | nil => exact List.nil_prefix
  | cons z zs ih =>
      simp only [List.cons_append, sharedStart, if_true]
      exact List.cons_prefix_cons.mpr ⟨rfl, ih⟩

theorem sharedStart_append (xs ys : List String) : sharedStart xs (xs ++ ys) = xs := by
  induction xs with
  | nil => simp [sharedStart]
  | cons x xs ih => simp [sharedStart, ih]

theorem foldl_sharedStart_isPrefix (parts : List String) (rest : List (List String)) :
    rest.foldl sharedStart parts <+: parts ∧ ∀ xs ∈ rest, rest.foldl sharedStart parts <+: xs := by
  induction rest generalizing parts with
  | nil => simp
  | cons next rest ih =>
      obtain ⟨hstart, hrest⟩ := ih (sharedStart parts next)
      obtain ⟨hparts, hnext⟩ := sharedStart_isPrefix parts next
      exact ⟨hstart.trans hparts, List.forall_mem_cons.mpr ⟨hstart.trans hnext, hrest⟩⟩

theorem commonParts_isPrefix {lists : List (List String)} {xs : List String} (h : xs ∈ lists) :
    commonParts lists <+: xs := by
  cases lists with
  | nil => cases h
  | cons parts rest =>
      obtain ⟨hparts, hrest⟩ := foldl_sharedStart_isPrefix parts rest
      rcases List.mem_cons.mp h with rfl | h
      · exact hparts
      · exact hrest xs h

theorem isPrefix_foldl_sharedStart {parts xs : List String} {rest : List (List String)}
    (hparts : xs <+: parts) (hrest : ∀ ys ∈ rest, xs <+: ys) : xs <+: rest.foldl sharedStart parts := by
  induction rest generalizing parts with
  | nil => exact hparts
  | cons next rest ih =>
      obtain ⟨hnext, hrest⟩ := List.forall_mem_cons.mp hrest
      exact ih (isPrefix_sharedStart hparts hnext) hrest

theorem isPrefix_commonParts {lists : List (List String)} {xs : List String} (hne : lists ≠ [])
    (h : ∀ ys ∈ lists, xs <+: ys) : xs <+: commonParts lists := by
  obtain ⟨parts, rest, rfl⟩ := List.exists_cons_of_ne_nil hne
  obtain ⟨hparts, hrest⟩ := List.forall_mem_cons.mp h
  exact isPrefix_foldl_sharedStart hparts hrest

end Shared

section Settled

theorem foldl_pushPart {names : List String} (h : ".." ∉ names) (atRoot : Bool) (kept : List String) :
    names.foldl (pushPart atRoot) kept = names.reverse ++ kept := by
  induction names generalizing kept with
  | nil => rfl
  | cons name rest ih =>
      obtain ⟨hname, hrest⟩ := not_or.mp (mt List.mem_cons.mpr h)
      have hpush : pushPart atRoot kept name = name :: kept := by simp [pushPart, Ne.symm hname]
      rw [List.foldl_cons, hpush, ih hrest]
      simp

-- There is nothing to settle in a path of real names, wherever one is.
theorem settled_text (cwd : List String) {names : List String} (h : ∀ name ∈ names, IsRealName name) :
    settled cwd (absolute names).text = names := by
  have hup : ".." ∉ names := fun hmem => (h ".." hmem).1.2.2 rfl
  unfold settled
  rw [ofString_text_absolute h]
  simp [absolute, isAbsolute, normalize, foldl_pushPart hup]

end Settled

-- A file with the names that lead to it from a directory.
structure LiesBelow (base : List String) (file : String) (rest : List String) : Prop where
  ne_nil : rest ≠ []
  isRealName : ∀ name ∈ base ++ rest, IsRealName name
  file_eq : file = (absolute (base ++ rest)).text

namespace LiesBelow

variable {base rest rest' : List String} {file other : String}

theorem isRealName_rest (h : LiesBelow base file rest) : ∀ name ∈ rest, IsRealName name :=
  fun name hname => h.isRealName name (List.mem_append_right base hname)

theorem relativeTo_eq (h : LiesBelow base file rest) (cwd : List String) :
    relativeTo cwd (absolute base) file = .ok ("/".intercalate rest) := by
  have hbase : ∀ name ∈ base, IsRealName name := fun name hname => h.isRealName name (by simp [hname])
  have hne : file ≠ "" := by
    rintro rfl
    have hlist := congrArg String.toList h.file_eq
    simp [toList_text_absolute] at hlist
  unfold relativeTo
  rw [if_neg hne, h.file_eq, settled_text cwd h.isRealName, settled_text cwd hbase]
  obtain ⟨first, more, rfl⟩ := List.exists_cons_of_ne_nil h.ne_nil
  simp [sharedStart_append, text, Anchor.text]

-- The way from a directory leads to one file.
theorem file_inj (h : LiesBelow base file rest) (h' : LiesBelow base other rest')
    (hsame : "/".intercalate rest = "/".intercalate rest') : file = other := by
  have hrest : rest = rest' := by
    apply text_absolute_inj h.isRealName_rest h'.isRealName_rest
    rw [text_absolute, text_absolute, hsame]
  rw [h.file_eq, h'.file_eq, hrest]

end LiesBelow

section Common

theorem IsFilePath.exists_directory {file : String} (h : IsFilePath file) :
    ∃ names last, (∀ name ∈ names ++ [last], IsRealName name) ∧
      file = (absolute (names ++ [last])).text ∧ directory file = (absolute names).text := by
  obtain ⟨names, hne, hreal, rfl⟩ := h
  obtain ⟨front, last, rfl⟩ := List.eq_nil_or_concat' names |>.resolve_left hne
  exact ⟨front, last, hreal, rfl, directory_text hreal⟩

theorem parent_ofString_text {names : List String} {last : String}
    (h : ∀ name ∈ names ++ [last], IsRealName name) :
    (ofString (absolute (names ++ [last])).text).parent = absolute names := by
  rw [ofString_text_absolute h]
  simp [absolute, parent]

theorem IsFilePath.ofString_directory {file : String} (h : IsFilePath file) :
    ofString (directory file) = (ofString file).parent := by
  obtain ⟨names, last, hreal, hfile, hdirectory⟩ := h.exists_directory
  have hnames : ∀ name ∈ names, IsRealName name := fun name hname => hreal name (by simp [hname])
  rw [hdirectory, hfile, parent_ofString_text hreal, ofString_text_absolute hnames]

variable {files : List String} (h : ∀ file ∈ files, IsFilePath file)
include h

-- The names that lead to all of the directories of some files.
theorem common_directories : common (files.map directory) =
    .ok (absolute (commonParts (files.map fun file => (ofString file).parent.parts))) := by
  have hroot : (files.map directory).all startsAtRoot = true := by
    simp only [List.all_eq_true, List.forall_mem_map]
    intro file hfile
    obtain ⟨names, last, -, -, hdirectory⟩ := (h file hfile).exists_directory
    rw [hdirectory, startsAtRoot_text]
  have hparts : (files.map directory).map (fun d => (ofString d).parts) =
      files.map fun file => (ofString file).parent.parts := by
    rw [List.map_map]
    apply List.map_congr_left
    intro file hfile
    rw [Function.comp_apply, (h file hfile).ofString_directory]
  simp only [common, hroot, hparts, if_true, absolute]

-- There is a directory that all files lie below.
theorem exists_common :
    ∃ base, common (files.map directory) = .ok (absolute base) ∧
      ∀ file ∈ files, ∃ rest, LiesBelow base file rest := by
  refine ⟨_, common_directories h, ?_⟩
  intro file hfile
  obtain ⟨names, last, hreal, heq, -⟩ := (h file hfile).exists_directory
  have hnames : (ofString file).parent.parts = names := by
    rw [heq, parent_ofString_text hreal, absolute]
  obtain ⟨between, hbetween⟩ := commonParts_isPrefix
    (List.mem_map_of_mem (f := fun file => (ofString file).parent.parts) hfile)
  have hsplit := congrArg (· ++ [last]) (hbetween.trans hnames)
  simp only [List.append_assoc] at hsplit
  exact ⟨between ++ [last], by simp, hsplit ▸ hreal, hsplit ▸ heq⟩

end Common

end PropFlow.Path
