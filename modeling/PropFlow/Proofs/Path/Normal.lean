import Mathlib.Data.List.TakeWhile
import Mathlib.Logic.Relation
import PropFlow.Proofs.Path.Location

namespace PropFlow.Path

section Settles

-- One step in settling the names of a path from the root. A name that leads nowhere drops out, a
-- step up drops out with the name that it takes back, and at the root there is nothing to take back.
inductive Cancels : List String → List String → Prop
  | stay {name : String} (front rest : List String) :
      name = "" ∨ name = "." → Cancels (front ++ name :: rest) (front ++ rest)
  | up {name : String} (front rest : List String) :
      Entry.IsName name → Cancels (front ++ name :: ".." :: rest) (front ++ rest)
  | top (rest : List String) : Cancels (".." :: rest) rest

-- What is left of some names when nothing can drop out any more.
def Settles (names settled : List String) : Prop :=
  Relation.ReflTransGen Cancels names settled ∧ ∀ name ∈ settled, Entry.IsName name

-- Whether a name leads anywhere.
def moves (name : String) : Bool :=
  name != "" && name != "."

-- The names that are kept, last name first.
def walked (names : List String) : List String :=
  (names.filter moves).foldl (pushPart true) []

variable {names settled : List String}

theorem moves_of_isName {name : String} (h : Entry.IsName name) : moves name = true := by
  simp [moves, h.1, h.2.1]

theorem pushPart_of_isName {name : String} (h : Entry.IsName name) (kept : List String) :
    pushPart true kept name = name :: kept :=
  if_neg h.2.2

theorem pushPart_up {name : String} (h : Entry.IsName name) (kept : List String) :
    pushPart true (name :: kept) ".." = kept := by
  simp [pushPart, h.2.2]

theorem Cancels.walked_eq (h : Cancels names settled) : walked names = walked settled := by
  cases h with
  | @stay name front rest hname =>
      have hstay : moves name = false := by rcases hname with rfl | rfl <;> rfl
      simp [walked, List.filter_append, hstay]
  | up front rest hname =>
      have hup : moves ".." = true := rfl
      simp [walked, List.filter_append, moves_of_isName hname, hup, pushPart_of_isName hname,
        pushPart_up hname]
  | top rest => rfl

theorem walked_eq_of_reaches (h : Relation.ReflTransGen Cancels names settled) :
    walked names = walked settled := by
  induction h with
  | refl => rfl
  | tail _ hstep ih => exact ih.trans hstep.walked_eq

theorem walked_of_isName (h : ∀ name ∈ names, Entry.IsName name) : walked names = names.reverse := by
  have hup : ".." ∉ names := fun hmem => (h ".." hmem).2.2 rfl
  rw [walked, List.filter_eq_self.mpr fun name hname => moves_of_isName (h name hname),
    foldl_pushPart hup, List.append_nil]

theorem reaches_filter_moves (front names : List String) :
    Relation.ReflTransGen Cancels (front ++ names) (front ++ names.filter moves) := by
  induction names generalizing front with
  | nil => exact .refl
  | cons name rest ih =>
      cases hname : moves name with
      | true =>
          rw [List.filter_cons_of_pos hname]
          simpa using ih (front ++ [name])
      | false =>
          rw [List.filter_cons_of_neg (by simp [hname])]
          refine .head (.stay front rest ?_) (ih front)
          simpa [moves, or_iff_not_imp_left] using hname

-- The names in front are the kept ones, so a step up meets them from behind.
theorem reaches_foldl_pushPart {kept : List String} (hkept : ∀ name ∈ kept, Entry.IsName name)
    (hmoves : ∀ name ∈ names, moves name = true) :
    Relation.ReflTransGen Cancels (kept.reverse ++ names) (names.foldl (pushPart true) kept).reverse ∧
      ∀ name ∈ names.foldl (pushPart true) kept, Entry.IsName name := by
  induction names generalizing kept with
  | nil => simpa using ⟨.refl, hkept⟩
  | cons name rest ih =>
      obtain ⟨hname, hrest⟩ := List.forall_mem_cons.mp hmoves
      by_cases hup : name = ".."
      · subst hup
        cases kept with
        | nil =>
            obtain ⟨hreach, hnames⟩ := ih hkept hrest
            exact ⟨.head (.top rest) hreach, hnames⟩
        | cons last kept =>
            obtain ⟨hlast, hkept⟩ := List.forall_mem_cons.mp hkept
            obtain ⟨hreach, hnames⟩ := ih hkept hrest
            rw [List.foldl_cons, pushPart_up hlast, List.reverse_cons, List.append_assoc]
            exact ⟨.head (.up kept.reverse rest hlast) hreach, hnames⟩
      · have hreal : Entry.IsName name := by
          simp only [moves, Bool.and_eq_true, bne_iff_ne] at hname
          exact ⟨hname.1, hname.2, hup⟩
        rw [List.foldl_cons, pushPart_of_isName hreal, List.append_cons, ← List.reverse_cons]
        exact ih (List.forall_mem_cons.mpr ⟨hreal, hkept⟩) hrest

theorem settles_walked (names : List String) : Settles names (walked names).reverse := by
  obtain ⟨hreach, hnames⟩ := reaches_foldl_pushPart (List.forall_mem_nil Entry.IsName)
    fun name (hname : name ∈ names.filter moves) => (List.mem_filter.mp hname).2
  exact ⟨(reaches_filter_moves [] names).trans hreach, by simpa [walked] using hnames⟩

-- Names settle in one way, whatever drops out first.
theorem settles_iff : Settles names settled ↔ settled = (walked names).reverse := by
  constructor
  · rintro ⟨hreach, hnames⟩
    rw [walked_eq_of_reaches hreach, walked_of_isName hnames, List.reverse_reverse]
  · rintro rfl
    exact settles_walked names

-- As many steps up as there are names take all of them back.
theorem reaches_replicate_up {up : List String} (hup : ∀ name ∈ up, Entry.IsName name)
    (front rest : List String) :
    Relation.ReflTransGen Cancels (front ++ up ++ (List.replicate up.length ".." ++ rest))
      (front ++ rest) := by
  induction up using List.reverseRecOn with
  | nil => simpa using .refl
  | append_singleton up last ih =>
      obtain ⟨hup, hlast⟩ := List.forall_mem_append.mp hup
      refine .head ?_ (ih hup)
      have hstep := Cancels.up (front ++ up) (List.replicate up.length ".." ++ rest)
        (hlast last (by simp))
      simpa [List.replicate_succ] using hstep

end Settles

section Text

variable {p : Path}

theorem text_of_isAbsolute (h : p.isAbsolute = true) :
    p.text = p.anchor.text ++ "/".intercalate p.parts := by
  obtain ⟨anchor, parts⟩ := p
  cases anchor with
  | relative => cases h
  | root => cases parts <;> rfl
  | doubleRoot => cases parts <;> rfl

theorem text_child (h : p.isAbsolute = true) (name : String) :
    (p.child name).text = p.text ++ (if p.parts = [] then "" else "/") ++ name := by
  have hchild : (p.child name).isAbsolute = true := h
  rw [text_of_isAbsolute h, text_of_isAbsolute hchild, child]
  by_cases hparts : p.parts = []
  · simp [hparts]
  · rw [String.intercalate_append_of_ne_nil hparts (by simp)]
    simp [hparts, String.append_assoc]

theorem child_parent (h : p.parts ≠ []) : p.parent.child p.name = p := by
  obtain ⟨anchor, parts⟩ := p
  obtain ⟨front, last, rfl⟩ := List.eq_nil_or_concat' parts |>.resolve_left h
  simp [child, parent, name]

theorem text_withEnding (h : p.isAbsolute = true) (ending : String) :
    (p.withEnding ending).text = p.text ++ ending := by
  have hparent : p.parent.isAbsolute = true := h
  by_cases hparts : p.parts = []
  · have hroot : p.parent.parts = [] := by simp [parent, hparts]
    have hname : p.name = "" := by simp [name, hparts]
    have htext : p.parent.text = p.text := by
      rw [text_of_isAbsolute hparent, text_of_isAbsolute h, hroot, hparts]
      rfl
    rw [withEnding, text_child hparent, htext, hname]
    simp [hroot]
  · calc (p.withEnding ending).text
        = (p.parent.child p.name).text ++ ending := by
          rw [withEnding, text_child hparent, text_child hparent, String.append_assoc, String.append_assoc,
            String.append_assoc]
      _ = p.text ++ ending := by rw [child_parent hparts]

theorem ofChars_slash_slash_cons {c : Char} {rest : List Char} (h : c ≠ '/') :
    Anchor.ofChars ('/' :: '/' :: c :: rest) = .doubleRoot := by
  unfold Anchor.ofChars
  split
  · rename_i heq
    cases heq
    exact absurd rfl h
  · rfl
  · rename_i hnot heq
    cases heq
    exact absurd rfl (hnot _)
  · rename_i hnot _
    exact absurd rfl (hnot _)

-- The text of a path that starts at the root is read as that path.
theorem ofString_text (h : p.isAbsolute = true) (hreal : ∀ name ∈ p.parts, IsRealName name) :
    ofString p.text = p := by
  obtain ⟨anchor, parts⟩ := p
  cases anchor with
  | relative => cases h
  | root => exact ofString_text_absolute hreal
  | doubleRoot =>
      have htext : (Path.mk .doubleRoot parts).text = "/" ++ (absolute parts).text := by
        rw [text_of_isAbsolute rfl, text_of_isAbsolute rfl, ← String.append_assoc]
        rfl
      have hparts : (ofString ("/" ++ (absolute parts).text)).parts = parts := by
        rw [parts_ofString_slash_append, ofString_text_absolute hreal, absolute]
      have hanchor : Anchor.ofChars ("/" ++ (absolute parts).text).toList = .doubleRoot := by
        cases parts with
        | nil => decide
        | cons first rest =>
            obtain ⟨c, cs, hcs, hc⟩ := exists_intercalate_eq_cons (hreal first List.mem_cons_self) rest
            rw [String.toList_append, toList_text_absolute, hcs]
            exact ofChars_slash_slash_cons hc
      rw [htext]
      exact congrArg₂ Path.mk hanchor hparts

end Text

section Names

variable {p : Path} (hreal : ∀ name ∈ p.parts, IsRealName name)

include hreal

theorem isRealName_parent : ∀ name ∈ p.parent.parts, IsRealName name :=
  fun name hname => hreal name (List.dropLast_subset _ hname)

theorem isRealName_child {last : String} (hlast : IsRealName last) :
    ∀ name ∈ (p.child last).parts, IsRealName name :=
  List.forall_mem_append.mpr ⟨hreal, List.forall_mem_singleton.mpr hlast⟩

theorem slashless_name : Slashless p.name := by
  unfold name
  cases hlast : p.parts.getLast? with
  | none => decide
  | some last => exact (hreal last (List.mem_of_getLast? hlast)).2

end Names

section Ending

-- A name with something behind its last dot and something before it.
def HasEnding (name : String) : Prop :=
  ∃ stem ending : String, name = stem ++ "." ++ ending ∧ stem ≠ "" ∧ ending ≠ "" ∧ '.' ∉ ending.toList

theorem suffixOf_append_ne_iff {stem ending : String} (h : '.' ∉ ending.toList) :
    suffixOf (stem ++ "." ++ ending) ≠ "" ↔ stem ≠ "" ∧ ending ≠ "" := by
  have hreverse : (stem ++ "." ++ ending).toList.reverse =
      ending.toList.reverse ++ '.' :: stem.toList.reverse := by
    simp
  have hpassed : ∀ c ∈ ending.toList.reverse, decide (c ≠ '.') = true := by
    intro c hc
    simpa using fun heq : c = '.' => h (heq ▸ List.mem_reverse.mp hc)
  have htake : (ending.toList.reverse ++ '.' :: stem.toList.reverse).takeWhile (· ≠ '.') =
      ending.toList.reverse := by
    rw [List.takeWhile_append_of_pos hpassed, List.takeWhile_cons_of_neg (by simp), List.append_nil]
  have hdrop : (ending.toList.reverse ++ '.' :: stem.toList.reverse).dropWhile (· ≠ '.') =
      '.' :: stem.toList.reverse := by
    rw [List.dropWhile_append_of_pos hpassed, List.dropWhile_cons_of_neg (by simp)]
  simp only [suffixOf, hreverse, htake, hdrop]
  by_cases hstem : stem = "" <;> by_cases hending : ending = "" <;> simp [hstem, hending]

theorem suffixOf_of_notMem {name : String} (h : '.' ∉ name.toList) : suffixOf name = "" := by
  have hdrop : name.toList.reverse.dropWhile (· ≠ '.') = [] := by
    rw [List.dropWhile_eq_nil_iff]
    simpa using fun c hc (heq : c = '.') => h (heq ▸ hc)
  simp only [suffixOf, hdrop]
  simp

theorem suffixOf_ne_iff {name : String} : suffixOf name ≠ "" ↔ HasEnding name := by
  constructor
  · intro hne
    have hdot : '.' ∈ name.toList.reverse := by
      by_contra hdot
      exact hne (suffixOf_of_notMem (mt List.mem_reverse.mpr hdot))
    obtain ⟨after, before, hsplit, hafter⟩ := List.eq_append_cons_of_mem hdot
    have hname : name = String.ofList before.reverse ++ "." ++ String.ofList after.reverse := by
      apply String.toList_inj.mp
      simpa using congrArg List.reverse hsplit
    have hlast : '.' ∉ (String.ofList after.reverse).toList := by simpa using hafter
    rw [hname, suffixOf_append_ne_iff hlast] at hne
    exact ⟨_, _, hname, hne.1, hne.2, hlast⟩
  · rintro ⟨stem, ending, rfl, hstem, hending, hlast⟩
    exact (suffixOf_append_ne_iff hlast).mpr ⟨hstem, hending⟩

instance (name : String) : Decidable (HasEnding name) :=
  decidable_of_iff _ suffixOf_ne_iff

end Ending

end PropFlow.Path
