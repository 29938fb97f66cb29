import PropFlow.FileTree.Lookup

namespace PropFlow.Entry

mutual
-- The files and links of a tree with their places.
def leaves : Entry → List (List String × Entry)
  | .file bytes => [([], .file bytes)]
  | .link target => [([], .link target)]
  | .dir _ entries => leavesAll entries

def leavesAll : List (String × Entry) → List (List String × Entry)
  | [] => []
  | (name, entry) :: rest =>
    (leaves entry).map (fun leaf => (name :: leaf.1, leaf.2)) ++ leavesAll rest
end

def sortLink : Entry → Bool
  | .link _ => true
  | _ => false

theorem mem_leavesAll {name : String} {entry : Entry} {entries : List (String × Entry)}
    (h : entries.lookup name = some entry) {leaf : List String × Entry} (hleaf : leaf ∈ entry.leaves) :
    (name :: leaf.1, leaf.2) ∈ leavesAll entries := by
  induction entries with
  | nil => simp at h
  | cons first rest ih =>
      obtain ⟨other, old⟩ := first
      rw [leavesAll, List.mem_append]
      rw [List.lookup_cons] at h
      by_cases hname : name = other
      · subst hname
        obtain rfl : old = entry := by simpa using h
        exact .inl (List.mem_map_of_mem hleaf)
      · have hne : (name == other) = false := by simpa using hname
        exact .inr (ih (by simpa [hne] using h))

-- Every file and every link is a leaf at its place.
theorem mem_leaves {top : Entry} {names : List String} {entry : Entry}
    (h : top.get? names = some entry) (hentry : ([], entry) ∈ entry.leaves) :
    (names, entry) ∈ top.leaves := by
  induction names generalizing top with
  | nil =>
      obtain rfl : top = entry := by simpa [get?] using h
      exact hentry
  | cons name rest ih =>
      cases top with
      | file => simp [get?] at h
      | link => simp [get?] at h
      | dir listable entries =>
          rw [leaves]
          simp only [get?] at h
          split at h
          · rename_i child hchild
            exact mem_leavesAll hchild (ih h)
          · cases h

mutual
theorem fileCount_eq : (entry : Entry) → entry.fileCount = entry.leaves.countP (sortFile ·.2)
  | .file _ => rfl
  | .link _ => rfl
  | .dir _ entries => by rw [fileCount, leaves, fileCountAll_eq entries]

theorem fileCountAll_eq : (entries : List (String × Entry)) →
    fileCountAll entries = (leavesAll entries).countP (sortFile ·.2)
  | [] => rfl
  | (_, entry) :: rest => by
    rw [fileCountAll, leavesAll, List.countP_append, List.countP_map, fileCount_eq entry,
      fileCountAll_eq rest]
    rfl
end

mutual
theorem linkCount_eq : (entry : Entry) → entry.linkCount = entry.leaves.countP (sortLink ·.2)
  | .file _ => rfl
  | .link _ => rfl
  | .dir _ entries => by rw [linkCount, leaves, linkCountAll_eq entries]

theorem linkCountAll_eq : (entries : List (String × Entry)) →
    linkCountAll entries = (leavesAll entries).countP (sortLink ·.2)
  | [] => rfl
  | (_, entry) :: rest => by
    rw [linkCountAll, leavesAll, List.countP_append, List.countP_map, linkCount_eq entry,
      linkCountAll_eq rest]
    rfl
end

-- How many leaves of a sort are at places that have not been seen.
def unseen (top : Entry) (sort : Entry → Bool) (seen : List String → Prop) [DecidablePred seen] : Nat :=
  top.leaves.countP fun leaf => sort leaf.2 && !decide (seen leaf.1)

section Unseen

variable {top : Entry} {sort : Entry → Bool} {seen seen' : List String → Prop} [DecidablePred seen]
  [DecidablePred seen']

theorem unseen_le_countP : top.unseen sort seen ≤ top.leaves.countP (sort ·.2) := by
  apply List.countP_mono_left
  intro leaf _ h
  exact (Bool.and_eq_true_iff.mp h).1

private theorem countP_unseen_le (sort : Entry → Bool) (h : ∀ names, seen names → seen' names)
    (l : List (List String × Entry)) :
    l.countP (fun leaf => sort leaf.2 && !decide (seen' leaf.1)) ≤
      l.countP (fun leaf => sort leaf.2 && !decide (seen leaf.1)) := by
  apply List.countP_mono_left
  intro leaf _ hleaf
  simp only [Bool.and_eq_true, Bool.not_eq_true', decide_eq_false_iff_not] at hleaf ⊢
  exact ⟨hleaf.1, fun hs => hleaf.2 (h _ hs)⟩

theorem unseen_le (h : ∀ names, seen names → seen' names) :
    top.unseen sort seen' ≤ top.unseen sort seen :=
  countP_unseen_le sort h top.leaves

-- Seeing a leaf that was not seen leaves fewer of them.
theorem unseen_lt (h : ∀ names, seen names → seen' names) {leaf : List String × Entry}
    (hleaf : leaf ∈ top.leaves) (hsort : sort leaf.2 = true) (hnew : ¬seen leaf.1)
    (hseen : seen' leaf.1) : top.unseen sort seen' < top.unseen sort seen := by
  obtain ⟨before, after, hsplit⟩ := List.append_of_mem hleaf
  have hbefore := countP_unseen_le sort h before
  have hafter := countP_unseen_le sort h after
  simp only [unseen, hsplit, List.countP_append, List.countP_cons, hsort, hnew, hseen, decide_true,
    decide_false, Bool.not_true, Bool.not_false, Bool.and_true, Bool.and_false, ite_true,
    Bool.false_eq_true, ite_false]
  omega

theorem seen_of_unseen_eq_zero (h : top.unseen sort seen = 0) {leaf : List String × Entry}
    (hleaf : leaf ∈ top.leaves) (hsort : sort leaf.2 = true) : seen leaf.1 := by
  have hnot := List.countP_eq_zero.mp h leaf hleaf
  simpa [hsort] using hnot

end Unseen

end PropFlow.Entry
