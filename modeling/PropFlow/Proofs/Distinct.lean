import Mathlib.Data.List.Induction
import Mathlib.Data.List.Perm.Basic
import PropFlow.Proofs.Text.Separator

namespace List

variable {α β : Type} [BEq α] [LawfulBEq α] [BEq β] [LawfulBEq β]

theorem eraseDups_concat (xs : List α) (x : α) :
    (xs ++ [x]).eraseDups = if x ∈ xs then xs.eraseDups else xs.eraseDups ++ [x] := by
  rw [eraseDups_append]
  split
  · rename_i hmem
    simp [removeAll, hmem]
  · rename_i hmem
    simp [removeAll, hmem, eraseDups_cons]

theorem nodup_eraseDups (xs : List α) : xs.eraseDups.Nodup := by
  induction xs using reverseRecOn with
  | nil => exact nodup_nil
  | append_singleton xs x ih =>
      rw [eraseDups_concat]
      split
      · exact ih
      · rename_i hnew
        refine nodup_append.mpr ⟨ih, pairwise_singleton _ x, ?_⟩
        rintro y hy _ hx rfl
        rw [mem_eraseDups] at hy
        exact hnew (mem_singleton.mp hx ▸ hy)

theorem eraseDups_map {f : α → β} (hf : Function.Injective f) (xs : List α) :
    (xs.map f).eraseDups = xs.eraseDups.map f := by
  induction xs using reverseRecOn with
  | nil => rfl
  | append_singleton xs x ih =>
      rw [map_append, map_singleton, eraseDups_concat, eraseDups_concat, ih]
      by_cases hmem : x ∈ xs
      · rw [if_pos hmem, if_pos (mem_map_of_mem hmem)]
      · rw [if_neg hmem, if_neg (mt (mem_map_of_injective hf).mp hmem), map_append, map_singleton]

theorem Perm.eraseDups {xs ys : List α} (h : xs.Perm ys) : xs.eraseDups.Perm ys.eraseDups := by
  rw [perm_ext_iff_of_nodup (nodup_eraseDups xs) (nodup_eraseDups ys)]
  intro x
  rw [mem_eraseDups, mem_eraseDups, h.mem_iff]

theorem eraseDups_filter (p : α → Bool) (xs : List α) :
    (xs.filter p).eraseDups = xs.eraseDups.filter p := by
  induction xs using reverseRecOn with
  | nil => rfl
  | append_singleton xs x ih =>
      rw [filter_append, eraseDups_concat]
      by_cases hx : p x = true
      · rw [filter_cons_of_pos hx, filter_nil, eraseDups_concat, ih]
        by_cases hmem : x ∈ xs <;> simp [hmem, hx]
      · rw [filter_cons_of_neg hx, filter_nil, append_nil, ih]
        by_cases hmem : x ∈ xs <;> simp [hmem, hx]

theorem Nodup.eraseDups_eq {xs : List α} (h : xs.Nodup) : xs.eraseDups = xs := by
  induction xs using reverseRecOn with
  | nil => rfl
  | append_singleton xs x ih =>
      obtain ⟨hxs, -, hx⟩ := nodup_append.mp h
      have hnew : x ∉ xs := fun hmem => hx x hmem x mem_cons_self rfl
      rw [eraseDups_concat, if_neg hnew, ih hxs]

-- The list without repetitions is in the order of the first occurrences.
theorem pairwise_idxOf_eraseDups (xs : List α) :
    xs.eraseDups.Pairwise fun x y => xs.idxOf x < xs.idxOf y := by
  induction xs using reverseRecOn with
  | nil => exact .nil
  | append_singleton xs x ih =>
      have hplace : ∀ y ∈ xs.eraseDups, (xs ++ [x]).idxOf y = xs.idxOf y := by
        intro y hy
        rw [idxOf_append, if_pos (mem_eraseDups.mp hy)]
      have hfront : xs.eraseDups.Pairwise fun y z => (xs ++ [x]).idxOf y < (xs ++ [x]).idxOf z := by
        refine ih.imp_of_mem ?_
        intro y z hy hz hlt
        rwa [hplace y hy, hplace z hz]
      rw [eraseDups_concat]
      split
      · exact hfront
      · rename_i hnew
        refine pairwise_append.mpr ⟨hfront, pairwise_singleton _ x, ?_⟩
        intro y hy z hz
        rw [mem_singleton.mp hz, hplace y hy, idxOf_append, if_neg hnew]
        have hlt := idxOf_lt_length_of_mem (mem_eraseDups.mp hy)
        omega

-- What comes before an entry of the list without repetitions came before its first occurrence.
theorem exists_isPrefix_of_eraseDups {xs front : List α} {x : α} (h : front ++ [x] <+: xs.eraseDups) :
    ∃ before, before ++ [x] <+: xs ∧ before.eraseDups = front := by
  obtain ⟨rest, hrest⟩ := h
  have hmem : x ∈ xs := by
    rw [← mem_eraseDups, ← hrest]
    simp
  obtain ⟨before, after, rfl, hfirst⟩ := eq_append_cons_of_mem hmem
  refine ⟨before, ⟨after, by simp⟩, ?_⟩
  have hfront : x ∉ front := by
    have hnodup := nodup_eraseDups (before ++ x :: after)
    rw [← hrest, append_assoc, nodup_append] at hnodup
    intro hx
    exact hnodup.2.2 x hx x (by simp) rfl
  rw [eraseDups_append, removeAll, filter_cons_of_pos (by simpa using hfirst), eraseDups_cons,
    append_assoc, singleton_append] at hrest
  exact (append_separator_inj hfront (by simpa [mem_eraseDups] using hfirst) hrest).1.symm

end List
