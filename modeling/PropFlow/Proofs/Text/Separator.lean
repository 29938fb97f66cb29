import Mathlib.Data.List.Basic

-- A text in front of the first separator can be told from what follows it.
theorem List.append_separator_inj {α : Type} {separator : α} {xs ys us vs : List α}
    (hxs : separator ∉ xs) (hys : separator ∉ ys)
    (h : xs ++ separator :: us = ys ++ separator :: vs) : xs = ys ∧ us = vs := by
  induction xs generalizing ys with
  | nil =>
      cases ys with
      | nil => exact ⟨rfl, (List.cons.inj h).2⟩
      | cons y rest => exact absurd (List.cons.inj h).1 fun heq => hys (by simp [heq])
  | cons x rest ih =>
      cases ys with
      | nil => exact absurd (List.cons.inj h).1 fun heq => hxs (by simp [heq])
      | cons y others =>
          obtain ⟨rfl, htail⟩ := List.cons.inj h
          obtain ⟨rfl, rfl⟩ := ih (fun hmem => hxs (List.mem_cons_of_mem _ hmem))
            (fun hmem => hys (List.mem_cons_of_mem _ hmem)) htail
          exact ⟨rfl, rfl⟩

-- What stands in joined pieces is a separator or stands in a piece.
theorem List.eq_or_mem_of_mem_intercalate {α : Type} {separator x : α} {pieces : List (List α)}
    (h : x ∈ [separator].intercalate pieces) : x = separator ∨ ∃ piece ∈ pieces, x ∈ piece := by
  induction pieces with
  | nil => simp at h
  | cons piece rest ih =>
      cases rest with
      | nil =>
          rw [intercalate_singleton] at h
          exact .inr ⟨piece, mem_cons_self, h⟩
      | cons next others =>
          rw [intercalate_cons_cons, append_assoc, mem_append, singleton_append, mem_cons] at h
          rcases h with h | rfl | h
          · exact .inr ⟨piece, mem_cons_self, h⟩
          · exact .inl rfl
          · rcases ih h with rfl | ⟨other, hother, hx⟩
            · exact .inl rfl
            · exact .inr ⟨other, mem_cons_of_mem _ hother, hx⟩

theorem List.mem_of_mem_splitOn {α : Type} [BEq α] [LawfulBEq α] {separator x : α} {xs piece : List α}
    (hpiece : piece ∈ xs.splitOn separator) (hx : x ∈ piece) : x ∈ xs ∧ x ≠ separator := by
  induction xs generalizing piece with
  | nil =>
      rw [splitOn_nil, mem_singleton] at hpiece
      subst hpiece
      cases hx
  | cons y rest ih =>
      rw [splitOn_cons_eq_if_modifyHead] at hpiece
      split at hpiece
      · rcases mem_cons.mp hpiece with rfl | hpiece
        · cases hx
        · obtain ⟨hmem, hne⟩ := ih hpiece hx
          exact ⟨mem_cons_of_mem _ hmem, hne⟩
      · rename_i hy
        cases hsplit : rest.splitOn separator with
        | nil => exact absurd hsplit (splitOn_ne_nil separator rest)
        | cons first others =>
            rw [hsplit, modifyHead_cons] at hpiece
            rw [hsplit] at ih
            rcases mem_cons.mp hpiece with rfl | hpiece
            · rcases mem_cons.mp hx with rfl | hx
              · exact ⟨mem_cons_self, by simpa using hy⟩
              · obtain ⟨hmem, hne⟩ := ih mem_cons_self hx
                exact ⟨mem_cons_of_mem _ hmem, hne⟩
            · obtain ⟨hmem, hne⟩ := ih (mem_cons_of_mem _ hpiece) hx
              exact ⟨mem_cons_of_mem _ hmem, hne⟩

namespace PropFlow.Text

-- Names without a dash can be read off what starts with them and a dash.
theorem eq_of_append_dash {a b x y : String} (ha : '-' ∉ a.toList) (hb : '-' ∉ b.toList)
    (h : a ++ "-" ++ x = b ++ "-" ++ y) : a = b := by
  have hlists := congrArg String.toList h
  simp only [String.toList_append, List.append_assoc] at hlists
  exact String.toList_inj.mp (List.append_separator_inj ha hb hlists).1

end PropFlow.Text
