namespace Except

variable {ε α β : Type}

theorem bind_eq_ok {x : Except ε α} {f : α → Except ε β} {b : β} :
    x >>= f = .ok b ↔ ∃ a, x = .ok a ∧ f a = .ok b := by
  cases x <;> simp [bind, Except.bind]

theorem map_eq_ok {x : Except ε α} {f : α → β} {b : β} :
    x.map f = .ok b ↔ ∃ a, x = .ok a ∧ f a = b := by
  cases x <;> simp [Except.map]

theorem map_eq_error {x : Except ε α} {f : α → β} {e : ε} : x.map f = .error e ↔ x = .error e := by
  cases x <;> simp [Except.map]

theorem exists_of_toOption_map {x : Except ε α} {f : α → β} {b : β}
    (h : x.toOption.map f = some b) : ∃ a, x = .ok a ∧ f a = b := by
  cases x with
  | error e => cases h
  | ok a => exact ⟨a, rfl, Option.some.inj h⟩

end Except

namespace List

variable {ε α β : Type}

theorem foldlM_cons_eq_ok {f : β → α → Except ε β} {x : α} {xs : List α} {s t : β} :
    (x :: xs).foldlM f s = .ok t ↔ ∃ m, f s x = .ok m ∧ xs.foldlM f m = .ok t := by
  rw [List.foldlM_cons]
  exact Except.bind_eq_ok

theorem exists_foldlM_eq_ok {f : β → α → Except ε β} {xs : List α}
    (h : ∀ s, ∀ x ∈ xs, ∃ t, f s x = .ok t) (s : β) : ∃ t, xs.foldlM f s = .ok t := by
  induction xs generalizing s with
  | nil => exact ⟨s, rfl⟩
  | cons x rest ih =>
      obtain ⟨mid, hmid⟩ := h s x List.mem_cons_self
      obtain ⟨t, ht⟩ := ih (fun s y hy => h s y (List.mem_cons_of_mem _ hy)) mid
      exact ⟨t, foldlM_cons_eq_ok.mpr ⟨mid, hmid, ht⟩⟩

theorem exists_of_foldlM_eq_error {f : β → α → Except ε β} {xs : List α} {s : β} {e : ε}
    (h : xs.foldlM f s = .error e) : ∃ mid, ∃ x ∈ xs, f mid x = .error e := by
  induction xs generalizing s with
  | nil => cases h
  | cons x rest ih =>
      rw [List.foldlM_cons] at h
      cases hx : f s x with
      | error e' =>
          rw [hx] at h
          cases h
          exact ⟨s, x, List.mem_cons_self, hx⟩
      | ok mid =>
          rw [hx] at h
          obtain ⟨mid', y, hy, hfails⟩ := ih h
          exact ⟨mid', y, List.mem_cons_of_mem _ hy, hfails⟩

theorem mapM_eq_ok {f : α → Except ε β} {g : α → β} {xs : List α} (h : ∀ x ∈ xs, f x = .ok (g x)) :
    xs.mapM f = .ok (xs.map g) := by
  induction xs with
  | nil => rfl
  | cons x rest ih =>
      obtain ⟨hx, hrest⟩ := forall_mem_cons.mp h
      rw [mapM_cons, hx, ih hrest]
      rfl

-- Only a step that fails makes the whole fail.
theorem exists_of_mapM_eq_error {f : α → Except ε β} {xs : List α} {e : ε}
    (h : xs.mapM f = .error e) : ∃ x ∈ xs, f x = .error e := by
  induction xs with
  | nil => cases h
  | cons x rest ih =>
      rw [mapM_cons] at h
      cases hx : f x with
      | error e' =>
          rw [hx] at h
          cases h
          exact ⟨x, mem_cons_self, hx⟩
      | ok y =>
          cases hrest : rest.mapM f with
          | error e' =>
              rw [hx, hrest] at h
              cases h
              obtain ⟨x', hx', hfails⟩ := ih hrest
              exact ⟨x', mem_cons_of_mem _ hx', hfails⟩
          | ok ys =>
              rw [hx, hrest] at h
              cases h

theorem exists_of_mapM_eq_ok {f : α → Except ε β} {xs : List α} {ys : List β}
    (h : xs.mapM f = .ok ys) {x : α} (hx : x ∈ xs) : ∃ y ∈ ys, f x = .ok y := by
  induction xs generalizing ys with
  | nil => cases hx
  | cons first rest ih =>
      rw [mapM_cons] at h
      obtain ⟨y, hfirst, h⟩ := Except.bind_eq_ok.mp h
      obtain ⟨zs, hrest, h⟩ := Except.bind_eq_ok.mp h
      cases h
      rcases mem_cons.mp hx with rfl | hx
      · exact ⟨y, mem_cons_self, hfirst⟩
      · obtain ⟨z, hz, hother⟩ := ih hrest hx
        exact ⟨z, mem_cons_of_mem _ hz, hother⟩

theorem mapM_map_congr {γ : Type} {f : α → γ} {g : γ → Except ε β} {g' : α → Except ε β} {xs : List α}
    (h : ∀ x ∈ xs, g (f x) = g' x) : (xs.map f).mapM g = xs.mapM g' := by
  induction xs with
  | nil => rfl
  | cons x rest ih =>
      obtain ⟨hx, hrest⟩ := forall_mem_cons.mp h
      rw [map_cons, mapM_cons, mapM_cons, hx, ih hrest]

-- Each value comes from an input for which the step did not fail.
theorem exists_of_mem_mapM {f : α → Except ε β} {xs : List α} {ys : List β}
    (h : xs.mapM f = .ok ys) {y : β} (hy : y ∈ ys) : ∃ x ∈ xs, f x = .ok y := by
  induction xs generalizing ys with
  | nil =>
      cases h
      simp at hy
  | cons x xs ih =>
      rw [List.mapM_cons] at h
      obtain ⟨first, hfirst, h⟩ := Except.bind_eq_ok.mp h
      obtain ⟨rest, hrest, h⟩ := Except.bind_eq_ok.mp h
      cases h
      rcases List.mem_cons.mp hy with rfl | hy
      · exact ⟨x, by simp, hfirst⟩
      · obtain ⟨x', hx', hf⟩ := ih hrest hy
        exact ⟨x', by simp [hx'], hf⟩

end List
