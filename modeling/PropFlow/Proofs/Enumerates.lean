import Mathlib.Data.List.Lex
import Mathlib.Data.Set.Card
import Mathlib.Data.String.Basic

-- Entries with different keys stand in the strict order of their keys when they are sorted.
theorem List.pairwise_lt_mergeSort {α : Type} (key : α → String) {entries : List α}
    (h : (entries.map key).Nodup) :
    (entries.mergeSort fun a b => decide (key a ≤ key b)).Pairwise fun a b => key a < key b := by
  have hle : (entries.mergeSort fun a b => decide (key a ≤ key b)).Pairwise
      fun a b => decide (key a ≤ key b) = true := by
    apply List.pairwise_mergeSort
    · intro a b c hab hbc
      exact decide_eq_true (le_trans (of_decide_eq_true hab) (of_decide_eq_true hbc))
    · intro a b
      simpa using le_total (key a) (key b)
  have hne : (entries.mergeSort fun a b => decide (key a ≤ key b)).Pairwise
      fun a b => key a ≠ key b := by
    have hnodup := ((List.mergeSort_perm entries fun a b => decide (key a ≤ key b)).map key).nodup_iff.mpr h
    exact List.pairwise_map.mp hnodup
  exact (hle.and hne).imp fun ⟨hle, hne⟩ => lt_of_le_of_ne (of_decide_eq_true hle) hne

namespace PropFlow

-- A list of all that has a property, in the lexicographic order of the ways that lead there, each once.
structure Enumerates {α β : Type} [LT α] (way : β → List α) (P : β → Prop) (entries : List β) : Prop where
  sorted : entries.Pairwise fun a b => way a < way b
  mem_iff : ∀ b, b ∈ entries ↔ P b

namespace Enumerates

variable {α β : Type} [LT α] {way : β → List α} {P Q : β → Prop} {entries later : List β}

theorem congr (h : Enumerates way P entries) (hiff : ∀ b, P b ↔ Q b) : Enumerates way Q entries :=
  ⟨h.sorted, fun b => (h.mem_iff b).trans (hiff b)⟩

theorem nil (h : ∀ b, ¬P b) : Enumerates way P [] :=
  ⟨List.Pairwise.nil, fun b => by simp [h b]⟩

theorem single {b : β} (h : ∀ other, P other ↔ other = b) : Enumerates way P [b] := by
  refine ⟨List.pairwise_singleton _ _, fun other => ?_⟩
  rw [List.mem_singleton, h]

-- What lies behind one step comes before what lies behind later steps.
theorem behind {step : α} {push : β → β} (hpush : ∀ b, way (push b) = step :: way b)
    (h : Enumerates way P entries) (hlater : Enumerates way Q later)
    (hafter : ∀ b, Q b → ∃ other rest, way b = other :: rest ∧ step < other) :
    Enumerates way (fun b => (∃ inner, b = push inner ∧ P inner) ∨ Q b) (entries.map push ++ later) := by
  constructor
  · apply List.pairwise_append.mpr
    refine ⟨?_, hlater.sorted, ?_⟩
    · apply List.pairwise_map.mpr
      apply h.sorted.imp
      intro first second hlt
      rw [hpush, hpush]
      exact List.cons_lt_cons_iff.mpr (.inr ⟨rfl, hlt⟩)
    · intro first hfirst second hsecond
      obtain ⟨inner, -, rfl⟩ := List.mem_map.mp hfirst
      obtain ⟨other, rest, hway, hlt⟩ := hafter second ((hlater.mem_iff second).mp hsecond)
      rw [hpush, hway]
      exact List.cons_lt_cons_iff.mpr (.inl hlt)
  · intro b
    rw [List.mem_append, List.mem_map, hlater.mem_iff]
    constructor
    · rintro (⟨inner, hinner, rfl⟩ | hb)
      · exact .inl ⟨inner, rfl, (h.mem_iff inner).mp hinner⟩
      · exact .inr hb
    · rintro (⟨inner, rfl, hinner⟩ | hb)
      · exact .inl ⟨inner, (h.mem_iff inner).mpr hinner, rfl⟩
      · exact .inr hb

section Order

variable {α β γ : Type} [LinearOrder α] {way : β → List α} {P : β → Prop} {entries : List β}

-- A search through the list finds what has the least way.
theorem exists_first (h : Enumerates way P entries) {f : β → Option γ} {found : γ}
    (hfound : entries.findSome? f = some found) :
    ∃ b, P b ∧ f b = some found ∧ ∀ other, P other → way other < way b → f other = none := by
  obtain ⟨before, b, after, rfl, hb, hbefore⟩ := List.findSome?_eq_some_iff.mp hfound
  obtain ⟨-, hafter, -⟩ := List.pairwise_append.mp h.sorted
  refine ⟨b, (h.mem_iff b).mp (by simp), hb, fun other hother hlt => ?_⟩
  have hmem := (h.mem_iff other).mpr hother
  rcases List.mem_append.mp hmem with hmem | hmem
  · exact hbefore other hmem
  · rcases List.mem_cons.mp hmem with rfl | hmem
    · exact absurd hlt (lt_irrefl _)
    · exact absurd hlt (lt_asymm ((List.pairwise_cons.mp hafter).1 other hmem))

theorem ncard_eq_countP (h : Enumerates way P entries) (p : β → Bool) :
    {w | ∃ b, P b ∧ p b = true ∧ way b = w}.ncard = entries.countP p := by
  have hnodup : ((entries.filter p).map way).Nodup := by
    apply List.pairwise_map.mpr
    exact (h.sorted.sublist List.filter_sublist).imp fun hlt => hlt.ne
  have hset : {w | ∃ b, P b ∧ p b = true ∧ way b = w} = ↑((entries.filter p).map way).toFinset := by
    ext w
    simp [← h.mem_iff, and_assoc]
  rw [hset, Set.ncard_coe_finset, List.toFinset_card_of_nodup hnodup, List.length_map,
    List.countP_eq_length_filter]

end Order

end Enumerates

end PropFlow
