import PropFlow.Flow.Finalize
import PropFlow.Proofs.Distinct

namespace PropFlow

-- Whether an end of a flow is an item of a component: of its file, or of no file in particular.
def Component.owns (c : Component) (item file : String) : Bool :=
  (c.file == file || file == "") && c.items.any (·.id == item)

namespace Flow

section Known

theorem mem_foldl_items {items : List Item} {home item file : String} {known : List (String × String)} :
    (item, file) ∈ items.foldl (fun known i => (known.insert (i.id, home)).insert (i.id, "")) known ↔
      (home = file ∨ file = "") ∧ (∃ i ∈ items, i.id = item) ∨ (item, file) ∈ known := by
  induction items generalizing known with
  | nil => simp
  | cons i rest ih =>
      rw [List.foldl_cons, ih, List.mem_insert_iff, List.mem_insert_iff]
      simp only [Prod.mk.injEq, List.exists_mem_cons_iff]
      grind

theorem mem_foldl_components {components : List Component} {item file : String}
    {known : List (String × String)} :
    (item, file) ∈ components.foldl (fun known c =>
        c.items.foldl (fun known i => (known.insert (i.id, c.file)).insert (i.id, "")) known) known ↔
      (∃ c ∈ components, c.owns item file = true) ∨ (item, file) ∈ known := by
  induction components generalizing known with
  | nil => simp
  | cons c rest ih =>
      have hc : c.owns item file = true ↔ (c.file = file ∨ file = "") ∧ ∃ i ∈ c.items, i.id = item := by
        simp [Component.owns]
      rw [List.foldl_cons, ih, mem_foldl_items, ← hc, List.exists_mem_cons_iff, or_assoc, or_left_comm]

-- The ends that are collected are those that some component owns.
theorem mem_knownEnds_iff {components : List Component} {item file : String} :
    (item, file) ∈ knownEnds components ↔ ∃ c ∈ components, c.owns item file = true := by
  rw [knownEnds, mem_foldl_components]
  simp

theorem knownEnds_subset {components more : List Component} (h : components ⊆ more) :
    knownEnds components ⊆ knownEnds more := by
  rintro ⟨item, file⟩ hknown
  obtain ⟨c, hc, howns⟩ := mem_knownEnds_iff.mp hknown
  exact mem_knownEnds_iff.mpr ⟨c, h hc, howns⟩

end Known

section Finalize

theorem isBetween_iff {known : List (String × String)} {f : Flow} :
    f.isBetween known = true ↔ (f.source, f.sourceFile) ∈ known ∧ (f.target, f.targetFile) ∈ known := by
  rw [isBetween, Bool.and_eq_true, List.contains_iff_mem, List.contains_iff_mem]

theorem isBetween_mono {known more : List (String × String)} (h : known ⊆ more) {f : Flow}
    (hf : f.isBetween known = true) : f.isBetween more = true := by
  obtain ⟨hsource, htarget⟩ := isBetween_iff.mp hf
  exact isBetween_iff.mpr ⟨h hsource, h htarget⟩

-- One flow after the other is kept if its ends are known and it has not been kept before.
theorem finalize_eq (flows : List Flow) (components : List Component) :
    finalize flows components = (flows.filter (isBetween (knownEnds components))).eraseDups := by
  unfold finalize
  dsimp only
  induction flows using List.reverseRecOn with
  | nil => rfl
  | append_singleton flows f ih =>
      rw [List.foldl_append, ih, List.foldl_cons, List.foldl_nil, List.filter_append]
      cases hf : f.isBetween (knownEnds components) with
      | false => simp [hf]
      | true =>
          rw [List.filter_cons_of_pos hf, List.filter_nil, List.eraseDups_concat]
          simp only [List.mem_eraseDups, Bool.not_true, Bool.false_eq_true, if_false]

end Finalize

end Flow

end PropFlow
