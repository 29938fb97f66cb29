import Mathlib.Data.Set.Prod
import Mathlib.Order.CompletePartialOrder
import Mathlib.Order.Interval.Set.Disjoint
import PropFlow.Component.Layout

namespace PropFlow

namespace Component

-- The points that the box of a component covers.
def box (c : Component) : Set (Nat × Nat) :=
  Set.Ico c.x (c.x + c.width) ×ˢ Set.Ico c.y (c.y + c.height)

def IsBuilt (c : Component) : Prop :=
  ∃ name file items, c = build name file items

theorem IsBuilt.width_pos {c : Component} (h : c.IsBuilt) : 0 < c.width := by
  obtain ⟨name, file, items, rfl⟩ := h
  simp only [build]
  omega

theorem IsBuilt.height_pos {c : Component} (h : c.IsBuilt) : 0 < c.height := by
  obtain ⟨name, file, items, rfl⟩ := h
  simp only [build]
  omega

-- Boxes that are not empty share no point when one ends before the other begins, in one of the two
-- directions.
theorem disjoint_box_iff {c d : Component} (hwidth : 0 < c.width) (hwidth' : 0 < d.width)
    (hheight : 0 < c.height) (hheight' : 0 < d.height) :
    Disjoint c.box d.box ↔
      (c.x + c.width ≤ d.x ∨ d.x + d.width ≤ c.x) ∨ (c.y + c.height ≤ d.y ∨ d.y + d.height ≤ c.y) := by
  have hline : ∀ start size start' size', 0 < size → 0 < size' →
      (min (start + size) (start' + size') ≤ max start start' ↔
        start + size ≤ start' ∨ start' + size' ≤ start) := by
    intro start size start' size' hsize hsize'
    omega
  rw [box, box, Set.disjoint_prod, Set.Ico_disjoint_Ico, Set.Ico_disjoint_Ico,
    hline _ _ _ _ hwidth hwidth', hline _ _ _ _ hheight hheight']

end Component

namespace Layout

-- On a line whose slots are all as long as the stretch itself and the spacing behind it, a stretch of
-- length `s` in slot `a` and one of length `t` in slot `b` do not meet.
def Apart (a s b t : Nat) : Prop :=
  a * (s + spacing) + s ≤ b * (t + spacing) ∨ b * (t + spacing) + t ≤ a * (s + spacing)

-- The stretch further on may be shorter, by the share of one slot in the spacing.
theorem apart_of_lt {a s b t : Nat} (h : a < b) (hsize : (a + 1) * s ≤ (a + 1) * t + spacing) :
    Apart a s b t := by
  left
  have hslot : (a + 1) * (t + spacing) ≤ b * (t + spacing) := Nat.mul_le_mul_right _ h
  have hs : (a + 1) * s = a * s + s := Nat.succ_mul a s
  have ht : (a + 1) * (t + spacing) = (a + 1) * t + (a * spacing + spacing) := by
    rw [Nat.mul_add, Nat.succ_mul a spacing]
  have hend : a * (s + spacing) + s = a * s + a * spacing + s := by rw [Nat.mul_add]
  omega

-- Two components at places `i` and `j` of a list whose boxes are apart in the columns or in the rows of
-- the grid.
def Clear (columns i j : Nat) (c d : Component) : Prop :=
  Apart (i % columns) c.width (j % columns) d.width ∨ Apart (i / columns) c.height (j / columns) d.height

instance (columns i j : Nat) (c d : Component) : Decidable (Clear columns i j c d) :=
  inferInstanceAs (Decidable ((_ ≤ _ ∨ _ ≤ _) ∨ (_ ≤ _ ∨ _ ≤ _)))

theorem disjoint_box_place_iff {columns i j : Nat} {c d : Component} (hc : c.IsBuilt) (hd : d.IsBuilt) :
    Disjoint (place columns i c).box (place columns j d).box ↔ Clear columns i j c d := by
  have hboxes := Component.disjoint_box_iff (c := place columns i c) (d := place columns j d)
    hc.width_pos hd.width_pos hc.height_pos hd.height_pos
  rw [hboxes]
  simp only [place, Clear, Apart]
  omega

-- A component that is not much wider than those further right in its row and not much higher than
-- those in later rows is clear of all that come after it.
def Fits (columns i j : Nat) (c d : Component) : Prop :=
  (i / columns = j / columns → (i % columns + 1) * c.width ≤ (i % columns + 1) * d.width + spacing) ∧
    (i / columns ≠ j / columns → (i / columns + 1) * c.height ≤ (i / columns + 1) * d.height + spacing)

instance (columns i j : Nat) (c d : Component) : Decidable (Fits columns i j c d) :=
  inferInstanceAs (Decidable ((_ → _) ∧ (_ → _)))

theorem clear_of_fits {columns i j : Nat} {c d : Component} (hlt : i < j)
    (h : Fits columns i j c d) : Clear columns i j c d := by
  by_cases hrow : i / columns = j / columns
  · have hi := Nat.div_add_mod i columns
    have hj := Nat.div_add_mod j columns
    rw [hrow] at hi
    exact .inl (apart_of_lt (by omega) (h.1 hrow))
  · have hle : i / columns ≤ j / columns := Nat.div_le_div_right (Nat.le_of_lt hlt)
    exact .inr (apart_of_lt (by omega) (h.2 hrow))

theorem pairwise_arrange_iff {components : List Component} {R : Component → Component → Prop} :
    (arrange components).Pairwise R ↔
      ∀ j (_ : j < components.length) i (_ : i < j),
        R (place (ceilSqrt components.length) i components[i])
          (place (ceilSqrt components.length) j components[j]) := by
  rw [arrange, List.pairwise_iff_getElem]
  constructor
  · intro h j hj i hij
    have hplaced := h i j (by rw [List.length_mapIdx]; omega) (by rwa [List.length_mapIdx]) hij
    rwa [List.getElem_mapIdx, List.getElem_mapIdx] at hplaced
  · intro h i j hi hj hij
    rw [List.length_mapIdx] at hj
    rw [List.getElem_mapIdx, List.getElem_mapIdx]
    exact h j hj i hij

-- The boxes of a layout are disjoint just when any two of them are clear of each other in the columns
-- or in the rows, and they are so when sizes shrink by no more than the spacing allows.
theorem arrange_disjoint_iff_clear {components : List Component}
    (hbuilt : ∀ c ∈ components, c.IsBuilt) :
    (((arrange components).Pairwise fun c d => Disjoint c.box d.box) ↔
      ∀ j (_ : j < components.length) i (_ : i < j),
        Clear (ceilSqrt components.length) i j components[i] components[j]) ∧
    ((∀ j (_ : j < components.length) i (_ : i < j),
        Fits (ceilSqrt components.length) i j components[i] components[j]) →
      (arrange components).Pairwise fun c d => Disjoint c.box d.box) := by
  have hiff : ((arrange components).Pairwise fun c d => Disjoint c.box d.box) ↔
      ∀ j (_ : j < components.length) i (_ : i < j),
        Clear (ceilSqrt components.length) i j components[i] components[j] := by
    rw [pairwise_arrange_iff]
    apply forall₄_congr
    intro j hj i hij
    exact disjoint_box_place_iff (hbuilt _ (List.getElem_mem _)) (hbuilt _ (List.getElem_mem _))
  refine ⟨hiff, fun hfits => hiff.mpr ?_⟩
  intro j hj i hij
  exact clear_of_fits hij (hfits j hj i hij)

-- Five components in two rows; the second row is as high as its items need.
def fiveBoxes : List Component :=
  [.build "App" "/a.jsx" [], .build "Header" "/a.jsx" [], .build "NavigationSideBar" "/b.jsx" [],
    .build "List" "/c.jsx" (List.replicate 4 default), .build "ListOfEverythingElse" "/c.jsx" []]

theorem arrange_disjoint_iff_clear_five :
    (∀ c ∈ fiveBoxes, c.IsBuilt) ∧ (arrange fiveBoxes).Pairwise fun c d => Disjoint c.box d.box := by
  have hbuilt : ∀ c ∈ fiveBoxes, c.IsBuilt := by
    intro c hc
    simp only [fiveBoxes, List.mem_cons, List.not_mem_nil, or_false] at hc
    rcases hc with rfl | rfl | rfl | rfl | rfl <;> exact ⟨_, _, _, rfl⟩
  exact ⟨hbuilt, (arrange_disjoint_iff_clear hbuilt).2 (by decide)⟩

-- The position of a box does not take into account how wide the box before it is.
theorem arrange_overlaps_wide :
    ¬ (arrange [.build "NotificationPreferencesPanel" "/a.jsx" [], .build "App" "/a.jsx" []]).Pairwise
      fun c d => Disjoint c.box d.box := by
  intro h
  have hdisjoint := pairwise_arrange_iff.mp h 1 (by decide) 0 (by decide)
  have hclear := (disjoint_box_place_iff ⟨_, _, _, rfl⟩ ⟨_, _, _, rfl⟩).mp hdisjoint
  exact absurd hclear (by decide)

end Layout

end PropFlow
