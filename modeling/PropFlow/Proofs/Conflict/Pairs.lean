import Mathlib.Data.List.Forall2
import Mathlib.Data.Prod.Lex
import Mathlib.Order.Bounds.Basic
import PropFlow.Proofs.Conflict

namespace List

variable {α : Type}

-- What a search finds in an ordered list comes before all else that it could have found.
theorem Pairwise.eq_or_rel_of_find? {R : α → α → Prop} {xs : List α} {p : α → Bool} {x y : α}
    (h : xs.Pairwise R) (hx : xs.find? p = some x) (hy : y ∈ xs) (hp : p y = true) :
    x = y ∨ R x y := by
  obtain ⟨-, before, after, rfl, hbefore⟩ := find?_eq_some_iff_append.mp hx
  rcases mem_append.mp hy with hy | hy
  · have hnot := hbefore y hy
    simp [hp] at hnot
  · rcases mem_cons.mp hy with rfl | hy
    · exact .inl rfl
    · obtain ⟨-, hafter, -⟩ := pairwise_append.mp h
      exact .inr ((pairwise_cons.mp hafter).1 y hy)

theorem pairwise_snd_zipIdx (xs : List α) : xs.zipIdx.Pairwise fun a b => a.2 < b.2 := by
  apply pairwise_map.mp
  rw [zipIdx_map_snd]
  exact pairwise_lt_range'

end List

namespace PropFlow.Conflict

-- A context value under a name that overlaps with the name of a prop.
def Overlaps (prop consumer : Item) : Prop :=
  consumer.kind = .contextConsumer ∧ namesOverlap prop.name consumer.name = true

-- A prop of a component, some context value of which overlaps with it.
def Conflicting (c : Component) (prop : Item) : Prop :=
  prop ∈ c.items ∧ prop.kind = .prop ∧ ∃ consumer ∈ c.items, Overlaps prop consumer

-- The first item of a component that overlaps with a prop.
def FirstOverlap (c : Component) (prop consumer : Item) : Prop :=
  ∃ before after, c.items = before ++ consumer :: after ∧ Overlaps prop consumer ∧
    ∀ other ∈ before, ¬Overlaps prop other

def idOf (c : Component) (prop : Item) : String :=
  c.name ++ "-" ++ prop.name ++ "-conflict"

def between (c : Component) (prop consumer : Item) : Conflict where
  id := idOf c prop
  description := c.name ++ " receives \"" ++ prop.name ++ "\" via both props and context"
  items := [prop.id, consumer.id]
  file := c.file

section Pair

variable {c : Component} {prop consumer : Item} {conflict : Conflict}

theorem find?_overlap_eq_some_iff :
    (c.itemsOf .contextConsumer).find? (fun other => namesOverlap prop.name other.name) =
      some consumer ↔ FirstOverlap c prop consumer := by
  rw [Component.itemsOf, List.find?_filter, List.find?_eq_some_iff_append]
  simp only [beq_iff_eq, decide_eq_true_eq, Bool.not_eq_true', decide_eq_false_iff_not]
  constructor
  · rintro ⟨hoverlaps, before, after, hitems, hbefore⟩
    exact ⟨before, after, hitems, hoverlaps, hbefore⟩
  · rintro ⟨before, after, hitems, hoverlaps, hbefore⟩
    exact ⟨hoverlaps, before, after, hitems, hbefore⟩

theorem ofProp?_eq_some_iff :
    ofProp? c prop = some conflict ↔ ∃ consumer, FirstOverlap c prop consumer ∧
      between c prop consumer = conflict := by
  simp only [← find?_overlap_eq_some_iff]
  exact Option.map_eq_some_iff

theorem exists_firstOverlap_iff :
    (∃ consumer, FirstOverlap c prop consumer) ↔ ∃ consumer ∈ c.items, Overlaps prop consumer := by
  simp only [← find?_overlap_eq_some_iff, ← Option.isSome_iff_exists, List.find?_isSome,
    Component.itemsOf, List.mem_filter, beq_iff_eq, Overlaps, and_assoc]

end Pair

-- The conflict that an item brings to its component.
def ofItem? (c : Component) (item : Item) : Option Conflict :=
  if item.kind == .prop then ofProp? c item else none

theorem ofComponent_eq (c : Component) : ofComponent c = c.items.filterMap (ofItem? c) := by
  rw [ofComponent, Component.itemsOf, List.filterMap_filter]
  rfl

theorem ofItem?_eq_some_iff {c : Component} {item : Item} {conflict : Conflict} :
    ofItem? c item = some conflict ↔ item.kind = .prop ∧ ∃ consumer, FirstOverlap c item consumer ∧
      between c item consumer = conflict := by
  simp only [ofItem?, Option.ite_none_right_eq_some, beq_iff_eq, ofProp?_eq_some_iff]

theorem id_of_ofItem? {c : Component} {item : Item} {conflict : Conflict}
    (h : ofItem? c item = some conflict) : conflict.id = idOf c item := by
  obtain ⟨-, _, -, rfl⟩ := ofItem?_eq_some_iff.mp h
  rfl

theorem conflicting_iff {c : Component} {item : Item} :
    Conflicting c item ↔ item ∈ c.items ∧ ∃ conflict, ofItem? c item = some conflict := by
  simp only [ofItem?_eq_some_iff, Conflicting, ← exists_firstOverlap_iff]
  constructor
  · rintro ⟨hitem, hkind, consumer, hfirst⟩
    exact ⟨hitem, _, hkind, consumer, hfirst, rfl⟩
  · rintro ⟨hitem, _, hkind, consumer, hfirst, -⟩
    exact ⟨hitem, hkind, consumer, hfirst⟩

section Places

variable (components : List Component)

-- An item and its component stand at a place: the component's in the list and the item's in the
-- component. Places are ordered by the first and then by the second.
def StandsAt (place : ℕ ×ₗ ℕ) (c : Component) (item : Item) : Prop :=
  components[(ofLex place).1]? = some c ∧ c.items[(ofLex place).2]? = some item

-- The places of the conflicting pairs of an id.
def placesOf (id : String) : Set (ℕ ×ₗ ℕ) :=
  {place | ∃ c prop, StandsAt components place c prop ∧ Conflicting c prop ∧ idOf c prop = id}

-- All conflicts with the places they come from.
def placed : List ((ℕ ×ₗ ℕ) × Conflict) :=
  components.zipIdx.flatMap fun entry => entry.1.items.zipIdx.filterMap fun item =>
    (ofItem? entry.1 item.1).map fun conflict => (toLex (entry.2, item.2), conflict)

theorem map_snd_placed : (placed components).map (·.2) = components.flatMap ofComponent := by
  have hitems : ∀ entry : Component × ℕ, (entry.1.items.zipIdx.filterMap fun item =>
      (ofItem? entry.1 item.1).map fun conflict => (toLex (entry.2, item.2), conflict)).map (·.2) =
      ofComponent entry.1 := by
    intro entry
    rw [List.map_filterMap, ofComponent_eq]
    conv_rhs => rw [← List.zipIdx_map_fst 0 entry.1.items, List.filterMap_map]
    simp [Function.comp_def]
  rw [placed, List.map_flatMap]
  simp only [hitems]
  conv_rhs => rw [← List.zipIdx_map_fst 0 components, List.flatMap_map]

theorem pairwise_placed : (placed components).Pairwise fun a b => a.1 < b.1 := by
  refine List.pairwise_flatMap.mpr ⟨fun entry _ => ?_, ?_⟩
  · refine List.pairwise_filterMap.mpr ((List.pairwise_snd_zipIdx _).imp ?_)
    intro first second hlt x hx y hy
    obtain ⟨_, -, rfl⟩ := Option.map_eq_some_iff.mp hx
    obtain ⟨_, -, rfl⟩ := Option.map_eq_some_iff.mp hy
    exact Prod.Lex.toLex_lt_toLex.mpr (.inr ⟨rfl, hlt⟩)
  · refine (List.pairwise_snd_zipIdx _).imp ?_
    intro first second hlt x hx y hy
    obtain ⟨_, -, hx⟩ := List.mem_filterMap.mp hx
    obtain ⟨_, -, hy⟩ := List.mem_filterMap.mp hy
    obtain ⟨_, -, rfl⟩ := Option.map_eq_some_iff.mp hx
    obtain ⟨_, -, rfl⟩ := Option.map_eq_some_iff.mp hy
    exact Prod.Lex.toLex_lt_toLex.mpr (.inl hlt)

variable {components}

theorem mem_placed_iff {place : ℕ ×ₗ ℕ} {conflict : Conflict} : (place, conflict) ∈ placed components ↔
    ∃ c item, StandsAt components place c item ∧ ofItem? c item = some conflict := by
  simp only [placed, List.mem_flatMap, List.mem_filterMap, Option.map_eq_some_iff, Prod.mk.injEq,
    List.mem_zipIdx_iff_getElem?]
  constructor
  · rintro ⟨⟨c, i⟩, hc, ⟨item, j⟩, hitem, conflict, hconflict, rfl, rfl⟩
    exact ⟨c, item, ⟨hc, hitem⟩, hconflict⟩
  · rintro ⟨c, item, ⟨hc, hitem⟩, hconflict⟩
    exact ⟨(c, _), hc, (item, _), hitem, conflict, hconflict, rfl, rfl⟩

theorem mem_placesOf_iff {place : ℕ ×ₗ ℕ} {id : String} :
    place ∈ placesOf components id ↔ ∃ conflict, (place, conflict) ∈ placed components ∧ conflict.id = id := by
  constructor
  · rintro ⟨c, prop, hplace, hconflicting, rfl⟩
    obtain ⟨-, conflict, hof⟩ := conflicting_iff.mp hconflicting
    exact ⟨conflict, mem_placed_iff.mpr ⟨c, prop, hplace, hof⟩, id_of_ofItem? hof⟩
  · rintro ⟨conflict, hmem, rfl⟩
    obtain ⟨c, prop, hplace, hof⟩ := mem_placed_iff.mp hmem
    have hconflicting := conflicting_iff.mpr ⟨List.mem_of_getElem? hplace.2, conflict, hof⟩
    exact ⟨c, prop, hplace, hconflicting, (id_of_ofItem? hof).symm⟩

end Places

-- A conflict that tells of the pair at a place, the first one that gives the conflict's id.
structure Reports (components : List Component) (place : ℕ ×ₗ ℕ) (conflict : Conflict) : Prop where
  isLeast : IsLeast (placesOf components conflict.id) place
  pair : ∃ c prop consumer, StandsAt components place c prop ∧ Conflicting c prop ∧
    FirstOverlap c prop consumer ∧ conflict = between c prop consumer

theorem reports_of_find? {components : List Component} {x : (ℕ ×ₗ ℕ) × Conflict}
    (h : (placed components).find? (·.2.id == x.2.id) = some x) : Reports components x.1 x.2 := by
  have hx := List.mem_of_find?_eq_some h
  refine ⟨⟨mem_placesOf_iff.mpr ⟨x.2, hx, rfl⟩, fun place hplace => ?_⟩, ?_⟩
  · obtain ⟨conflict, hmem, hid⟩ := mem_placesOf_iff.mp hplace
    rcases (pairwise_placed components).eq_or_rel_of_find? h hmem (beq_iff_eq.mpr hid) with heq | hlt
    · rw [heq]
    · exact le_of_lt hlt
  · obtain ⟨c, prop, hplace, hof⟩ := mem_placed_iff.mp hx
    have hconflicting := conflicting_iff.mpr ⟨List.mem_of_getElem? hplace.2, x.2, hof⟩
    obtain ⟨-, consumer, hfirst, heq⟩ := ofItem?_eq_some_iff.mp hof
    exact ⟨c, prop, consumer, hplace, hconflicting, hfirst, heq.symm⟩

theorem mem_map_id_detect_iff {components : List Component} {id : String} :
    id ∈ (detect components).map (·.id) ↔ ∃ c ∈ components, ∃ prop, Conflicting c prop ∧ id = idOf c prop := by
  have hkeys : id ∈ (found components).keys ↔ id ∈ (components.flatMap ofComponent).map (·.id) := by
    refine (OrderedMap.mem_keys_foldl_alter Conflict.id _ .empty fun conflict => (·.getD conflict)).trans ?_
    simp [OrderedMap.keys, OrderedMap.empty]
  rw [map_id_detect, hkeys]
  simp only [List.mem_map, List.mem_flatMap, ofComponent_eq, List.mem_filterMap]
  constructor
  · rintro ⟨conflict, ⟨c, hc, prop, hprop, hof⟩, rfl⟩
    exact ⟨c, hc, prop, conflicting_iff.mpr ⟨hprop, conflict, hof⟩, id_of_ofItem? hof⟩
  · rintro ⟨c, hc, prop, hconflicting, rfl⟩
    obtain ⟨hprop, conflict, hof⟩ := conflicting_iff.mp hconflicting
    exact ⟨conflict, ⟨c, hc, prop, hprop, hof⟩, id_of_ofItem? hof⟩

-- Each id that a conflicting pair gives is reported once, for the first such pair, and the reports
-- are in the order of these pairs.
theorem detect_reports_first_pairs (components : List Component) :
    ((detect components).map (·.id)).Nodup ∧
    (∀ id, id ∈ (detect components).map (·.id) ↔
      ∃ c ∈ components, ∃ prop, Conflicting c prop ∧ id = idOf c prop) ∧
    ∃ places : List (ℕ ×ₗ ℕ), places.Pairwise (· < ·) ∧
      List.Forall₂ (Reports components) places (detect components) := by
  refine ⟨map_id_detect components ▸ nodup_keys_found components, fun _ => mem_map_id_detect_iff, ?_⟩
  obtain ⟨firsts, hsublist, hentries, hfirsts⟩ := OrderedMap.exists_firsts_foldl_insertIfNew
    (fun x : (ℕ ×ₗ ℕ) × Conflict => x.2.id) (·.2) (placed components)
  have hdetect : detect components = firsts.map (·.2) := by
    rw [detect_eq, found, ← map_snd_placed, List.foldl_map, OrderedMap.values, hentries, List.map_map]
    rfl
  refine ⟨firsts.map (·.1), ?_, ?_⟩
  · exact List.pairwise_map.mpr ((pairwise_placed components).sublist hsublist)
  · rw [hdetect, List.forall₂_map_left_iff, List.forall₂_map_right_iff, List.forall₂_same]
    exact fun x hx => reports_of_find? (hfirsts x hx)

end PropFlow.Conflict
