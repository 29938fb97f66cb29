import PropFlow.Conflict
import PropFlow.Proofs.OrderedMap
import PropFlow.Proofs.Text.Separator

namespace PropFlow.Conflict

theorem ofProp?_eq_some {c : Component} {prop : Item} {conflict : Conflict}
    (h : ofProp? c prop = some conflict) :
    conflict.id = c.name ++ "-" ++ (prop.name ++ "-conflict") ∧ conflict.items.head? = some prop.id ∧
      conflict.file = c.file := by
  obtain ⟨consumer, -, rfl⟩ := Option.map_eq_some_iff.mp h
  exact ⟨by simp only [String.append_assoc], rfl, rfl⟩

theorem mem_ofComponent {c : Component} {conflict : Conflict} (h : conflict ∈ ofComponent c) :
    ∃ prop ∈ c.items, ofProp? c prop = some conflict := by
  obtain ⟨prop, hprop, hconflict⟩ := List.mem_filterMap.mp h
  exact ⟨prop, (List.mem_filter.mp hprop).1, hconflict⟩

-- A conflict's id says which name the component has.
theorem name_eq_of_id_eq {c d : Component} {conflict other : Conflict} (hc : '-' ∉ c.name.toList)
    (hd : '-' ∉ d.name.toList) (hconflict : conflict ∈ ofComponent c) (hother : other ∈ ofComponent d)
    (h : conflict.id = other.id) : c.name = d.name := by
  obtain ⟨prop, -, hprop⟩ := mem_ofComponent hconflict
  obtain ⟨prop', -, hprop'⟩ := mem_ofComponent hother
  rw [(ofProp?_eq_some hprop).1, (ofProp?_eq_some hprop').1] at h
  exact Text.eq_of_append_dash hc hd h

section Detect

variable (components : List Component)

-- The conflicts that are kept, under their ids.
def found : OrderedMap String Conflict :=
  (components.flatMap ofComponent).foldl (fun found conflict => found.insertIfNew conflict.id conflict)
    .empty

theorem detect_eq : detect components = (found components).values := rfl

theorem nodup_keys_found : (found components).keys.Nodup :=
  OrderedMap.nodup_keys_foldl_alter Conflict.id _ .empty (fun conflict old => old.getD conflict)
    List.nodup_nil

theorem get?_found (id : String) :
    (found components).get? id = (components.flatMap ofComponent).find? (·.id == id) := by
  rw [found, OrderedMap.get?_foldl_insertIfNew Conflict.id fun conflict => conflict]
  simp [OrderedMap.get?, OrderedMap.empty]

theorem map_id_detect : (detect components).map (·.id) = (found components).keys := by
  rw [detect_eq, OrderedMap.values, List.map_map, OrderedMap.keys]
  apply List.map_congr_left
  rintro ⟨id, conflict⟩ hentry
  rw [OrderedMap.mem_entries_iff (nodup_keys_found components), get?_found] at hentry
  have hid := List.find?_some hentry
  simpa using hid

theorem nodup_detect : (detect components).Nodup :=
  List.Nodup.of_map Conflict.id (map_id_detect components ▸ nodup_keys_found components)

end Detect

-- A conflict is reported when it is the first one of its id.
theorem mem_detect_iff {components : List Component} {conflict : Conflict} :
    conflict ∈ detect components ↔
      (components.flatMap ofComponent).find? (·.id == conflict.id) = some conflict := by
  have hentries : ∀ id, (id, conflict) ∈ (found components).entries ↔
      (components.flatMap ofComponent).find? (·.id == id) = some conflict := by
    intro id
    rw [OrderedMap.mem_entries_iff (nodup_keys_found components), get?_found]
  constructor
  · intro h
    obtain ⟨⟨id, _⟩, hentry, rfl⟩ := List.mem_map.mp h
    have hfirst := (hentries id).mp hentry
    have hid := List.find?_some hfirst
    rwa [beq_iff_eq.mp hid]
  · intro h
    exact List.mem_map.mpr ⟨_, (hentries conflict.id).mpr h, rfl⟩

theorem exists_mem_ofComponent_of_mem_detect {components : List Component} {conflict : Conflict}
    (h : conflict ∈ detect components) : ∃ c ∈ components, conflict ∈ ofComponent c :=
  List.mem_flatMap.mp (List.mem_of_find?_eq_some (mem_detect_iff.mp h))

end PropFlow.Conflict
