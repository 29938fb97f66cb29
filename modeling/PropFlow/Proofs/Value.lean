import PropFlow.Proofs.OrderedMap
import PropFlow.Value.Basic

namespace PropFlow

namespace Table

theorem get?_insert (t : Table) (key : String) (value : Value) (asked : String) :
    (t.insert key value).get? asked = if asked = key then some value else t.get? asked :=
  OrderedMap.lookup_alterEntries key _ t asked

theorem mem_of_get? {t : Table} {key : String} {value : Value} (h : t.get? key = some value) :
    (key, value) ∈ t := by
  obtain ⟨before, after, rfl, -⟩ := List.lookup_eq_some_iff.mp h
  simp

theorem get?_eq_none {t : Table} {key : String} (h : key ∉ t.map (·.1)) : t.get? key = none := by
  rw [get?, List.lookup_eq_none_iff]
  intro entry hentry
  rw [bne_iff_ne]
  rintro rfl
  exact h (List.mem_map_of_mem hentry)

theorem mem_insert {t : Table} {key : String} {value : Value} {entry : String × Value}
    (h : entry ∈ t.insert key value) : entry = (key, value) ∨ entry ∈ t := by
  unfold insert at h
  induction t with
  | nil => exact .inl (List.mem_singleton.mp h)
  | cons first rest ih =>
      obtain ⟨other, old⟩ := first
      rw [OrderedMap.alterEntries] at h
      by_cases hother : other = key
      · rw [if_pos hother] at h
        rcases List.mem_cons.mp h with rfl | h
        · exact .inl (by rw [hother])
        · exact .inr (List.mem_cons_of_mem _ h)
      · rw [if_neg hother] at h
        rcases List.mem_cons.mp h with rfl | h
        · exact .inr List.mem_cons_self
        · exact (ih h).imp_right (List.mem_cons_of_mem _)

theorem nodup_insert {t : Table} (h : (t.map (·.1)).Nodup) (key : String) (value : Value) :
    ((t.insert key value).map (·.1)).Nodup :=
  OrderedMap.nodup_keys_alter (m := ⟨t⟩) h key _

-- Puts an entry in front of the first one with a key that does not come before its own.
def insertSorted (key : String) (value : Value) : Table → Table
  | [] => [(key, value)]
  | (other, old) :: rest =>
    if other < key then (other, old) :: insertSorted key value rest else (key, value) :: (other, old) :: rest

theorem get?_insertSorted (t : Table) (key : String) (value : Value) (asked : String) :
    (insertSorted key value t).get? asked = if asked = key then some value else t.get? asked := by
  unfold get?
  induction t with
  | nil =>
      by_cases hasked : asked = key
      · simp [insertSorted, hasked]
      · simp [insertSorted, hasked, List.lookup_cons, beq_eq_false_iff_ne.mpr hasked]
  | cons first rest ih =>
      obtain ⟨other, old⟩ := first
      rw [insertSorted]
      by_cases hother : other < key
      · have hne : other ≠ key := by
          rintro rfl
          exact String.lt_irrefl _ hother
        rw [if_pos hother, List.lookup_cons, List.lookup_cons, ih]
        by_cases hasked : asked = other
        · simp [hasked, hne]
        · simp [beq_eq_false_iff_ne.mpr hasked]
      · rw [if_neg hother, List.lookup_cons]
        by_cases hasked : asked = key
        · simp [hasked]
        · simp [hasked, beq_eq_false_iff_ne.mpr hasked]

end Table

namespace Value

mutual
-- A value with the entries of all tables in it in the order of their keys.
def canonical : Value → Value
  | list values => list (canonicalAll values)
  | table entries => table (canonicalEntries entries)
  | value => value

def canonicalAll : List Value → List Value
  | [] => []
  | value :: rest => value.canonical :: canonicalAll rest

def canonicalEntries : List (String × Value) → List (String × Value)
  | [] => []
  | (key, value) :: rest => Table.insertSorted key value.canonical (canonicalEntries rest)
end

-- Values that differ in the order of table entries at most.
def Same (value other : Value) : Prop :=
  value.canonical = other.canonical

theorem get?_canonicalEntries (t : Table) (key : String) :
    Table.get? (canonicalEntries t) key = (t.get? key).map canonical := by
  induction t with
  | nil => rfl
  | cons first rest ih =>
      obtain ⟨other, value⟩ := first
      rw [canonicalEntries, Table.get?_insertSorted, ih, Table.get?, Table.get?, List.lookup_cons]
      by_cases hkey : key = other
      · simp [hkey]
      · simp [hkey, beq_eq_false_iff_ne.mpr hkey]

theorem exists_of_canonical_eq_table {value : Value} {entries : Table} (h : value.canonical = .table entries) :
    ∃ inner, value = .table inner ∧ canonicalEntries inner = entries := by
  cases value with
  | table inner => exact ⟨inner, rfl, by simpa [canonical] using h⟩
  | null => simp [canonical] at h
  | bool => simp [canonical] at h
  | int => simp [canonical] at h
  | scalar => simp [canonical] at h
  | str => simp [canonical] at h
  | list => simp [canonical] at h

-- No table in a value has two entries of one key.
inductive Keyed : Value → Prop
  | null : Keyed null
  | bool (value : Bool) : Keyed (bool value)
  | int (value : Int) : Keyed (int value)
  | scalar (value : Scalar) : Keyed (scalar value)
  | str (value : String) : Keyed (str value)
  | list {values : List Value} (h : ∀ value ∈ values, Keyed value) : Keyed (list values)
  | table {entries : List (String × Value)} (hkeys : (entries.map (·.1)).Nodup)
      (h : ∀ entry ∈ entries, Keyed entry.2) : Keyed (table entries)

end Value

namespace Table

def Same (t other : Table) : Prop :=
  Value.canonicalEntries t = Value.canonicalEntries other

theorem Same.get? {t other : Table} (h : t.Same other) (key : String) :
    (t.get? key).map Value.canonical = (other.get? key).map Value.canonical := by
  rw [← Value.get?_canonicalEntries, h, Value.get?_canonicalEntries]

def Keyed (t : Table) : Prop :=
  (Value.table t).Keyed

namespace Keyed

variable {t : Table} {key : String} {value : Value}

theorem nodup (h : t.Keyed) : (t.map (·.1)).Nodup := by
  cases h with
  | table hkeys _ => exact hkeys

theorem get? (h : t.Keyed) (hvalue : t.get? key = some value) : value.Keyed := by
  cases h with
  | table _ hentries => exact hentries _ (mem_of_get? hvalue)

theorem nil : Keyed [] :=
  .table List.nodup_nil (by simp)

theorem insert (h : t.Keyed) (hvalue : value.Keyed) (key : String) : (t.insert key value).Keyed := by
  cases h with
  | table hkeys hentries =>
      refine .table (nodup_insert hkeys key value) fun entry hentry => ?_
      rcases mem_insert hentry with rfl | hentry
      · exact hvalue
      · exact hentries entry hentry

end Keyed

end Table

end PropFlow
