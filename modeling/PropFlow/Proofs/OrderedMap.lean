import Mathlib.Data.List.Nodup
import PropFlow.OrderedMap
import PropFlow.Proofs.Distinct

namespace PropFlow.OrderedMap

variable {κ α β : Type} [DecidableEq κ]

theorem lookup_alterEntries (key : κ) (f : Option α → α) (entries : List (κ × α)) (k : κ) :
    (alterEntries key f entries).lookup k =
      if k = key then some (f (entries.lookup key)) else entries.lookup k := by
  induction entries with
  | nil =>
      rw [alterEntries, List.lookup_cons]
      by_cases hk : k = key
      · simp [hk]
      · simp [hk, beq_eq_false_iff_ne.mpr hk]
  | cons first rest ih =>
      obtain ⟨other, value⟩ := first
      rw [alterEntries]
      by_cases hother : other = key
      · subst hother
        rw [if_pos rfl, List.lookup_cons, List.lookup_cons, List.lookup_cons, beq_self_eq_true]
        by_cases hk : k = other
        · simp [hk]
        · simp [hk, beq_eq_false_iff_ne.mpr hk]
      · have hkey : (key == other) = false := beq_eq_false_iff_ne.mpr (Ne.symm hother)
        rw [if_neg hother, List.lookup_cons, List.lookup_cons, List.lookup_cons, hkey, ih]
        by_cases hk : k = other
        · simp [hk, hother]
        · simp [beq_eq_false_iff_ne.mpr hk]

theorem get?_alter (m : OrderedMap κ α) (key : κ) (f : Option α → α) (k : κ) :
    (m.alter key f).get? k = if k = key then some (f (m.get? key)) else m.get? k :=
  lookup_alterEntries key f m.entries k

theorem get?_insert (m : OrderedMap κ α) (key : κ) (value : α) (k : κ) :
    (m.insert key value).get? k = if k = key then some value else m.get? k :=
  get?_alter m key (fun _ => value) k

theorem map_fst_alterEntries (key : κ) (f : Option α → α) (entries : List (κ × α)) :
    (alterEntries key f entries).map (·.1) =
      if key ∈ entries.map (·.1) then entries.map (·.1) else entries.map (·.1) ++ [key] := by
  induction entries with
  | nil => simp [alterEntries]
  | cons first rest ih =>
      obtain ⟨other, value⟩ := first
      rw [alterEntries]
      by_cases hother : other = key
      · simp [hother]
      · rw [if_neg hother, List.map_cons, ih, List.map_cons]
        by_cases hmem : key ∈ rest.map (·.1)
        · rw [if_pos hmem, if_pos (List.mem_cons_of_mem _ hmem)]
        · have hnot : key ∉ other :: rest.map (·.1) := by
            rw [List.mem_cons, not_or]
            exact ⟨Ne.symm hother, hmem⟩
          rw [if_neg hmem, if_neg hnot, List.cons_append]

-- An old key keeps its place, a new one comes last.
theorem keys_alter (m : OrderedMap κ α) (key : κ) (f : Option α → α) :
    (m.alter key f).keys = if key ∈ m.keys then m.keys else m.keys ++ [key] :=
  map_fst_alterEntries key f m.entries

theorem mem_keys_alter {m : OrderedMap κ α} {key k : κ} {f : Option α → α} :
    k ∈ (m.alter key f).keys ↔ k ∈ m.keys ∨ k = key := by
  rw [keys_alter]
  split
  · rename_i hkey
    constructor
    · exact .inl
    · rintro (hk | rfl)
      · exact hk
      · exact hkey
  · simp

theorem nodup_keys_alter {m : OrderedMap κ α} (h : m.keys.Nodup) (key : κ) (f : Option α → α) :
    (m.alter key f).keys.Nodup := by
  rw [keys_alter]
  split
  · exact h
  · rename_i hkey
    exact List.nodup_append.mpr ⟨h, List.nodup_singleton key, by
      intro k hk other hother
      rw [List.mem_singleton.mp hother]
      rintro rfl
      exact hkey hk⟩

theorem alterEntries_getD (key : κ) (value : α) (entries : List (κ × α)) :
    alterEntries key (·.getD value) entries =
      if key ∈ entries.map (·.1) then entries else entries ++ [(key, value)] := by
  induction entries with
  | nil => simp [alterEntries]
  | cons first rest ih =>
      obtain ⟨other, old⟩ := first
      rw [alterEntries, ih]
      by_cases hother : other = key
      · simp [hother]
      · by_cases hmem : key ∈ rest.map (·.1) <;> simp_all [Ne.symm hother]

-- An old entry stays as it is, a new one comes last.
theorem entries_insertIfNew (m : OrderedMap κ α) (key : κ) (value : α) :
    (m.insertIfNew key value).entries =
      if key ∈ m.keys then m.entries else m.entries ++ [(key, value)] :=
  alterEntries_getD key value m.entries

theorem mem_entries_iff {m : OrderedMap κ α} (h : m.keys.Nodup) {k : κ} {value : α} :
    (k, value) ∈ m.entries ↔ m.get? k = some value := by
  obtain ⟨entries⟩ := m
  simp only [keys, get?] at h ⊢
  induction entries with
  | nil => simp
  | cons first rest ih =>
      obtain ⟨other, old⟩ := first
      obtain ⟨hother, hrest⟩ := List.nodup_cons.mp h
      rw [List.mem_cons, List.lookup_cons]
      by_cases hk : k = other
      · subst hk
        have hnot : (k, value) ∉ rest := fun hmem => hother (List.mem_map.mpr ⟨_, hmem, rfl⟩)
        simp [hnot, eq_comm]
      · simp [hk, beq_eq_false_iff_ne.mpr hk, ih hrest]

theorem entries_eq_map_keys {m : OrderedMap κ α} (h : m.keys.Nodup) (default : α) :
    m.entries = m.keys.map fun k => (k, (m.get? k).getD default) := by
  have hself : ∀ entry ∈ m.entries, entry = (entry.1, (m.get? entry.1).getD default) := by
    intro entry hentry
    rw [(mem_entries_iff h).mp hentry, Option.getD_some]
  calc m.entries = m.entries.map id := (List.map_id _).symm
    _ = m.entries.map fun entry => (entry.1, (m.get? entry.1).getD default) := List.map_congr_left hself
    _ = m.keys.map fun k => (k, (m.get? k).getD default) := by rw [keys, List.map_map]; rfl

theorem mem_values_of_get? {m : OrderedMap κ α} {k : κ} {value : α} (h : m.get? k = some value) :
    value ∈ m.values := by
  obtain ⟨before, after, hentries, -⟩ := List.lookup_eq_some_iff.mp h
  simp [values, hentries]

section Fold

variable (keyOf : β → κ) (valueOf : β → α) (xs : List β) (m : OrderedMap κ α)

-- Whatever is put in one after the other, no key comes twice.
theorem nodup_keys_foldl_alter (put : β → Option α → α) (h : m.keys.Nodup) :
    (xs.foldl (fun m x => m.alter (keyOf x) (put x)) m).keys.Nodup := by
  induction xs generalizing m with
  | nil => exact h
  | cons x rest ih => exact ih _ (nodup_keys_alter h (keyOf x) (put x))

theorem mem_keys_foldl_alter (put : β → Option α → α) {k : κ} :
    k ∈ (xs.foldl (fun m x => m.alter (keyOf x) (put x)) m).keys ↔ k ∈ m.keys ∨ k ∈ xs.map keyOf := by
  induction xs generalizing m with
  | nil => simp
  | cons x rest ih =>
      rw [List.foldl_cons, ih, mem_keys_alter, List.map_cons, List.mem_cons, or_assoc]

-- The keys stand in the order in which they came first.
theorem keys_foldl_alter (put : β → Option α → α) :
    (xs.foldl (fun m x => m.alter (keyOf x) (put x)) empty).keys = (xs.map keyOf).eraseDups := by
  induction xs using List.reverseRecOn with
  | nil => rfl
  | append_singleton xs x ih =>
      rw [List.foldl_append, List.foldl_cons, List.foldl_nil, keys_alter, ih, List.map_append,
        List.map_singleton, List.eraseDups_concat]
      simp only [List.mem_eraseDups]

-- When old values are kept, the first value of a key counts.
theorem get?_foldl_insertIfNew (k : κ) :
    (xs.foldl (fun m x => m.insertIfNew (keyOf x) (valueOf x)) m).get? k =
      (m.get? k).or ((xs.find? (keyOf · == k)).map valueOf) := by
  induction xs generalizing m with
  | nil => simp
  | cons x rest ih =>
      rw [List.foldl_cons, ih, insertIfNew, get?_alter, List.find?_cons]
      by_cases hk : k = keyOf x
      · subst hk
        cases hget : m.get? (keyOf x) <;> simp
      · rw [if_neg hk, beq_eq_false_iff_ne.mpr (Ne.symm hk)]

theorem get?_foldl_insertIfNew_of_unique {x : β} (hx : x ∈ xs)
    (h : ∀ y ∈ xs, keyOf y = keyOf x → valueOf y = valueOf x) :
    (xs.foldl (fun m x => m.insertIfNew (keyOf x) (valueOf x)) empty).get? (keyOf x) =
      some (valueOf x) := by
  rw [get?_foldl_insertIfNew]
  cases hfound : xs.find? (keyOf · == keyOf x) with
  | none => exact absurd BEq.rfl (List.find?_eq_none.mp hfound x hx)
  | some y =>
      have hkey : keyOf y = keyOf x := by simpa using List.find?_some hfound
      simp [empty, get?, h y (List.mem_of_find?_eq_some hfound) hkey]

-- When old values are kept, what is kept of the values is the first one of each key, in their order.
theorem exists_firsts_foldl_insertIfNew : ∃ firsts : List β, firsts.Sublist xs ∧
    (xs.foldl (fun m x => m.insertIfNew (keyOf x) (valueOf x)) empty).entries =
      firsts.map (fun x => (keyOf x, valueOf x)) ∧
    ∀ x ∈ firsts, xs.find? (keyOf · == keyOf x) = some x := by
  induction xs using List.reverseRecOn with
  | nil => exact ⟨[], .slnil, rfl, by simp⟩
  | append_singleton xs x ih =>
      obtain ⟨firsts, hsublist, hentries, hfirsts⟩ := ih
      have hkeys : keyOf x ∈ (xs.foldl (fun m x => m.insertIfNew (keyOf x) (valueOf x)) empty).keys ↔
          keyOf x ∈ xs.map keyOf := by
        refine (mem_keys_foldl_alter keyOf xs empty fun x => (·.getD (valueOf x))).trans ?_
        simp [keys, empty]
      have hstill : ∀ y ∈ firsts, (xs ++ [x]).find? (keyOf · == keyOf y) = some y := by
        intro y hy
        rw [List.find?_append, hfirsts y hy, Option.some_or]
      rw [List.foldl_append, List.foldl_cons, List.foldl_nil, entries_insertIfNew, hentries]
      by_cases hold : keyOf x ∈ xs.map keyOf
      · rw [if_pos (hkeys.mpr hold)]
        exact ⟨firsts, hsublist.trans (List.sublist_append_left xs [x]), rfl, hstill⟩
      · rw [if_neg (mt hkeys.mp hold)]
        refine ⟨firsts ++ [x], hsublist.append (.refl [x]), by simp, fun y hy => ?_⟩
        rcases List.mem_append.mp hy with hy | hy
        · exact hstill y hy
        · rw [List.mem_singleton.mp hy]
          have hnone : xs.find? (keyOf · == keyOf x) = none := by
            rw [List.find?_eq_none]
            intro z hz hkey
            exact hold (List.mem_map.mpr ⟨z, hz, beq_iff_eq.mp hkey⟩)
          simp [List.find?_append, hnone]

-- When old values are replaced, the last value of a key counts.
theorem get?_foldl_insert (k : κ) :
    (xs.foldl (fun m x => m.insert (keyOf x) (valueOf x)) m).get? k =
      ((xs.reverse.find? (keyOf · == k)).map valueOf).or (m.get? k) := by
  induction xs generalizing m with
  | nil => simp
  | cons x rest ih =>
      rw [List.foldl_cons, ih, get?_insert, List.reverse_cons, List.find?_append, Option.map_or,
        Option.or_assoc]
      by_cases hk : k = keyOf x
      · subst hk
        simp
      · have hkey : (keyOf x == k) = false := beq_eq_false_iff_ne.mpr (Ne.symm hk)
        simp [hk, hkey]

-- When values are collected, a key has all values that came with it, in their order.
theorem getD_get?_foldl_collect (m : OrderedMap κ (List β)) (k : κ) :
    ((xs.foldl (fun m x => m.alter (keyOf x) fun group => group.getD [] ++ [x]) m).get? k).getD [] =
      (m.get? k).getD [] ++ xs.filter (keyOf · == k) := by
  induction xs generalizing m with
  | nil => simp
  | cons x rest ih =>
      rw [List.foldl_cons, ih, get?_alter, List.filter_cons]
      by_cases hk : k = keyOf x
      · simp [hk]
      · rw [if_neg hk, beq_eq_false_iff_ne.mpr (Ne.symm hk)]
        simp

end Fold

end PropFlow.OrderedMap
