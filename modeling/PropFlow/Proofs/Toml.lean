import Mathlib.Data.Option.Basic
import PropFlow.Proofs.Value
import PropFlow.Toml

namespace PropFlow.Toml

open Table

theorem keyed_mapM {read : List Char → Option Value} (hread : ∀ cs value, read cs = some value → value.Keyed)
    {pieces : List (List Char)} {values : List Value} (h : pieces.mapM read = some values) :
    ∀ value ∈ values, value.Keyed := by
  induction pieces generalizing values with
  | nil =>
      cases h
      simp
  | cons piece rest ih =>
      rw [List.mapM_cons] at h
      obtain ⟨first, hfirst, h⟩ := Option.bind_eq_some_iff.mp h
      obtain ⟨others, hothers, h⟩ := Option.bind_eq_some_iff.mp h
      cases h
      exact List.forall_mem_cons.mpr ⟨hread piece first hfirst, ih hothers⟩

theorem keyed_readValue? {fuel : Nat} {cs : List Char} {value : Value} (h : readValue? fuel cs = some value) :
    value.Keyed := by
  induction fuel generalizing cs value with
  | zero => cases h
  | succ fuel ih =>
      unfold readValue? at h
      split at h
      · cases h
        exact .bool true
      · split at h
        · cases h
          exact .bool false
        · split at h
          · obtain ⟨values, hvalues, h⟩ := Option.bind_eq_some_iff.mp h
            obtain ⟨-, -, h⟩ := Option.bind_eq_some_iff.mp h
            cases h
            exact .list (keyed_mapM (fun _ _ hread => ih hread) hvalues)
          · split at h
            · obtain ⟨text, -, rfl⟩ := Option.map_eq_some_iff.mp h
              exact .str _
            · rcases Option.or_eq_some_iff.mp h with h | ⟨-, h⟩
              · obtain ⟨n, -, rfl⟩ := Option.map_eq_some_iff.mp h
                exact .int n
              · obtain ⟨scalar, -, rfl⟩ := Option.map_eq_some_iff.mp h
                exact .scalar scalar
          · cases h

-- The last table of an array, which stands for the array in a path.
theorem keyed_getLast {t inner : Table} {name : String} {values : List Value} (ht : t.Keyed)
    (hlist : t.get? name = some (.list values)) (hlast : values.getLast? = some (.table inner)) : inner.Keyed := by
  cases ht.get? hlist with
  | list hvalues => exact hvalues _ (List.mem_of_getLast? hlast)

theorem keyed_setLast {t new : Table} {name : String} {values : List Value} (ht : t.Keyed)
    (hlist : t.get? name = some (.list values)) (hnew : new.Keyed) :
    (t.insert name (.list (values.dropLast ++ [.table new]))).Keyed := by
  cases ht.get? hlist with
  | list hvalues =>
      apply ht.insert
      apply Value.Keyed.list
      intro value hvalue
      rcases List.mem_append.mp hvalue with hvalue | hvalue
      · exact hvalues value ((List.dropLast_sublist _).subset hvalue)
      · rw [List.mem_singleton.mp hvalue]
        exact hnew

theorem keyed_changeAt {change : Table → Option Table}
    (hchange : ∀ t new, t.Keyed → change t = some new → new.Keyed) {path : List String} {t new : Table}
    (ht : t.Keyed) (h : changeAt change path t = some new) : new.Keyed := by
  induction path generalizing t new with
  | nil => exact hchange t new ht h
  | cons name path ih =>
      rw [changeAt] at h
      split at h
      · rename_i inner hinner
        obtain ⟨changed, hchanged, rfl⟩ := Option.map_eq_some_iff.mp h
        exact ht.insert (ih (ht.get? hinner) hchanged) name
      · rename_i values hvalues
        split at h
        · rename_i inner hlast
          obtain ⟨changed, hchanged, rfl⟩ := Option.map_eq_some_iff.mp h
          exact keyed_setLast ht hvalues (ih (keyed_getLast ht hvalues hlast) hchanged)
        · cases h
      · cases h

-- A header adds empty tables only.
theorem keyed_openTable {isArray : Bool} {passed passed' : Passed} {path : List String} {t new : Table}
    (ht : t.Keyed) (h : openTable isArray passed path t = some (passed', new)) : new.Keyed := by
  fun_induction openTable isArray passed path t generalizing passed' new with
  | case1 => cases h
  | case2 passed name t hnone =>
      cases h
      apply ht.insert
      cases isArray with
      | true => exact .list fun value hvalue => List.mem_singleton.mp hvalue ▸ Keyed.nil
      | false => exact Keyed.nil
  | case3 => cases h
  | case4 =>
      cases h
      exact ht
  | case5 passed name t hpassed values harray hvalues =>
      cases h
      cases ht.get? hvalues with
      | list hkeyed =>
          apply ht.insert
          apply Value.Keyed.list
          intro value hvalue
          rcases List.mem_append.mp hvalue with hvalue | hvalue
          · exact hkeyed value hvalue
          · exact List.mem_singleton.mp hvalue ▸ Keyed.nil
  | case6 => cases h
  | case7 passed name path t _ hnone ih =>
      obtain ⟨⟨_, made⟩, hmade, heq⟩ := Option.map_eq_some_iff.mp h
      cases heq
      exact ht.insert (ih .nil hmade) name
  | case8 passed name path t _ inner hinner ih =>
      obtain ⟨⟨_, made⟩, hmade, heq⟩ := Option.map_eq_some_iff.mp h
      cases heq
      exact ht.insert (ih (ht.get? hinner) hmade) name
  | case9 passed name path t _ values hvalues inner hlast ih =>
      obtain ⟨⟨_, made⟩, hmade, heq⟩ := Option.map_eq_some_iff.mp h
      cases heq
      exact keyed_setLast ht hvalues (ih (keyed_getLast ht hvalues hlast) hmade)
  | case10 => cases h
  | case11 => cases h

theorem keyed_putNew {value : Value} (hvalue : value.Keyed) {path : List String} {t new : Table} (ht : t.Keyed)
    (h : putNew value path t = some new) : new.Keyed := by
  fun_induction putNew value path t generalizing new with
  | case1 => cases h
  | case2 => cases h
  | case3 key t _ =>
      cases h
      exact ht.insert hvalue key
  | case4 name path t _ hnone ih =>
      obtain ⟨made, hmade, rfl⟩ := Option.map_eq_some_iff.mp h
      exact ht.insert (ih .nil hmade) name
  | case5 name path t _ inner hinner ih =>
      obtain ⟨made, hmade, rfl⟩ := Option.map_eq_some_iff.mp h
      exact ht.insert (ih (ht.get? hinner) hmade) name
  | case6 => cases h

-- One more line keeps the document a mapping.
theorem keyed_line {r next : Reading} {line : Line} (hr : r.document.Keyed) (h : r.line line = some next) :
    next.document.Keyed := by
  cases line with
  | header isArray text =>
      obtain ⟨names, -, h⟩ := Option.bind_eq_some_iff.mp h
      obtain ⟨⟨passed, document⟩, hdocument, h⟩ := Option.bind_eq_some_iff.mp h
      cases h
      exact keyed_openTable hr hdocument
  | pair key text =>
      obtain ⟨path, -, h⟩ := Option.bind_eq_some_iff.mp h
      obtain ⟨value, hvalue, h⟩ := Option.bind_eq_some_iff.mp h
      obtain ⟨document, hdocument, h⟩ := Option.bind_eq_some_iff.mp h
      cases h
      exact keyed_changeAt (fun t new ht hnew => keyed_putNew (keyed_readValue? hvalue) ht hnew) hr hdocument

theorem keyed_foldlM_line {lines : List Line} {r last : Reading} (hr : r.document.Keyed)
    (h : lines.foldlM Reading.line r = some last) : last.document.Keyed := by
  induction lines generalizing r with
  | nil =>
      cases h
      exact hr
  | cons line rest ih =>
      rw [List.foldlM_cons] at h
      obtain ⟨next, hnext, h⟩ := Option.bind_eq_some_iff.mp h
      exact ih (keyed_line hr hnext) h

-- No document that is read has a key twice.
theorem keyed_read {text : String} {t : Table} (h : read text = some t) : t.Keyed := by
  obtain ⟨lines, -, h⟩ := Option.bind_eq_some_iff.mp h
  obtain ⟨reading, hreading, h⟩ := Option.bind_eq_some_iff.mp h
  cases h
  exact keyed_foldlM_line .nil hreading

end PropFlow.Toml
