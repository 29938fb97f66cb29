import PropFlow.Proofs.FileTree.Writing
import PropFlow.Proofs.Text.Utf8
import PropFlow.Proofs.Value
import PropFlow.Settings.File

namespace PropFlow

namespace Setting

theorem ofName?_name (s : Setting) : ofName? s.name = some s := by
  cases s <;> decide

theorem name_of_ofName? {name : String} {s : Setting} (h : ofName? name = some s) : s.name = name := by
  have hfound := List.find?_some h
  exact beq_iff_eq.mp hfound

end Setting

namespace Settings

theorem get_set (settings : Settings) (s : Setting) (value : Value) (asked : Setting) :
    (settings.set s value).get asked = if asked = s then value else settings.get asked := by
  cases s <;> cases asked <;> rfl

theorem get_initial (s : Setting) : initial.get s = s.initial := by
  cases s <;> rfl

-- In a table with no key twice, the entry of a setting is its value.
theorem get_overlay (settings : Settings) {t : Table} (h : (t.map (·.1)).Nodup) (s : Setting) :
    (settings.overlay t).get s = (t.get? s.name).getD (settings.get s) := by
  induction t generalizing settings with
  | nil => rfl
  | cons first rest ih =>
      obtain ⟨name, value⟩ := first
      obtain ⟨hname, hrest⟩ := List.nodup_cons.mp h
      refine (ih _ hrest).trans ?_
      rw [Table.get?, Table.get?, List.lookup_cons]
      by_cases hs : s.name = name
      · subst hs
        have hnone : List.lookup s.name rest = none := Table.get?_eq_none hname
        simp only [hnone, beq_self_eq_true, Setting.ofName?_name, get_set, if_true, Option.getD_none,
          Option.getD_some]
      · rw [beq_eq_false_iff_ne.mpr hs]
        cases hfound : Setting.ofName? name with
        | none => simp only [hfound]
        | some other =>
            have hother : s ≠ other := by
              rintro rfl
              exact hs (Setting.name_of_ofName? hfound)
            simp only [hfound, get_set, if_neg hother]

-- Settings whose values differ in the order of table entries at most.
def Same (settings other : Settings) : Prop :=
  ∀ s, (settings.get s).Same (other.get s)

namespace Same

variable {settings other third : Settings}

theorem refl (settings : Settings) : settings.Same settings :=
  fun _ => rfl

theorem trans (h : settings.Same other) (h' : other.Same third) : settings.Same third :=
  fun s => (h s).trans (h' s)

theorem set (h : settings.Same other) (s : Setting) (value : Value) :
    (settings.set s value).Same (other.set s value) := by
  intro asked
  rw [get_set, get_set]
  by_cases hasked : asked = s
  · rw [if_pos hasked, if_pos hasked]
    rfl
  · rw [if_neg hasked, if_neg hasked]
    exact h asked

end Same

end Settings

-- A table that is written is read back as the same mapping.
def DocumentFormat.ReadsBack (format : DocumentFormat) (t new : Table) : Prop :=
  format.read (String.ofList (Text.unifyNewlines (format.write t).toList)) = some new ∧ new.Same t

namespace SettingsFile

section Part

variable {document : Table} {entries : Table}

theorem section?_eq_some_iff : section? document = some entries ↔
    document.get? sectionName = some (.table entries) := by
  unfold section?
  split
  · rename_i other hother
    rw [hother, Option.some.injEq, Option.some.injEq, Value.table.injEq]
  · rename_i hnone
    constructor
    · rintro ⟨⟩
    · exact fun h => absurd h (hnone entries)

theorem keyed_section (h : document.Keyed) : ((section? document).getD []).Keyed := by
  cases hsection : section? document with
  | none => exact .nil
  | some entries => exact h.get? (section?_eq_some_iff.mp hsection)

theorem get_settingsOf (h : document.Keyed) (s : Setting) :
    (settingsOf document).get s = (((section? document).getD []).get? s.name).getD s.initial := by
  rw [settingsOf, Settings.get_overlay _ (keyed_section h).nodup, Settings.get_initial]

theorem section?_update (document : Table) (key : String) (value : Value) : section? (update document [(key, value)]) =
    some (((section? document).getD []).insert key value) := by
  rw [section?_eq_some_iff, update, Table.get?_insert, if_pos rfl]
  rfl

theorem get?_update_of_ne {asked : String} (h : asked ≠ sectionName) (values : Table) :
    (update document values).get? asked = document.get? asked := by
  rw [update, Table.get?_insert, if_neg h]

theorem section?_of_same {other : Table} (h : document.Same other) (hsection : section? other = some entries) :
    ∃ inner, section? document = some inner ∧ inner.Same entries := by
  have hget := h.get? sectionName
  rw [section?_eq_some_iff.mp hsection, Option.map_some, Value.canonical] at hget
  obtain ⟨value, hvalue, hcanonical⟩ := Option.map_eq_some_iff.mp hget
  obtain ⟨inner, rfl, hinner⟩ := Value.exists_of_canonical_eq_table hcanonical
  exact ⟨inner, section?_eq_some_iff.mpr hvalue, hinner⟩

end Part

-- What a change of settings leaves alone: all other parts of a document, and in the settings' part
-- whatever is no setting.
structure Kept (old new : Table) : Prop where
  others : ∀ key, key ≠ sectionName → (new.get? key).map Value.canonical = (old.get? key).map Value.canonical
  unknown : ∀ entries, old.get? sectionName = some (.table entries) →
    ∃ inner, new.get? sectionName = some (.table inner) ∧
      ∀ key, Setting.ofName? key = none →
        (Table.get? inner key).map Value.canonical = (Table.get? entries key).map Value.canonical

namespace Kept

theorem refl (document : Table) : Kept document document :=
  ⟨fun _ _ => rfl, fun entries h => ⟨entries, h, fun _ _ => rfl⟩⟩

theorem trans {old mid new : Table} (h : Kept old mid) (h' : Kept mid new) : Kept old new := by
  refine ⟨fun key hkey => (h'.others key hkey).trans (h.others key hkey), fun entries hentries => ?_⟩
  obtain ⟨inner, hinner, hsame⟩ := h.unknown entries hentries
  obtain ⟨last, hlast, hsame'⟩ := h'.unknown inner hinner
  exact ⟨last, hlast, fun key hkey => (hsame' key hkey).trans (hsame key hkey)⟩

end Kept

section Step

variable {old new : Table} {s : Setting} {value : Value}

theorem kept_of_same_update (hsame : new.Same (update old [(s.name, value)])) : Kept old new := by
  constructor
  · intro key hkey
    rw [hsame.get?, get?_update_of_ne hkey]
  · intro entries hentries
    have hsection := section?_update old s.name value
    rw [section?_eq_some_iff.mpr hentries, Option.getD_some] at hsection
    obtain ⟨inner, hinner, hentry⟩ := section?_of_same hsame hsection
    refine ⟨inner, section?_eq_some_iff.mp hinner, fun key hkey => ?_⟩
    have hne : key ≠ s.name := by
      rintro rfl
      rw [Setting.ofName?_name] at hkey
      cases hkey
    rw [hentry.get?, Table.get?_insert, if_neg hne]

-- One value is set, and the others are what they were.
theorem settingsOf_of_same_update (hold : old.Keyed) (hnew : new.Keyed)
    (hsame : new.Same (update old [(s.name, value)])) :
    (settingsOf new).Same ((settingsOf old).set s value) := by
  obtain ⟨inner, hinner, hentry⟩ := section?_of_same hsame (section?_update old s.name value)
  intro asked
  have hget := hentry.get? asked.name
  rw [Table.get?_insert] at hget
  rw [Value.Same, get_settingsOf hnew, hinner, Option.getD_some, Settings.get_set, get_settingsOf hold]
  by_cases hasked : asked = s
  · subst hasked
    rw [if_pos rfl] at hget ⊢
    obtain ⟨found, hfound, hcanonical⟩ := Option.map_eq_some_iff.mp hget
    rw [hfound, Option.getD_some, hcanonical]
  · have hne : asked.name ≠ s.name := by
      intro hname
      have hsome := Setting.ofName?_name asked
      rw [hname, Setting.ofName?_name] at hsome
      exact hasked (Option.some.inj hsome).symm
    rw [if_neg hne] at hget
    rw [if_neg hasked, ← Option.getD_map Value.canonical, hget, Option.getD_map]

end Step

section Save

variable {format : DocumentFormat} {disk : Disk} {path : Path} {old new values : Table}

theorem keyed_document (hkeyed : ∀ text t, format.read text = some t → t.Keyed)
    (h : document format disk path = .ok old) : old.Keyed := by
  unfold document at h
  split at h
  · cases h
  · cases h
    exact .nil
  split at h
  · cases h
    exact .nil
  split at h
  · cases h
  rename_i text _
  cases h
  cases hread : format.read (String.ofList (Text.unifyNewlines text.toList)) with
  | none => exact .nil
  | some t => exact hkeyed _ t hread

-- What is saved is found in the file, and the file can be saved again.
theorem document_save (hadmits : disk.Admits path) (hvalues : ∀ entry ∈ values, (Setting.ofName? entry.1).isSome = true)
    (hold : document format disk path = .ok old) (hback : format.ReadsBack (update old values) new) :
    ∃ saved, save format disk path values = .ok saved ∧ document format saved path = .ok new ∧
      saved.Admits path := by
  obtain ⟨made, saved, hmade, hwrite, hread, hagain⟩ :=
    hadmits.write (Text.Utf8.encode (format.write (update old values)))
  refine ⟨saved, ?_, ?_, hagain⟩
  · unfold save
    split
    · rename_i name value hfound
      have hknown := hvalues _ (List.mem_of_find?_eq_some hfound)
      have hunknown := List.find?_some hfound
      exact absurd hknown (Option.not_isSome_iff_eq_none.mpr (Option.isNone_iff_eq_none.mp hunknown))
    · simp only [hold, hmade, hwrite]
  · unfold document
    simp only [Disk.isPresent_of_read hread, hread, Text.Utf8.decode_encode, hback.1, Option.getD_some]

end Save

end SettingsFile

end PropFlow
