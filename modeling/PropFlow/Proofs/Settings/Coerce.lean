import PropFlow.Proofs.Settings.Document
import PropFlow.Proofs.Text.Integer

namespace PropFlow

-- Whether the name of a setting is wrong, and not the text for its value.
def SettingError.isUnknown : SettingError → Bool
  | unknown _ => true
  | _ => false

namespace Setting

-- The values that a setting may be given: a known format, a boolean, or a number with no more
-- digits than can be read.
def Admits : Setting → Value → Prop
  | format, value => ∃ word ∈ outputFormats, value = .str word
  | showTrace, value => ∃ b, value = .bool b
  | maxTraceLines, value => ∃ n : Nat, n < 10 ^ Text.digitLimit ∧ value = .int n

-- A text for a value: a format by its name, a boolean by one of its words in any casing and with
-- white space around it, and a number by any numeral that is not negative.
def Denotes : Setting → String → Value → Prop
  | format, raw, value => raw ∈ outputFormats ∧ value = .str raw
  | showTrace, raw, value => ∃ b,
      Text.lower (String.ofList (Text.trim raw.toList)) ∈ (if b then yesWords else noWords) ∧ value = .bool b
  | maxTraceLines, raw, value => ∃ n : Text.Numeral, n.text = raw ∧ 0 ≤ n.value ∧ value = .int n.value

variable {s : Setting} {raw : String} {value : Value}

theorem coerce_eq_ok_iff : s.coerce raw = .ok value ↔ s.Denotes raw value := by
  cases s with
  | format =>
      simp only [coerce, initial, Denotes, true_and]
      split_ifs with hraw
      · simp [hraw, eq_comm]
      · simp [hraw]
  | showTrace =>
      have hdisjoint : ∀ word ∈ yesWords, word ∉ noWords := by decide
      simp only [coerce, initial, Denotes]
      generalize Text.lower (String.ofList (Text.trim raw.toList)) = word
      split_ifs with hyes hno
      · simp [hyes, hdisjoint word hyes, eq_comm]
      · simp [hyes, hno, eq_comm]
      · simp [hyes, hno]
  | maxTraceLines =>
      have hvalue : ∀ n : Text.Numeral, n.text = raw → Text.readInteger raw = .ok n.value :=
        fun n hn => Text.readInteger_eq_ok_iff.mpr ⟨n, hn, rfl⟩
      constructor
      · intro h
        simp only [coerce, initial] at h
        split at h
        · rename_i read hread
          obtain ⟨n, hn, rfl⟩ := Text.readInteger_eq_ok_iff.mp hread
          split_ifs at h with hnegative
          cases h
          exact ⟨n, hn, Int.not_lt.mp hnegative, rfl⟩
        · cases h
      · rintro ⟨n, hn, hnonneg, rfl⟩
        simp only [coerce, initial, hvalue n hn]
        exact if_neg (Int.not_lt.mpr hnonneg)

theorem admits_of_denotes (h : s.Denotes raw value) : s.Admits value := by
  cases s with
  | format => exact ⟨raw, h⟩
  | showTrace =>
      obtain ⟨b, -, rfl⟩ := h
      exact ⟨b, rfl⟩
  | maxTraceLines =>
      obtain ⟨n, -, hnonneg, rfl⟩ := h
      exact ⟨n.value.toNat, by have := n.natAbs_value_lt; omega, by rw [Int.toNat_of_nonneg hnonneg]⟩

-- A value is what its own text stands for.
theorem denotes_display (h : s.Admits value) : s.Denotes value.display value := by
  cases s with
  | format =>
      obtain ⟨word, hword, rfl⟩ := h
      exact ⟨hword, rfl⟩
  | showTrace =>
      obtain ⟨b, rfl⟩ := h
      refine ⟨b, ?_, rfl⟩
      cases b <;> decide +kernel
  | maxTraceLines =>
      obtain ⟨n, hn, rfl⟩ := h
      exact ⟨.ofNat n hn, Text.Numeral.text_ofNat hn, by simp [Text.Numeral.value_ofNat],
        by rw [Text.Numeral.value_ofNat]⟩

theorem mem_names_iff {name : String} : name ∈ names ↔ ∃ s : Setting, s.name = name := by
  constructor
  · intro h
    obtain ⟨s, -, hs⟩ := List.mem_map.mp h
    exact ⟨s, hs⟩
  · rintro ⟨s, rfl⟩
    exact List.mem_map_of_mem (by cases s <;> decide)

theorem coerceNamed_name (s : Setting) (raw : String) : coerceNamed s.name raw = s.coerce raw := by
  rw [coerceNamed, ofName?_name]

theorem coerceNamed_unknown {name : String} (h : name ∉ names) (raw : String) :
    coerceNamed name raw = .error (.unknown name) := by
  have hnone : ofName? name = none := by
    rw [Option.eq_none_iff_forall_ne_some]
    exact fun s hs => h (mem_names_iff.mpr ⟨s, name_of_ofName? hs⟩)
  rw [coerceNamed, hnone]

theorem coerceNamed_eq_ok_iff {name : String} :
    coerceNamed name raw = .ok value ↔ ∃ s : Setting, s.name = name ∧ s.Denotes raw value := by
  constructor
  · intro h
    by_cases hname : name ∈ names
    · obtain ⟨s, rfl⟩ := mem_names_iff.mp hname
      rw [coerceNamed_name] at h
      exact ⟨s, rfl, coerce_eq_ok_iff.mp h⟩
    · rw [coerceNamed_unknown hname] at h
      cases h
  · rintro ⟨s, rfl, h⟩
    rw [coerceNamed_name]
    exact coerce_eq_ok_iff.mpr h

-- With a known name it is the text that is refused.
theorem isUnknown_of_coerce {e : SettingError} (h : s.coerce raw = .error e) : e.isUnknown = false := by
  cases s with
  | format =>
      simp only [coerce, initial] at h
      split_ifs at h
      cases h
      rfl
  | showTrace =>
      simp only [coerce, initial] at h
      split_ifs at h
      cases h
      rfl
  | maxTraceLines =>
      simp only [coerce, initial] at h
      split at h
      · split_ifs at h
        cases h
        rfl
      · cases h
        rfl

-- A setting takes exactly the texts for its values. What it takes is a value of its own kind, and
-- the text that shows the value is one for it. An error is about the name only if there is no
-- such setting, and else about the text.
theorem coerceNamed_settles (name raw : String) :
    (∀ value, coerceNamed name raw = .ok value ↔ ∃ s : Setting, s.name = name ∧ s.Denotes raw value) ∧
      (∀ value, coerceNamed name raw = .ok value →
        (∃ s : Setting, s.name = name ∧ s.Admits value) ∧ coerceNamed name value.display = .ok value) ∧
      ∀ e, coerceNamed name raw = .error e → (e.isUnknown = true ↔ name ∉ names) := by
  refine ⟨fun value => coerceNamed_eq_ok_iff, fun value h => ?_, fun e h => ?_⟩
  · obtain ⟨s, hname, hdenotes⟩ := coerceNamed_eq_ok_iff.mp h
    have hadmits := admits_of_denotes hdenotes
    exact ⟨⟨s, hname, hadmits⟩, coerceNamed_eq_ok_iff.mpr ⟨s, hname, denotes_display hadmits⟩⟩
  · by_cases hname : name ∈ names
    · obtain ⟨s, rfl⟩ := mem_names_iff.mp hname
      rw [coerceNamed_name] at h
      simp [isUnknown_of_coerce h, hname]
    · rw [coerceNamed_unknown hname] at h
      cases h
      simp [SettingError.isUnknown, hname]

end Setting

end PropFlow
