import Mathlib.Algebra.Group.Nat.Defs
import Mathlib.Data.List.Induction
import Mathlib.Data.List.TakeWhile
import PropFlow.Proofs.Except
import PropFlow.Proofs.Text.Separator
import PropFlow.Text.Integer

namespace PropFlow.Text

section Digits

variable {c : Char}

theorem digitValue?_eq_some {value : Nat} (h : digitValue? c = some value) :
    ∃ first ∈ zeroDigits, c.toNat = first + value ∧ value ≤ 9 := by
  obtain ⟨first, hfirst, rfl⟩ := Option.map_eq_some_iff.mp h
  have hrange := List.find?_some hfirst
  rw [decide_eq_true_iff] at hrange
  exact ⟨first, List.mem_of_find?_eq_some hfirst, by omega, by omega⟩

theorem getD_digitValue?_le (c : Char) : (digitValue? c).getD 0 ≤ 9 := by
  cases h : digitValue? c with
  | none => simp
  | some value =>
      obtain ⟨first, -, -, hle⟩ := digitValue?_eq_some h
      exact hle

-- The zero of the ASCII digits is looked at first.
theorem digitValue?_of_isDigit (h : c.isDigit = true) : digitValue? c = some (c.toNat - '0'.toNat) := by
  have hrange := Char.isDigit_iff_toNat.mp h
  have hzeros : zeroDigits = '0'.toNat :: zeroDigits.tail := rfl
  rw [digitValue?, hzeros, List.find?_cons_of_pos (by simpa using hrange)]
  rfl

-- White space, signs and underscores are no digits.
theorem digitValue?_of_isMargin (h : isMargin c = true) : digitValue? c = none := by
  have hapart : ∀ first ∈ zeroDigits, ∀ range ∈ blankRanges, range.2 < first ∨ first + 9 < range.1 := by
    decide +kernel
  rw [isMargin, Bool.and_eq_true, isBlank, inRanges, List.any_eq_true] at h
  obtain ⟨⟨range, hrange, hc⟩, -⟩ := h
  rw [decide_eq_true_iff] at hc
  rw [Option.eq_none_iff_forall_ne_some]
  intro value hvalue
  obtain ⟨first, hfirst, hcode, hle⟩ := digitValue?_eq_some hvalue
  have := hapart first hfirst range hrange
  omega

theorem isDigitOrJoint_of_isMargin (h : isMargin c = true) : isDigitOrJoint c = false := by
  have hjoint : c ≠ '_' := by
    rintro rfl
    exact absurd h (by decide)
  simp [isDigitOrJoint, digitValue?_of_isMargin h, hjoint]

theorem isMargin_of_isDigit (h : (digitValue? c).isSome = true) : isMargin c = false := by
  rw [Bool.eq_false_iff]
  intro hmargin
  rw [digitValue?_of_isMargin hmargin] at h
  cases h

theorem decimalValue_lt (digits : List Char) : decimalValue digits < 10 ^ digits.length := by
  induction digits using List.reverseRecOn with
  | nil => simp [decimalValue]
  | append_singleton digits c ih =>
      have hle := getD_digitValue?_le c
      rw [decimalValue, List.foldl_append, List.length_append, List.length_singleton, pow_succ]
      rw [decimalValue] at ih
      simp only [List.foldl_cons, List.foldl_nil]
      omega

theorem decimalValue_toDigits (n : Nat) : decimalValue (Nat.toDigits 10 n) = n := by
  have hfold : decimalValue (Nat.toDigits 10 n) = Nat.ofDigitChars 10 (Nat.toDigits 10 n) 0 := by
    rw [Nat.ofDigitChars_eq_foldl, decimalValue]
    apply List.foldl_ext
    intro value c hc
    rw [digitValue?_of_isDigit (Nat.isDigit_of_mem_toDigits (by decide) (by decide) hc), Option.getD_some,
      Nat.mul_comm]
  rw [hfold, Nat.ofDigitChars_ten_toDigits]

end Digits

-- Groups of digits, of which there is at least one and none is empty.
structure AreGroups (groups : List (List Char)) : Prop where
  ne_nil : groups ≠ []
  group_ne_nil : [] ∉ groups
  isDigit : ∀ group ∈ groups, ∀ c ∈ group, (digitValue? c).isSome = true

-- What may stand before the digits of an integer, with what it makes of their value.
def integerSigns : List (List Char × Int) :=
  [([], 1), (['+'], 1), (['-'], -1)]

-- An integer as it may be written: at most one sign, groups of digits of any script with single
-- underscores between them, and white space around all that.
structure Numeral where
  left : List Char
  sign : List Char × Int
  groups : List (List Char)
  right : List Char
  left_isMargin : ∀ c ∈ left, isMargin c = true
  sign_mem : sign ∈ integerSigns
  areGroups : AreGroups groups
  length_le : groups.flatten.length ≤ digitLimit
  right_isMargin : ∀ c ∈ right, isMargin c = true

namespace Numeral

def text (n : Numeral) : String :=
  String.ofList (n.left ++ n.sign.1 ++ ['_'].intercalate n.groups ++ n.right)

def value (n : Numeral) : Int :=
  n.sign.2 * decimalValue n.groups.flatten

theorem natAbs_value_lt (n : Numeral) : n.value.natAbs < 10 ^ digitLimit := by
  have hvalue : n.value.natAbs = decimalValue n.groups.flatten := by
    have hsign := n.sign_mem
    simp only [integerSigns, List.mem_cons, List.not_mem_nil, or_false] at hsign
    rcases hsign with hsign | hsign | hsign <;> simp [value, hsign]
  rw [hvalue]
  exact Nat.lt_of_lt_of_le (decimalValue_lt _) (Nat.pow_le_pow_right (by decide) n.length_le)

-- A number in ASCII digits.
def ofNat (n : Nat) (h : n < 10 ^ digitLimit) : Numeral where
  left := []
  sign := ([], 1)
  groups := [Nat.toDigits 10 n]
  right := []
  left_isMargin := by simp
  sign_mem := List.mem_cons_self
  areGroups := {
    ne_nil := by simp
    group_ne_nil := by simp
    isDigit := by
      intro group hgroup c hc
      rw [List.mem_singleton.mp hgroup] at hc
      rw [digitValue?_of_isDigit (Nat.isDigit_of_mem_toDigits (by decide) (by decide) hc)]
      rfl }
  length_le := by
    rw [List.flatten_singleton]
    exact (Nat.length_toDigits_le_iff (by decide) (by decide)).mpr h
  right_isMargin := by simp

theorem text_ofNat {n : Nat} (h : n < 10 ^ digitLimit) : (ofNat n h).text = toString n := by
  rw [Nat.toString_eq_ofList_toDigits]
  simp [text, ofNat]

theorem value_ofNat {n : Nat} (h : n < 10 ^ digitLimit) : (ofNat n h).value = n := by
  simp [value, ofNat, decimalValue_toDigits]

end Numeral

section Groups

variable {groups : List (List Char)}

theorem AreGroups.isDigitOrJoint (h : AreGroups groups) {c : Char} (hc : c ∈ ['_'].intercalate groups) :
    isDigitOrJoint c = true := by
  rcases List.eq_or_mem_of_mem_intercalate hc with rfl | ⟨group, hgroup, hc⟩
  · simp [Text.isDigitOrJoint]
  · simp [Text.isDigitOrJoint, h.isDigit group hgroup c hc]

theorem AreGroups.joint_notMem (h : AreGroups groups) {group : List Char} (hgroup : group ∈ groups) :
    '_' ∉ group := by
  intro hmem
  exact absurd (h.isDigit group hgroup '_' hmem) (by decide +kernel)

theorem AreGroups.ungroup?_eq (h : AreGroups groups) :
    ungroup? (['_'].intercalate groups) = some groups.flatten := by
  rw [ungroup?, List.splitOn_intercalate '_' (fun _ => h.joint_notMem) h.ne_nil, if_neg h.group_ne_nil]

theorem AreGroups.exists_cons (h : AreGroups groups) :
    ∃ c rest, ['_'].intercalate groups = c :: rest ∧ (digitValue? c).isSome = true := by
  cases groups with
  | nil => exact absurd rfl h.ne_nil
  | cons group others =>
      cases group with
      | nil => exact absurd List.mem_cons_self h.group_ne_nil
      | cons c rest =>
          exact ⟨c, _, List.intercalate_cons_cons_left, h.isDigit _ List.mem_cons_self c List.mem_cons_self⟩

theorem areGroups_splitOn {cs : List Char} (hcs : ∀ c ∈ cs, isDigitOrJoint c = true)
    (h : [] ∉ cs.splitOn '_') : AreGroups (cs.splitOn '_') where
  ne_nil := List.splitOn_ne_nil '_' cs
  group_ne_nil := h
  isDigit group hgroup c hc := by
    obtain ⟨hmem, hjoint⟩ := List.mem_of_mem_splitOn hgroup hc
    have hdigit := hcs c hmem
    simpa [isDigitOrJoint, hjoint] using hdigit

end Groups

theorem readDigits_eq_ok_iff {cs : List Char} {value : Nat} : readDigits cs = .ok value ↔
    ∃ groups right, cs = ['_'].intercalate groups ++ right ∧ AreGroups groups ∧
      groups.flatten.length ≤ digitLimit ∧ (∀ c ∈ right, isMargin c = true) ∧
      decimalValue groups.flatten = value := by
  constructor
  · intro h
    unfold readDigits ungroup? at h
    by_cases hempty : [] ∈ (cs.takeWhile isDigitOrJoint).splitOn '_'
    · rw [if_pos hempty] at h
      cases h
    · have hgroups := areGroups_splitOn (fun c hc => List.mem_takeWhile_imp hc) hempty
      rw [if_neg hempty] at h
      dsimp only at h
      split at h
      · cases h
      · rename_i hlength
        split at h
        · rename_i hright
          cases h
          refine ⟨_, cs.dropWhile isDigitOrJoint, ?_, hgroups, Nat.not_lt.mp hlength, ?_, rfl⟩
          · rw [List.intercalate_splitOn, List.takeWhile_append_dropWhile]
          · exact List.dropWhile_eq_nil_iff.mp (List.isEmpty_iff.mp hright)
        · cases h
  · rintro ⟨groups, right, rfl, hgroups, hlength, hright, rfl⟩
    -- The digits are read up to the white space behind them.
    have hbody : ∀ c ∈ ['_'].intercalate groups, isDigitOrJoint c = true :=
      fun _ hc => hgroups.isDigitOrJoint hc
    have hstop : right.takeWhile isDigitOrJoint = [] ∧ right.dropWhile isDigitOrJoint = right := by
      cases right with
      | nil => exact ⟨rfl, rfl⟩
      | cons c rest => simp [isDigitOrJoint_of_isMargin (hright c List.mem_cons_self)]
    have hmargin : right.dropWhile isMargin = [] := List.dropWhile_eq_nil_iff.mpr hright
    simp only [readDigits, List.takeWhile_append_of_pos hbody, List.dropWhile_append_of_pos hbody, hstop,
      List.append_nil, hgroups.ungroup?_eq, hmargin, if_neg (Nat.not_lt.mpr hlength)]
    rfl

theorem isDigit_of_readDigits {c : Char} {rest : List Char} {value : Nat}
    (h : readDigits (c :: rest) = .ok value) : (digitValue? c).isSome = true := by
  obtain ⟨groups, right, heq, hgroups, -⟩ := readDigits_eq_ok_iff.mp h
  obtain ⟨first, others, hfirst, hdigit⟩ := hgroups.exists_cons
  rw [hfirst] at heq
  obtain ⟨rfl, -⟩ := List.cons.inj heq
  exact hdigit

-- What follows the white space in front of an integer: a sign or none, and the digits.
theorem readInteger_eq_ok_iff_signed {text : String} {value : Int} : readInteger text = .ok value ↔
    ∃ sign ∈ integerSigns, ∃ rest n, text.toList.dropWhile isMargin = sign.1 ++ rest ∧
      readDigits rest = .ok n ∧ sign.2 * (n : Int) = value := by
  constructor
  · intro h
    unfold readInteger at h
    dsimp only at h
    split at h
    · rename_i read hread
      cases h
      split at hread
      · rename_i rest hrest
        obtain ⟨n, hn, rfl⟩ := Except.map_eq_ok.mp hread
        exact ⟨(['+'], 1), by simp [integerSigns], rest, n, hrest, hn, Int.one_mul _⟩
      · rename_i rest hrest
        cases hn : readDigits rest with
        | error e =>
            rw [hn] at hread
            cases hread
        | ok n =>
            rw [hn] at hread
            cases hread
            exact ⟨(['-'], -1), by simp [integerSigns], rest, n, hrest, hn, Int.neg_one_mul _⟩
      · obtain ⟨n, hn, rfl⟩ := Except.map_eq_ok.mp hread
        exact ⟨([], 1), by simp [integerSigns], _, n, rfl, hn, Int.one_mul _⟩
    · cases h
    · cases h
  · rintro ⟨sign, hsign, rest, n, hrest, hread, rfl⟩
    simp only [integerSigns, List.mem_cons, List.not_mem_nil, or_false] at hsign
    rcases hsign with rfl | rfl | rfl
    -- Where there is no sign, what is read begins with a digit, which is none.
    · cases rest with
      | nil => cases hread
      | cons c others =>
          have hdigit := isDigit_of_readDigits hread
          have hplus : c ≠ '+' := by
            rintro rfl
            exact absurd hdigit (by decide +kernel)
          have hminus : c ≠ '-' := by
            rintro rfl
            exact absurd hdigit (by decide +kernel)
          rw [List.nil_append] at hrest
          unfold readInteger
          rw [hrest]
          simp [hplus, hminus, hread, Except.map]
    · simp [readInteger, hrest, hread, Except.map]
    · simp [readInteger, hrest, hread, Except.map]

-- An integer is read from its numerals and from nothing else.
theorem readInteger_eq_ok_iff {text : String} {value : Int} :
    readInteger text = .ok value ↔ ∃ n : Numeral, n.text = text ∧ n.value = value := by
  rw [readInteger_eq_ok_iff_signed]
  constructor
  · rintro ⟨sign, hsign, rest, n, hrest, hread, rfl⟩
    obtain ⟨groups, right, rfl, hgroups, hlength, hright, rfl⟩ := readDigits_eq_ok_iff.mp hread
    refine ⟨⟨text.toList.takeWhile isMargin, sign, groups, right, fun c hc => List.mem_takeWhile_imp hc,
      hsign, hgroups, hlength, hright⟩, ?_, rfl⟩
    rw [Numeral.text, List.append_assoc, List.append_assoc, ← hrest, List.takeWhile_append_dropWhile,
      String.ofList_toList]
  · rintro ⟨n, rfl, rfl⟩
    refine ⟨n.sign, n.sign_mem, _, _, ?_, readDigits_eq_ok_iff.mpr ⟨n.groups, n.right, rfl, n.areGroups,
      n.length_le, n.right_isMargin, rfl⟩, rfl⟩
    obtain ⟨c, rest, hfirst, hdigit⟩ := n.areGroups.exists_cons
    have hmargin := isMargin_of_isDigit hdigit
    rw [Numeral.text, String.toList_ofList, List.append_assoc, List.append_assoc,
      List.dropWhile_append_of_pos n.left_isMargin, hfirst]
    have hsign := n.sign_mem
    simp only [integerSigns, List.mem_cons, List.not_mem_nil, or_false] at hsign
    rcases hsign with hsign | hsign | hsign
    · simp [hsign, hmargin]
    · rw [hsign]
      exact List.dropWhile_cons_of_neg (by decide)
    · rw [hsign]
      exact List.dropWhile_cons_of_neg (by decide)

example : (readInteger " +0_1٣\n").toOption = some 13 := by decide +kernel

end PropFlow.Text
