import Mathlib.Data.List.Basic
import PropFlow.Text.Casing

namespace PropFlow.Text

namespace Casing

-- All runs of capitals but the first one begin behind the ASCII characters.
theorem find?_capitalRuns_of_ascii {code : Nat} (h : code < 128) :
    capitalRuns.find? (fun run =>
      decide (run.first ≤ code ∧ code ≤ run.last ∧ (code - run.first) % run.step = 0)) =
      if 0x41 ≤ code ∧ code ≤ 0x5A then some ⟨0x41, 0x5A, 1, 32⟩ else none := by
  have hfirst : ∀ run ∈ capitalRuns.tail, 128 ≤ run.first := by decide +kernel
  have hruns : capitalRuns = ⟨0x41, 0x5A, 1, 32⟩ :: capitalRuns.tail := rfl
  have hrest : capitalRuns.tail.find? (fun run =>
      decide (run.first ≤ code ∧ code ≤ run.last ∧ (code - run.first) % run.step = 0)) = none := by
    rw [List.find?_eq_none]
    intro run hrun hmatch
    have hle := hfirst run hrun
    have hcode := (of_decide_eq_true hmatch).1
    omega
  rw [hruns, List.find?_cons, hrest]
  by_cases hcapital : 0x41 ≤ code ∧ code ≤ 0x5A
  · simp [hcapital, Nat.mod_one]
  · simp [hcapital, Nat.mod_one]

theorem smallLetter_of_ascii {c : Char} (h : c.toNat < 128) : smallLetter c = c.toLower := by
  have hcodes : ∀ n < 128, (if 0x41 ≤ n ∧ n ≤ 0x5A then Char.ofNat (n + 32) else Char.ofNat n) =
      (Char.ofNat n).toLower := by decide
  have hc := hcodes c.toNat h
  rw [Char.ofNat_toNat] at hc
  rw [← hc, smallLetter, find?_capitalRuns_of_ascii h]
  split_ifs
  · rfl
  · rfl

theorem lowerLetter_of_ascii {c : Char} (h : c.toNat < 128) (before after : List Char) :
    lowerLetter before c after = [c.toLower] := by
  have hsigma : c ≠ 'Σ' := by
    rintro rfl
    exact absurd h (by decide)
  have hdotted : c ≠ 'İ' := by
    rintro rfl
    exact absurd h (by decide)
  rw [lowerLetter, if_neg hsigma, if_neg hdotted, smallLetter_of_ascii h]

theorem lowerFrom_of_ascii {cs : List Char} (h : ∀ c ∈ cs, c.toNat < 128) (before : List Char) :
    lowerFrom before cs = cs.map Char.toLower := by
  induction cs generalizing before with
  | nil => rfl
  | cons c rest ih =>
      obtain ⟨hc, hrest⟩ := List.forall_mem_cons.mp h
      rw [lowerFrom, lowerLetter_of_ascii hc, ih hrest]
      rfl

end Casing

theorem toList_lower_of_ascii {cs : List Char} (h : ∀ c ∈ cs, c.toNat < 128) :
    (lower (String.ofList cs)).toList = cs.map Char.toLower := by
  simp [lower, Casing.lowerFrom_of_ascii h]

end PropFlow.Text
