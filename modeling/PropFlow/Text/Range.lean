namespace PropFlow.Text

-- Whether a code point lies in one of some closed ranges.
def inRanges (ranges : List (Nat × Nat)) (code : Nat) : Bool :=
  ranges.any fun r => decide (r.1 ≤ code ∧ code ≤ r.2)

end PropFlow.Text
