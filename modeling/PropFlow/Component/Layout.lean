import PropFlow.Component.Basic

namespace PropFlow.Layout

def spacing : Nat := 50

def margin : Nat := 50

-- The least number whose square is at least `n`, looked for from `k` on.
def ceilSqrtFrom (n k : Nat) : Nat → Nat
  | 0 => k
  | fuel + 1 => if n ≤ k * k then k else ceilSqrtFrom n (k + 1) fuel

-- The least number whose square is at least `n`.
def ceilSqrt (n : Nat) : Nat :=
  ceilSqrtFrom n 0 n

-- Column and row follow from the place in the list alone, the distances from the component's own
-- size.
def place (columns index : Nat) (c : Component) : Component :=
  { c with
    x := index % columns * (c.width + spacing) + margin
    y := index / columns * (c.height + spacing) + margin }

-- Components on a grid that is about as wide as it is high, row by row.
def arrange (components : List Component) : List Component :=
  components.mapIdx (place (ceilSqrt components.length))

end PropFlow.Layout
