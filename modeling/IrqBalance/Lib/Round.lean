import Mathlib.Algebra.Group.Nat.Defs
import Mathlib.Data.Nat.Basic

/-!
# Rounding to a number of significant bits

Binary floating point on fixed-point naturals: a number is a natural in some unit `2 ^ (-f)` that
the user keeps track of. Rounding is to nearest, ties to even, and exponents are not bounded.
-/

namespace Round

/-- `a / b` rounded to the nearest natural, ties to even. -/
def divNearest (a b : ℕ) : ℕ :=
  let q := a / b
  if 2 * (a % b) < b then q else if b < 2 * (a % b) then q + 1 else q + q % 2

/-- `a / b` rounded to `p` significant bits, when it has at least `p` bits before the point; fewer
bits are rounded to a natural. -/
def ratio (p a b : ℕ) : ℕ :=
  let k := (a / b).log2 + 1 - p
  divNearest a (b * 2 ^ k) * 2 ^ k

/-- `n` rounded to `p` significant bits. -/
def sig (p n : ℕ) : ℕ := ratio p n 1

/-- The square root from its bits: `r` has the bits from `k` on. -/
def sqrtFrom : ℕ → ℕ → ℕ → ℕ
  | 0, _, r => r
  | k + 1, n, r => sqrtFrom k n (if (r + 2 ^ k) * (r + 2 ^ k) ≤ n then r + 2 ^ k else r)

/-- The integer part of the square root. -/
def isqrt (n : ℕ) : ℕ := sqrtFrom (n.log2 / 2 + 1) n 0

/-- The square root of a natural `n`, in the unit `2 ^ (-f)`, rounded to `f + 1` significant bits.
With `4 ^ k ≤ n < 4 ^ (k + 1)` the last of these bits has weight `2 ^ (k - f)`. -/
def sqrtSig (f n : ℕ) : ℕ :=
  if n = 0 then 0
  else
    let k := n.log2 / 2
    -- nearest to `sqrt (n * 4 ^ (f - k))`: half of the root of four times the number, rounded up
    (isqrt (4 * n * 4 ^ (f - k)) + 1) / 2 * 2 ^ k

end Round
