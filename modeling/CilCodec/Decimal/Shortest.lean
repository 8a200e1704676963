import CilCodec.FloatFormat

/-!
# The shortest decimal that reads back

Among the decimals inside the interval of reals that round to a binary number, the one with the
fewest digits, and of several the nearest. Every comparison is made on whole numbers: a number, both
ends of its interval and a decimal grid are brought to one common denominator.
-/
namespace CilCodec

/-- The number `digits * 10 ^ exponent`. -/
structure Decimal where
  digits : Nat
  exponent : Int

namespace Decimal

/-- The reals that round to a binary number, as numerators over one denominator. -/
structure RoundingInterval where
  low : Nat
  value : Nat
  high : Nat
  denominator : Nat
  closed : Bool

/-- The interval of `significand * 2 ^ exponent`. The gap below is half as wide when the neighbour
there has the next smaller exponent (`narrow`); the ends belong to an even significand. -/
def RoundingInterval.ofBinary (significand : Nat) (exponent : Int) (narrow : Bool) :
    RoundingInterval :=
  let scale := Nat.pow 2 (exponent - 2).toNat
  { low := (4 * significand - if narrow then 1 else 2) * scale
    value := 4 * significand * scale
    high := (4 * significand + 2) * scale
    denominator := Nat.pow 2 (2 - exponent).toNat
    closed := significand % 2 == 0 }

namespace RoundingInterval

def inUnits (r : RoundingInterval) (unit : Int) : RoundingInterval :=
  let up := Nat.pow 10 (-unit).toNat
  { low := r.low * up
    value := r.value * up
    high := r.high * up
    denominator := r.denominator * Nat.pow 10 unit.toNat
    closed := r.closed }

def contains (r : RoundingInterval) (n : Nat) : Bool :=
  let n := n * r.denominator
  if r.closed then decide (r.low ≤ n) && decide (n ≤ r.high)
  else decide (r.low < n) && decide (n < r.high)

/-- The whole number nearest to the value among its two neighbours that lie in the interval; of two
equally near the larger. -/
def nearestWhole (r : RoundingInterval) : Option Nat :=
  let below := r.value / r.denominator
  let above := below + 1
  match r.contains below, r.contains above with
  | false, false => none
  | true, false => some below
  | false, true => some above
  | true, true =>
    if r.value * 2 < (below + above) * r.denominator then some below else some above

/-- The least `k` with the value below `10 ^ k`. -/
def magnitude (r : RoundingInterval) : Int :=
  let whole := r.value / r.denominator
  if whole = 0 then
    1 - ((Nat.toDigits 10 ((r.denominator - 1) / r.value)).length : Int)
  else
    (Nat.toDigits 10 whole).length

end RoundingInterval

def trimmed (d : Decimal) : Decimal :=
  if h : d.digits ≠ 0 ∧ d.digits % 10 = 0 then
    trimmed ⟨d.digits / 10, d.exponent + 1⟩
  else d
termination_by d.digits
decreasing_by omega

/-- The best decimal with `count` digits, if one lies in the interval. -/
def withDigits (r : RoundingInterval) (count : Nat) : Option Decimal :=
  let unit := r.magnitude - count
  (r.inUnits unit).nearestWhole.map (⟨·, unit⟩)

/-- The most digits that any number of the two formats needs. -/
def mostDigits : Nat := 17

/-- The shortest decimal that reads back as the binary number whose interval this is. -/
def shortest (r : RoundingInterval) : Decimal :=
  (((List.range mostDigits).findSome? fun n => withDigits r (n + 1)).getD ⟨0, 0⟩).trimmed

end Decimal
end CilCodec
