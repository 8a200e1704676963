/-!
# Machine words

Offsets and sizes are 64-bit words. Sums and products that would leave the range stop at its end, and
a distance is added to an offset only where the sum is a word.
-/
namespace CilCodec.Word

def range : Nat := UInt64.size

/-- The word nearest to `n`. -/
def saturated (n : Nat) : Nat := min n (range - 1)

theorem saturated_of_lt {n : Nat} (h : n < range) : saturated n = n := by
  unfold saturated
  omega

/-- The sum of an offset and a signed distance, if it is a word. -/
def displaced? (offset : Nat) (distance : Int) : Option Nat :=
  let sum := offset + distance
  if 0 ≤ sum ∧ sum < range then some sum.toNat else none

theorem displaced?_eq_some_iff {offset target : Nat} {distance : Int} :
    displaced? offset distance = some target ↔ (target : Int) = offset + distance ∧ target < range := by
  unfold displaced?
  simp only
  split
  · next h => simp only [Option.some.injEq]; omega
  · next h => simp only [reduceCtorEq, false_iff]; omega

end CilCodec.Word
