import CilCodec.Decimal.Shortest

/-!
# Layout of decimals

How a floating-point number is written: the shortest digits that read back, with a point while the
leading digit stands between two given powers of ten and with an exponent outside them. A whole
number keeps a zero after its point, so that it does not look like an integer.
-/
namespace CilCodec.Decimal

/-- Where the point stands: the leading digit's power of ten is at least `least` and below `limit`,
or else the number has an exponent. -/
structure Layout where
  least : Int
  limit : Int

namespace Layout

/-- Digits with a point before the digit at `point`. -/
def positional (digits : List Char) (point : Int) : List Char :=
  if point ≤ 0 then
    '0' :: '.' :: (List.replicate point.natAbs '0' ++ digits)
  else if digits.length ≤ point.toNat then
    digits ++ List.replicate (point.toNat - digits.length) '0' ++ ['.', '0']
  else
    digits.take point.toNat ++ '.' :: digits.drop point.toNat

/-- Digits with a point after the first, and the power of ten of that first digit. -/
def scientific (digits : List Char) (power : Int) : List Char :=
  let mantissa := match digits with
    | [] => []
    | [d] => [d]
    | d :: rest => d :: '.' :: rest
  mantissa ++ 'e' :: (toString power).toList

def text (l : Layout) (d : Decimal) : String :=
  let digits := Nat.toDigits 10 d.digits
  let point := digits.length + d.exponent
  if l.least < point ∧ point ≤ l.limit then String.ofList (positional digits point)
  else String.ofList (scientific digits (point - 1))

end Layout

def ofBits (l : Layout) (f : FloatFormat) (bits : Nat) : String :=
  match f.datum bits with
  | .nan => "NaN"
  | .infinite negative => if negative then "-inf" else "inf"
  | .finite negative significand exponent =>
    let sign := if negative then "-" else ""
    if significand = 0 then sign ++ "0.0"
    else
      let narrow := f.fraction bits == 0 && decide (f.leastExponent < exponent)
      sign ++ l.text (shortest (.ofBinary significand exponent narrow))

end CilCodec.Decimal
