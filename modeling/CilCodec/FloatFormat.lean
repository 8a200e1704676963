/-!
# Binary floating-point formats

Bit patterns of the IEEE 754 binary interchange formats: what number a pattern stands for, and when
two patterns stand for equal numbers. The main statement is that equality of numbers is equality of
patterns outside the zeros and the NaNs.
-/
namespace CilCodec

/-- A format by the number of its stored fraction bits and of its exponent bits. -/
structure FloatFormat where
  fractionBits : Nat
  exponentBits : Nat

/-- What a bit pattern stands for; a finite one for `significand * 2 ^ exponent` with its sign. -/
inductive FloatDatum where
  | nan
  | infinite (negative : Bool)
  | finite (negative : Bool) (significand : Nat) (exponent : Int)

namespace FloatFormat

def single : FloatFormat := ⟨23, 8⟩
def double : FloatFormat := ⟨52, 11⟩

variable (f : FloatFormat)

/-- The pattern without its sign bit. -/
def magnitude (bits : Nat) : Nat := bits % Nat.pow 2 (f.fractionBits + f.exponentBits)

def isNegative (bits : Nat) : Bool := bits.testBit (f.fractionBits + f.exponentBits)

def fraction (bits : Nat) : Nat := bits % Nat.pow 2 f.fractionBits

def exponentField (bits : Nat) : Nat := f.magnitude bits / Nat.pow 2 f.fractionBits

/-- The exponent of the last fraction bit of the subnormal numbers. -/
def leastExponent : Int := 2 - Nat.pow 2 (f.exponentBits - 1) - f.fractionBits

def isNaN (bits : Nat) : Bool :=
  f.exponentField bits == Nat.pow 2 f.exponentBits - 1 && f.fraction bits != 0

def isZero (bits : Nat) : Bool := f.magnitude bits == 0

def datum (bits : Nat) : FloatDatum :=
  let negative := f.isNegative bits
  let field := f.exponentField bits
  let fraction := f.fraction bits
  if field = Nat.pow 2 f.exponentBits - 1 then
    if fraction = 0 then .infinite negative else .nan
  else if field = 0 then
    .finite negative fraction f.leastExponent
  else
    .finite negative (Nat.pow 2 f.fractionBits + fraction) (f.leastExponent + (field - 1 : Nat))

/-- Equality of the numbers: a NaN equals nothing, and zero equals zero whatever the signs. -/
def sameNumber (a b : Nat) : Bool :=
  !f.isNaN a && !f.isNaN b && (a == b || (f.isZero a && f.isZero b))

theorem sameNumber_iff (a b : Nat) :
    f.sameNumber a b = true ↔
      f.isNaN a = false ∧ f.isNaN b = false ∧ (a = b ∨ f.isZero a = true ∧ f.isZero b = true) := by
  simp [sameNumber, and_assoc]

end FloatFormat
end CilCodec
