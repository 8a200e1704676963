/-!
# Numerals

Whole numbers as text: hexadecimal in either case, with zeros in front up to a least width, and
decimal with a sign only below zero or always.
-/
namespace CilCodec.Numeral

/-- The hexadecimal digits of `n` in lower case, most significant first. -/
def hexDigits (n : Nat) : List Char := Nat.toDigits 16 n

def hex (width n : Nat) : String := String.ofList ((hexDigits n).leftpad width '0')

def upperHex (width n : Nat) : String :=
  String.ofList (((hexDigits n).map Char.toUpper).leftpad width '0')

def decimal (n : Int) : String :=
  if n < 0 then "-" ++ toString n.natAbs else toString n.natAbs

/-- Decimal with a sign in front of every number, zero included. -/
def signed (n : Int) : String :=
  (if n < 0 then "-" else "+") ++ toString n.natAbs

theorem signed_of_neg {n : Int} (h : n < 0) : signed n = decimal n := by
  simp [signed, decimal, h]

end CilCodec.Numeral
