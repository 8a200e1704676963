import CilCodec.Text.Numeral
import Mathlib.Logic.Function.Basic

/-!
# Numerals are read back

No two numbers have the same numeral, since each numeral can be read back: hexadecimal digits of
either case behind any padding, and decimal digits behind a sign or none. The main statements say so
and which characters numerals are made of.
-/
namespace CilCodec.Numeral

/-- What a hexadecimal digit of either case counts. -/
def digitValue (c : Char) : Nat :=
  if c.isDigit then c.toNat - '0'.toNat else c.toUpper.toNat - 'A'.toNat + 10

def hexValue (digits : List Char) : Nat := digits.foldl (fun n c => 16 * n + digitValue c) 0

/-- The number that decimal digits spell behind a sign or none. -/
def signedValue : List Char → Int
  | '-' :: digits => -(Nat.ofDigitChars 10 digits 0 : Int)
  | '+' :: digits => Nat.ofDigitChars 10 digits 0
  | digits => Nat.ofDigitChars 10 digits 0

variable {c : Char} {width m n : Nat}

theorem hexValue_concat (digits : List Char) (c : Char) :
    hexValue (digits ++ [c]) = 16 * hexValue digits + digitValue c := by
  simp [hexValue]

theorem hexValue_leftpad (width : Nat) (digits : List Char) :
    hexValue (digits.leftpad width '0') = hexValue digits := by
  rw [List.leftpad]
  induction width - digits.length with
  | zero => rfl
  | succ zeros ih =>
    rw [← ih, List.replicate_succ, List.cons_append]
    rfl

/-- Digits are read back in every spelling that keeps what each of them counts. -/
theorem hexValue_map_hexDigits {f : Char → Char}
    (h : ∀ d < 16, digitValue (f (Nat.digitChar d)) = d) (n : Nat) :
    hexValue ((hexDigits n).map f) = n := by
  induction n using Nat.strongRecOn with
  | ind n ih =>
    by_cases hn : n < 16
    · rw [hexDigits, Nat.toDigits_of_lt_base hn]
      simpa [hexValue] using h n hn
    · have hlast := h (n % 16) (Nat.mod_lt n (by decide))
      rw [hexDigits, Nat.toDigits_of_base_le (by decide) (by omega), List.map_append,
        List.map_singleton, hexValue_concat, ← hexDigits, ih (n / 16) (by omega), hlast]
      omega

theorem hexValue_hex (width n : Nat) : hexValue (hex width n).toList = n := by
  have hdigits := hexValue_map_hexDigits (f := id) (by decide) n
  rw [List.map_id] at hdigits
  rw [hex, String.toList_ofList, hexValue_leftpad, hdigits]

theorem hexValue_upperHex (width n : Nat) : hexValue (upperHex width n).toList = n := by
  rw [upperHex, String.toList_ofList, hexValue_leftpad,
    hexValue_map_hexDigits (f := Char.toUpper) (by decide)]

theorem hex_injective (width : Nat) : Function.Injective (hex width) := by
  intro m n h
  rw [← hexValue_hex width m, h, hexValue_hex]

theorem upperHex_injective (width : Nat) : Function.Injective (upperHex width) := by
  intro m n h
  rw [← hexValue_upperHex width m, h, hexValue_upperHex]

theorem isAlphanum_of_mem_hexDigits (h : c ∈ hexDigits n) : c.isAlphanum = true := by
  have hall : ∀ d < 16, (Nat.digitChar d).isAlphanum = true := by decide
  induction n using Nat.strongRecOn with
  | ind n ih =>
    by_cases hn : n < 16
    · rw [hexDigits, Nat.toDigits_of_lt_base hn, List.mem_singleton] at h
      rw [h]
      exact hall n hn
    · rw [hexDigits, Nat.toDigits_of_base_le (by decide) (by omega), List.mem_append,
        List.mem_singleton] at h
      rcases h with h | rfl
      · exact ih (n / 16) (by omega) h
      · exact hall _ (Nat.mod_lt n (by decide))

theorem isAlphanum_of_mem_hex (h : c ∈ (hex width n).toList) : c.isAlphanum = true := by
  rw [hex, String.toList_ofList, List.leftpad, List.mem_append, List.mem_replicate] at h
  rcases h with ⟨-, rfl⟩ | h
  · rfl
  · exact isAlphanum_of_mem_hexDigits h

theorem signedValue_of_isDigit {digits : List Char} (h : ∀ c ∈ digits, c.isDigit = true) :
    signedValue digits = Nat.ofDigitChars 10 digits 0 := by
  unfold signedValue
  split
  · exact absurd (h '-' List.mem_cons_self) (by decide)
  · exact absurd (h '+' List.mem_cons_self) (by decide)
  · rfl

theorem toList_toString (n : Nat) : (toString n).toList = Nat.toDigits 10 n := by simp

theorem signedValue_minus (n : Nat) : signedValue ("-" ++ toString n).toList = -n := by
  rw [String.toList_append, toList_toString]
  change -(Nat.ofDigitChars 10 (Nat.toDigits 10 n) 0 : Int) = -n
  rw [Nat.ofDigitChars_ten_toDigits]

theorem signedValue_plus (n : Nat) : signedValue ("+" ++ toString n).toList = n := by
  rw [String.toList_append, toList_toString]
  change (Nat.ofDigitChars 10 (Nat.toDigits 10 n) 0 : Int) = n
  rw [Nat.ofDigitChars_ten_toDigits]

theorem isDigit_of_mem_toDigits (h : c ∈ Nat.toDigits 10 n) : c.isDigit = true :=
  Nat.isDigit_of_mem_toDigits (by decide) (by decide) h

theorem signedValue_decimal (n : Int) : signedValue (decimal n).toList = n := by
  unfold decimal
  split
  · rw [signedValue_minus]
    omega
  · rw [toList_toString, signedValue_of_isDigit fun c hc => isDigit_of_mem_toDigits hc,
      Nat.ofDigitChars_ten_toDigits]
    omega

theorem signedValue_signed (n : Int) : signedValue (signed n).toList = n := by
  by_cases hn : n < 0
  · rw [signed_of_neg hn, signedValue_decimal]
  · rw [signed, if_neg hn, signedValue_plus]
    omega

theorem decimal_injective : Function.Injective decimal := by
  intro m n h
  rw [← signedValue_decimal m, h, signedValue_decimal]

theorem signed_injective : Function.Injective signed := by
  intro m n h
  rw [← signedValue_signed m, h, signedValue_signed]

theorem mem_signed {n : Int} (h : c ∈ (signed n).toList) : c = '+' ∨ c = '-' ∨ c.isDigit = true := by
  rw [signed, String.toList_append, List.mem_append, toList_toString] at h
  rcases h with h | h
  · split at h
    · exact .inr (.inl (List.mem_singleton.1 h))
    · exact .inl (List.mem_singleton.1 h)
  · exact .inr (.inr (isDigit_of_mem_toDigits h))

end CilCodec.Numeral
