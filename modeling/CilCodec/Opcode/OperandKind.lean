/-!
# Operand kinds

How the bytes after an opcode are to be read: how many there are and what they stand for.
-/
namespace CilCodec

inductive OperandKind where
  /-- No operand. -/
  | inlineNone
  /-- Signed 8-bit constant. -/
  | shortInlineI
  /-- Unsigned 8-bit argument or local index. -/
  | shortInlineVar
  /-- Signed 8-bit branch delta. -/
  | shortInlineBrTarget
  /-- Unsigned 16-bit argument or local index. -/
  | inlineVar
  /-- Signed 32-bit constant. -/
  | inlineI
  /-- Signed 32-bit branch delta. -/
  | inlineBrTarget
  /-- Token of a method. -/
  | inlineMethod
  /-- Token of a field. -/
  | inlineField
  /-- Token of a type. -/
  | inlineType
  /-- Token of a user string. -/
  | inlineString
  /-- Token of a stand-alone signature. -/
  | inlineSig
  /-- Token of a type, method or field. -/
  | inlineTok
  /-- 32-bit floating-point constant. -/
  | shortInlineR
  /-- Signed 64-bit constant. -/
  | inlineI8
  /-- 64-bit floating-point constant. -/
  | inlineR
  /-- Jump table: an unsigned 32-bit count, then that many signed 32-bit deltas. -/
  | inlineSwitch
  /-- Merge point of values; no instruction stream holds one. -/
  | inlinePhi
  deriving DecidableEq, Hashable

namespace OperandKind

def all : List OperandKind :=
  [inlineNone, shortInlineI, shortInlineVar, shortInlineBrTarget, inlineVar, inlineI,
    inlineBrTarget, inlineMethod, inlineField, inlineType, inlineString, inlineSig, inlineTok,
    shortInlineR, inlineI8, inlineR, inlineSwitch, inlinePhi]

def name : OperandKind → String
  | inlineNone => "InlineNone"
  | shortInlineI => "ShortInlineI"
  | shortInlineVar => "ShortInlineVar"
  | shortInlineBrTarget => "ShortInlineBrTarget"
  | inlineVar => "InlineVar"
  | inlineI => "InlineI"
  | inlineBrTarget => "InlineBrTarget"
  | inlineMethod => "InlineMethod"
  | inlineField => "InlineField"
  | inlineType => "InlineType"
  | inlineString => "InlineString"
  | inlineSig => "InlineSig"
  | inlineTok => "InlineTok"
  | shortInlineR => "ShortInlineR"
  | inlineI8 => "InlineI8"
  | inlineR => "InlineR"
  | inlineSwitch => "InlineSwitch"
  | inlinePhi => "InlinePhi"

def size? : OperandKind → Option Nat
  | inlineNone => some 0
  | shortInlineI | shortInlineVar | shortInlineBrTarget => some 1
  | inlineVar => some 2
  | inlineI | inlineBrTarget | inlineMethod | inlineField | inlineType | inlineString | inlineSig
  | inlineTok | shortInlineR => some 4
  | inlineI8 | inlineR => some 8
  | inlineSwitch | inlinePhi => none

def isToken : OperandKind → Bool
  | inlineMethod | inlineField | inlineType | inlineString | inlineSig | inlineTok => true
  | _ => false

def isBranch : OperandKind → Bool
  | shortInlineBrTarget | inlineBrTarget => true
  | _ => false

theorem size?_of_isToken {k : OperandKind} (h : k.isToken = true) : k.size? = some 4 := by
  cases k <;> simp_all [isToken, size?]

end OperandKind
end CilCodec
