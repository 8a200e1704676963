import CilCodec.Metadata.Token
import CilCodec.Opcode.OperandKind

/-!
# Operands

The values that operands take. Floating-point constants are bit patterns, so that equal operands
have equal bytes. The main statements say which operand each partial view comes from.
-/
namespace CilCodec

inductive Immediate where
  | int8 (value : Int8)
  | int32 (value : Int32)
  | int64 (value : Int64)
  | float32 (bits : UInt32)
  | float64 (bits : UInt64)
  deriving DecidableEq

namespace Immediate

def int8? : Immediate → Option Int8
  | int8 value => some value
  | _ => none

def int32? : Immediate → Option Int32
  | int32 value => some value
  | _ => none

def int64? : Immediate → Option Int64
  | int64 value => some value
  | _ => none

def float32? : Immediate → Option UInt32
  | float32 bits => some bits
  | _ => none

def float64? : Immediate → Option UInt64
  | float64 bits => some bits
  | _ => none

@[simp] theorem int8?_eq_some_iff {c : Immediate} {v : Int8} :
    c.int8? = some v ↔ c = int8 v := by
  cases c <;> simp [int8?]

@[simp] theorem int32?_eq_some_iff {c : Immediate} {v : Int32} :
    c.int32? = some v ↔ c = int32 v := by
  cases c <;> simp [int32?]

@[simp] theorem int64?_eq_some_iff {c : Immediate} {v : Int64} :
    c.int64? = some v ↔ c = int64 v := by
  cases c <;> simp [int64?]

@[simp] theorem float32?_eq_some_iff {c : Immediate} {v : UInt32} :
    c.float32? = some v ↔ c = float32 v := by
  cases c <;> simp [float32?]

@[simp] theorem float64?_eq_some_iff {c : Immediate} {v : UInt64} :
    c.float64? = some v ↔ c = float64 v := by
  cases c <;> simp [float64?]

end Immediate

inductive Operand where
  | none
  | immediate (constant : Immediate)
  /-- An argument or local, by its index. -/
  | slot (index : UInt16)
  /-- A branch delta, counted from the start of the next instruction. -/
  | branch (delta : Int32)
  | token (token : Token)
  /-- The deltas of a jump table, counted from the start of the next instruction. -/
  | switch (deltas : List Int32)
  deriving DecidableEq

namespace Operand

def immediate? : Operand → Option Immediate
  | immediate c => some c
  | _ => Option.none

def slot? : Operand → Option UInt16
  | slot index => some index
  | _ => Option.none

def branch? : Operand → Option Int32
  | branch delta => some delta
  | _ => Option.none

def token? : Operand → Option Token
  | token t => some t
  | _ => Option.none

def switch? : Operand → Option (List Int32)
  | switch deltas => some deltas
  | _ => Option.none

@[simp] theorem immediate?_eq_some_iff {x : Operand} {c : Immediate} :
    x.immediate? = some c ↔ x = immediate c := by
  cases x <;> simp [immediate?]

@[simp] theorem slot?_eq_some_iff {x : Operand} {index : UInt16} :
    x.slot? = some index ↔ x = slot index := by
  cases x <;> simp [slot?]

@[simp] theorem branch?_eq_some_iff {x : Operand} {delta : Int32} :
    x.branch? = some delta ↔ x = branch delta := by
  cases x <;> simp [branch?]

@[simp] theorem token?_eq_some_iff {x : Operand} {t : Token} :
    x.token? = some t ↔ x = token t := by
  cases x <;> simp [token?]

@[simp] theorem switch?_eq_some_iff {x : Operand} {deltas : List Int32} :
    x.switch? = some deltas ↔ x = switch deltas := by
  cases x <;> simp [switch?]

def deltas : Operand → List Int32
  | branch delta => [delta]
  | switch deltas => deltas
  | _ => []

end Operand
end CilCodec
