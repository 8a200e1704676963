import CilCodec.Opcode.OperandKind

/-!
# Opcodes

An opcode is one byte, or the escape byte and one more. It has a mnemonic, a kind of operand and a
way to pass control on; a value of the type need not stand in the table of defined opcodes.
-/
namespace CilCodec

inductive Flow where
  /-- Falls through to the next instruction. -/
  | sequential
  /-- Branches or falls through. -/
  | conditionalBranch
  /-- Always branches. -/
  | unconditionalBranch
  /-- Branches through a jump table or falls through. -/
  | switch
  /-- Calls a method and continues. -/
  | call
  /-- Leaves the method or filter. -/
  | exit
  /-- Raises an exception. -/
  | throw
  /-- Leaves a protected region. -/
  | leave
  /-- Ends a finally or fault handler. -/
  | endFinally
  deriving DecidableEq

namespace Flow

def all : List Flow :=
  [sequential, conditionalBranch, unconditionalBranch, switch, call, exit, throw, leave, endFinally]

def name : Flow → String
  | sequential => "Sequential"
  | conditionalBranch => "ConditionalBranch"
  | unconditionalBranch => "UnconditionalBranch"
  | switch => "Switch"
  | call => "Call"
  | exit => "Return"
  | throw => "Throw"
  | leave => "Leave"
  | endFinally => "EndFinally"

end Flow

/-- An opcode: the byte `value`, after the byte `lead` unless that is zero. -/
structure Opcode where
  mnemonic : String
  lead : UInt8
  value : UInt8
  kind : OperandKind
  flow : Flow
  deriving DecidableEq

namespace Opcode

def size (o : Opcode) : Nat := if o.lead = 0 then 1 else 2

def code (o : Opcode) : UInt16 := o.lead.toUInt16 <<< 8 ||| o.value.toUInt16

/-- Tells an opcode from the placeholder of a slot that has none. -/
def isDefined (o : Opcode) : Bool := o.mnemonic != ""

def bytes (o : Opcode) : List UInt8 :=
  if o.lead = 0 then [o.value] else [o.lead, o.value]

@[simp] theorem length_bytes (o : Opcode) : o.bytes.length = o.size := by
  unfold bytes size
  split <;> rfl

theorem size_pos (o : Opcode) : 0 < o.size := by
  unfold size
  split <;> decide

end Opcode
end CilCodec
