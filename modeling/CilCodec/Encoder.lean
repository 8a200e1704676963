import CilCodec.Instruction.Basic
import CilCodec.Opcode.Lookup
import CilCodec.Operand.Encoding

/-!
# Encoders

An encoder collects the bytes of instructions, named by mnemonic or taken as they were decoded. It
writes an opcode before it looks at the operand, and drops it again where the operand is refused.
The main statements say that an accepted instruction appends its own bytes, and that a refused one
leaves the encoder as it was.
-/
namespace CilCodec

structure Encoder where
  bytes : Array UInt8
  deriving DecidableEq

inductive Emit where
  /-- The defined opcode of that name; no operand is the empty operand. -/
  | named (mnemonic : String) (operand : Option Operand)
  | instruction (instruction : Instruction)
  deriving DecidableEq

namespace Emit

def encode : Emit → Except Error (List UInt8)
  | named mnemonic operand =>
    match Opcode.ofMnemonic mnemonic with
    | .ok o => o.encode (operand.getD .none)
    | .error e => .error e
  | instruction i => i.opcode.encode i.operand

end Emit

structure Emission where
  result : Except Error Unit
  position : Nat

namespace Encoder

def ofList (bytes : List UInt8) : Encoder := ⟨bytes.toArray⟩

def toList (e : Encoder) : List UInt8 := e.bytes.toList

def position (e : Encoder) : Nat := e.bytes.size

def emitOperand (o : Opcode) (x : Operand) : EStateM Error Encoder Unit := fun e =>
  match o.kind.encode? x with
  | some bytes => .ok () ⟨e.bytes ++ bytes⟩
  | none => .error (.malformed (.misfit (o.misfit x))) e

/-- Appends an opcode and then its operand. Where the operand is refused, whatever stands behind the
old end is dropped. -/
def emitOpcode (o : Opcode) (x : Operand) : EStateM Error Encoder Unit := fun e =>
  match emitOperand o x ⟨e.bytes ++ o.bytes⟩ with
  | .ok () e' => .ok () e'
  | .error error e' => .error error ⟨e'.bytes.shrink e.position⟩

def emit (request : Emit) : EStateM Error Encoder Unit := fun e =>
  match request with
  | .named mnemonic operand =>
    match Opcode.ofMnemonic mnemonic with
    | .ok o => emitOpcode o (operand.getD .none) e
    | .error error => .error error e
  | .instruction i => emitOpcode i.opcode i.operand e

def attempt (request : Emit) (e : Encoder) : Emission × Encoder :=
  match emit request e with
  | .ok () e' => (⟨.ok (), e'.position⟩, e')
  | .error error e' => (⟨.error error, e'.position⟩, e')

/-- Carries out requests behind earlier ones, whose outcomes are in reverse order. -/
def runAfter (earlier : List Emission) : List Emit → Encoder → List Emission × Encoder
  | [], e => (earlier.reverse, e)
  | request :: rest, e =>
    let (emission, e') := attempt request e
    runAfter (emission :: earlier) rest e'

def run (requests : List Emit) (e : Encoder) : List Emission × Encoder := runAfter [] requests e

private theorem runAfter_eq (earlier : List Emission) (requests : List Emit) (e : Encoder) :
    runAfter earlier requests e = (earlier.reverse ++ (run requests e).1, (run requests e).2) := by
  induction requests generalizing earlier e with
  | nil => simp [run, runAfter]
  | cons request rest ih => simp [run, runAfter, ih (_ :: _)]

theorem run_cons (request : Emit) (rest : List Emit) (e : Encoder) :
    run (request :: rest) e =
      ((attempt request e).1 :: (run rest (attempt request e).2).1,
        (run rest (attempt request e).2).2) := by
  simp [run, runAfter, runAfter_eq [_]]

@[simp] theorem toList_ofList (bytes : List UInt8) : (ofList bytes).toList = bytes := rfl

theorem length_toList (e : Encoder) : e.toList.length = e.position := by
  simp [toList, position]

theorem append_append (e : Encoder) (front behind : List UInt8) :
    (⟨e.bytes ++ front ++ behind⟩ : Encoder) = ⟨e.bytes ++ (front ++ behind)⟩ := by
  rw [mk.injEq]
  apply Array.toList_inj.1
  simp

/-- Dropping what stands behind the old end leaves what was there. -/
theorem shrink_append (e : Encoder) (bytes : List UInt8) :
    (⟨(e.bytes ++ bytes).shrink e.position⟩ : Encoder) = e := by
  rcases e with ⟨old⟩
  rw [position, mk.injEq]
  apply Array.toList_inj.1
  simp

theorem emitOpcode_of_ok {o : Opcode} {x : Operand} {bytes : List UInt8}
    (h : o.encode x = .ok bytes) (e : Encoder) :
    emitOpcode o x e = .ok () ⟨e.bytes ++ bytes⟩ := by
  obtain ⟨w, hw, rfl⟩ := Opcode.encode_eq_ok_iff.1 h
  rw [emitOpcode, emitOperand, hw, ← append_append]

theorem emitOpcode_of_error {o : Opcode} {x : Operand} {error : Error}
    (h : o.encode x = .error error) (e : Encoder) : emitOpcode o x e = .error error e := by
  obtain ⟨hx, rfl⟩ := Opcode.encode_eq_error_iff.1 h
  rw [emitOpcode, emitOperand, hx]
  exact congrArg _ (e.shrink_append o.bytes)

theorem emit_of_ok {request : Emit} {bytes : List UInt8} (h : request.encode = .ok bytes)
    (e : Encoder) : emit request e = .ok () ⟨e.bytes ++ bytes⟩ := by
  cases request with
  | named mnemonic operand =>
    rw [Emit.encode] at h
    rw [emit]
    cases ho : Opcode.ofMnemonic mnemonic with
    | ok o =>
      rw [ho] at h
      exact emitOpcode_of_ok h e
    | error f =>
      rw [ho] at h
      cases h
  | instruction i => exact emitOpcode_of_ok h e

theorem emit_of_error {request : Emit} {error : Error} (h : request.encode = .error error)
    (e : Encoder) : emit request e = .error error e := by
  cases request with
  | named mnemonic operand =>
    rw [Emit.encode] at h
    rw [emit]
    cases ho : Opcode.ofMnemonic mnemonic with
    | ok o =>
      rw [ho] at h
      exact emitOpcode_of_error h e
    | error f =>
      rw [ho] at h
      cases h
      rfl
  | instruction i => exact emitOpcode_of_error h e

end Encoder
end CilCodec
