import CilCodec.Instruction.Basic
import CilCodec.Operand.Text

/-!
# Listings

The line of text that shows an instruction: its label, its mnemonic, its operand and, behind two
slashes, the symbol that its token was resolved to. Branches show the labels of their targets, or
their signed deltas if some target is missing.
-/
namespace CilCodec

/-- The label of an offset: at least four hexadecimal digits. -/
def label (offset : Nat) : String := "IL_" ++ Numeral.hex 4 offset

/-- The destination of a branch: its first target or else its delta. -/
def branchText (delta : Int32) (targets : List Nat) : String :=
  match targets with
  | target :: _ => label target
  | [] => Numeral.signed delta.toInt

/-- The destinations of a jump table: labels if there is one for every delta, or else the deltas. -/
def tableText (deltas : List Int32) (targets : List Nat) : String :=
  let entries := if targets.length = deltas.length then targets.map label
    else deltas.map fun delta => Numeral.signed delta.toInt
  "(" ++ ", ".intercalate entries ++ ")"

def Operand.text (targets : List Nat) : Operand → String
  | none => ""
  | immediate c => " " ++ c.text
  | slot index => " " ++ Numeral.decimal index.toNat
  | branch delta => " " ++ branchText delta targets
  | token t => " " ++ t.text
  | switch deltas => " " ++ tableText deltas targets

def Resolution.text : Resolution → String
  | resolved symbol => " // " ++ symbol.text
  | _ => ""

/-- The instruction without what became of its token. -/
def Instruction.body (i : Instruction) : String :=
  label i.offset ++ ": " ++ i.mnemonic ++ i.operand.text i.targets

def Instruction.line (i : Instruction) : String := i.body ++ i.resolution.text

end CilCodec
