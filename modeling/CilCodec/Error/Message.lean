import CilCodec.Error.Basic

/-!
# Wording of errors

The text of each error, offsets in upper-case hexadecimal.
-/
namespace CilCodec

def Fault.description : Fault → String
  | misfit m => m.message
  | reported message .. => message

/-- The description of a fault behind the file and the line that reported it. For a misfit these
would be places in the text of the encoder; they are left out, and the description stands alone. -/
def Fault.message : Fault → String
  | misfit m => m.message
  | reported message file line => file ++ ":" ++ Numeral.decimal line.toNat ++ ": " ++ message

private def atOffset (offset : Nat) : String := "at offset 0x" ++ Numeral.upperHex 1 offset

def Error.message : Error → String
  | truncated offset needed available =>
    "Truncated stream " ++ atOffset offset ++ " - needed " ++ Numeral.decimal needed ++
      " bytes, " ++ Numeral.decimal available ++ " available"
  | unknownOpcode offset lead value =>
    "Unknown opcode " ++ Numeral.upperHex 2 lead.toNat ++ ":" ++ Numeral.upperHex 2 value.toNat ++
      " " ++ atOffset offset
  | unsupportedOperand offset kind =>
    "Unsupported operand kind " ++ kind.name ++ " " ++ atOffset offset
  | switchTooLarge offset count limit =>
    "Switch " ++ atOffset offset ++ " has " ++ Numeral.decimal count ++ " targets, limit is " ++
      Numeral.decimal limit
  | malformed fault => "Malformed - " ++ fault.message
  | invalidMnemonic name => "Invalid mnemonic - " ++ name

end CilCodec
