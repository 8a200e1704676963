import CilCodec.Error.Message
import CilCodec.Instruction.Listing
import CilCodec.Resolver.Query

/-!
# Events

What happens while a body is read, for a transcript. An event has a level and a text.
-/
namespace CilCodec

inductive Level where
  | trace | debug | warn
  deriving DecidableEq

def Level.name : Level → String
  | trace => "TRACE"
  | debug => "DEBUG"
  | warn => "WARN"

inductive Event where
  /-- An instruction was read. -/
  | decoded (instruction : Instruction)
  /-- The instruction at the offset could not be read. -/
  | failed (offset : Nat) (error : Error)
  /-- The resolver had no symbol for the token of the instruction at the offset. -/
  | unresolved (offset : Nat) (mnemonic : String) (token : Token) (error : ResolveError)
  /-- Reading starts again at the offset, behind the first byte of a failed instruction. -/
  | resynchronised (offset : Nat)
  /-- The answer about the token was remembered. -/
  | cacheHit (token : Token)
  deriving DecidableEq

namespace Event

def level : Event → Level
  | decoded _ | cacheHit _ => .trace
  | failed .. | unresolved .. => .debug
  | resynchronised _ => .warn

def message : Event → String
  | decoded i => i.line
  | failed offset error =>
    "decoding failed at offset 0x" ++ Numeral.upperHex 1 offset ++ ": " ++ error.message
  | unresolved offset mnemonic token error =>
    label offset ++ ": " ++ mnemonic ++ " " ++ token.text ++ " left unresolved - " ++ error.message
  | resynchronised offset =>
    "resynchronising instruction stream at offset 0x" ++ Numeral.upperHex 1 offset
  | cacheHit token => "resolver cache hit for " ++ token.text

end Event
end CilCodec
