import CilCodec.Text.Graphic
import CilCodec.Text.ExtendingMark
import CilCodec.Text.Numeral

/-!
# Quoted text

A string between double quotes, with escapes for what would not survive in print: the quote and the
backslash, four controls with letters of their own, and by number every character that is not
graphic or that would attach to its neighbour.
-/
namespace CilCodec.Quoted

def isPlain (c : Char) : Bool :=
  CodePoint.isGraphic c && !CodePoint.isExtendingMark c

/-- A character by its number in hexadecimal, between braces. -/
def byNumber (c : Char) : String :=
  "\\u\x7b" ++ Numeral.hex 1 c.toNat ++ "\x7d"

def escape (c : Char) : String :=
  match c with
  | '\x00' => "\\0"
  | '\t' => "\\t"
  | '\r' => "\\r"
  | '\n' => "\\n"
  | '"' => "\\\""
  | '\\' => "\\\\"
  | c => if isPlain c then c.toString else byNumber c

def quote (text : String) : String :=
  "\"" ++ String.join (text.toList.map escape) ++ "\""

end CilCodec.Quoted
