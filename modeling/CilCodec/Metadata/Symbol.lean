import CilCodec.Metadata.Token
import CilCodec.Opcode.OperandKind
import CilCodec.Text.Quoted

/-!
# Symbols

What a token names once it has been resolved, and what each kind of token operand should name.
-/
namespace CilCodec

inductive SymbolKind where
  /-- A method definition, reference or instantiation. -/
  | method
  /-- A field definition or reference. -/
  | field
  /-- A type definition, reference or specification. -/
  | type
  /-- A user string. -/
  | string
  /-- A stand-alone signature. -/
  | signature
  /-- A member whose kind is known only when the program runs. -/
  | member
  deriving DecidableEq

namespace SymbolKind

def all : List SymbolKind := [method, field, type, string, signature, member]

def name : SymbolKind → String
  | method => "Method"
  | field => "Field"
  | type => "Type"
  | string => "String"
  | signature => "Signature"
  | member => "Member"

def expectedFor? : OperandKind → Option SymbolKind
  | .inlineMethod => some method
  | .inlineField => some field
  | .inlineType => some type
  | .inlineString => some string
  | .inlineSig => some signature
  | .inlineTok => some member
  | _ => none

end SymbolKind

structure Symbol where
  token : Token
  kind : SymbolKind
  name : String
  deriving DecidableEq

/-- The symbol's name, quoted for a user string. -/
def Symbol.text (s : Symbol) : String :=
  if s.kind = .string then Quoted.quote s.name else s.name

end CilCodec
