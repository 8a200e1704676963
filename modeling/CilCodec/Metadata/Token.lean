import CilCodec.Text.Numeral

/-!
# Metadata tokens

A token names a row of a metadata table, or a place in the heap of user strings: the high byte says
which table, the other three which row.
-/
namespace CilCodec

/-- The tables, and the heap of user strings, that an operand can refer to. -/
inductive TokenKind where
  | typeRef | typeDef | field | methodDef | memberRef | standAloneSig | typeSpec | methodSpec
  | userString
  deriving DecidableEq

namespace TokenKind

def all : List TokenKind :=
  [typeRef, typeDef, field, methodDef, memberRef, standAloneSig, typeSpec, methodSpec, userString]

def name : TokenKind → String
  | typeRef => "TypeRef"
  | typeDef => "TypeDef"
  | field => "Field"
  | methodDef => "MethodDef"
  | memberRef => "MemberRef"
  | standAloneSig => "StandAloneSig"
  | typeSpec => "TypeSpec"
  | methodSpec => "MethodSpec"
  | userString => "UserString"

/-- The high byte of the tokens of a kind. -/
def table : TokenKind → UInt8
  | typeRef => 0x01
  | typeDef => 0x02
  | field => 0x04
  | methodDef => 0x06
  | memberRef => 0x0A
  | standAloneSig => 0x11
  | typeSpec => 0x1B
  | methodSpec => 0x2B
  | userString => 0x70

def ofTable? (byte : UInt8) : Option TokenKind :=
  all.find? (·.table == byte)

end TokenKind

structure Token where
  value : UInt32
  deriving DecidableEq, Hashable

namespace Token

def table (t : Token) : UInt8 := (t.value >>> 24).toUInt8

def row (t : Token) : UInt32 := t.value &&& 0x00FFFFFF

def isNull (t : Token) : Bool := t.value == 0

def kind? (t : Token) : Option TokenKind := TokenKind.ofTable? t.table

/-- The token as eight hexadecimal digits. -/
def text (t : Token) : String := "0x" ++ Numeral.upperHex 8 t.value.toNat

def detail (t : Token) : String :=
  "Token(0x" ++ Numeral.hex 8 t.value.toNat ++ ", table: 0x" ++ Numeral.hex 2 t.table.toNat ++
    ", row: " ++ Numeral.decimal t.row.toNat ++ ")"

def sorted (tokens : List Token) : List Token :=
  tokens.mergeSort fun a b => decide (a.value ≤ b.value)

end Token
end CilCodec
