import CilCodec.Metadata.MethodContext
import CilCodec.Metadata.Symbol

/-!
# Queries and answers

What a resolver is asked about a token operand, and what it may answer. Failing to name a token is
an answer like any other.
-/
namespace CilCodec

inductive ResolveError where
  | notFound (token : Token)
  | failed (reason : String)
  deriving DecidableEq

def ResolveError.message : ResolveError → String
  | notFound token => "Token " ++ token.text ++ " not found"
  | failed reason => "Resolution failed - " ++ reason

structure Query where
  token : Token
  kind : OperandKind
  context : MethodContext
  deriving DecidableEq

abbrev Answer := Except ResolveError Symbol

end CilCodec
