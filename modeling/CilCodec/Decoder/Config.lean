/-!
# Decoder configurations

Which optional work a decoder does on top of reading instructions. Reading itself depends on a
configuration only through the limit on jump tables.
-/
namespace CilCodec

structure Config where
  /-- Ask the resolver, if there is one, about token operands. -/
  resolvesTokens : Bool
  /-- Work out the absolute targets of branches. -/
  computesTargets : Bool
  /-- Refuse jump tables with more targets than this, whether or not the stream holds them. -/
  switchLimit : Option Nat
  deriving DecidableEq

namespace Config

def comprehensive : Config := ⟨true, true, none⟩

/-- What a decoder uses unless told otherwise. -/
def standard : Config := comprehensive

def minimal : Config := ⟨false, false, none⟩

/-- Everything on, with a limit on jump tables that no compiler comes near. -/
def strict : Config := ⟨true, true, some 0x10000⟩

def withSwitchLimit (c : Config) (limit : Nat) : Config := { c with switchLimit := some limit }

end Config
end CilCodec
