import CilCodec.Metadata.Token

/-!
# Method contexts

The method whose body is read, and the generic arguments that its tokens are resolved against. The
main statement says which contexts show the same generic arguments.
-/
namespace CilCodec

/-- The generic arguments visible to a method body; a constructor has none of its own. -/
structure GenericContext where
  typeArguments : List Token
  methodArguments : Option (List Token)
  deriving DecidableEq, Hashable

structure MethodContext where
  method : Token
  declaringType : Option Token
  isConstructor : Bool
  typeArguments : List Token
  methodArguments : List Token
  deriving DecidableEq

namespace MethodContext

/-- The context of a global method that is not generic and no constructor. -/
def ofMethod (method : Token) : MethodContext where
  method := method
  declaringType := none
  isConstructor := false
  typeArguments := []
  methodArguments := []

/-- The type arguments a body can see: those of the declaring type, if it has one. -/
def visibleTypeArguments (c : MethodContext) : List Token :=
  if c.declaringType.isSome then c.typeArguments else []

def genericContext (c : MethodContext) : GenericContext where
  typeArguments := c.visibleTypeArguments
  methodArguments := if c.isConstructor then none else some c.methodArguments

theorem genericContext_eq_iff (c d : MethodContext) :
    c.genericContext = d.genericContext ↔
      c.visibleTypeArguments = d.visibleTypeArguments ∧
        (c.isConstructor = true ∧ d.isConstructor = true ∨
          c.isConstructor = false ∧ d.isConstructor = false ∧
            c.methodArguments = d.methodArguments) := by
  cases hc : c.isConstructor <;> cases hd : d.isConstructor <;>
    simp [genericContext, GenericContext.mk.injEq, hc, hd]

end MethodContext
end CilCodec
