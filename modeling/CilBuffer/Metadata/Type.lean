/-!
# Types

A type is known by its name and by whether its values are held directly or by reference.
-/

namespace CilBuffer

structure TypeRef where
  name : String
  isValueType : Bool
  deriving DecidableEq, Repr

namespace TypeRef

/-- A type held by reference. -/
def reference (name : String) : TypeRef := ⟨name, false⟩

/-- A type whose values are held directly. -/
def value (name : String) : TypeRef := ⟨name, true⟩

/-- What procedures and constructors return. -/
def void : TypeRef := value "System.Void"

/-- An unmanaged pointer, which is an address and no value type. -/
def pointerTo (type : TypeRef) : TypeRef := ⟨type.name ++ "*", false⟩

/-- The names, with the separator between each two. -/
def names (separator : String) (types : List TypeRef) : String :=
  separator.intercalate (types.map (·.name))

end TypeRef

end CilBuffer
