import CilBuffer.Metadata.Type

/-!
# Members of types

Methods, constructors and fields, their text, and the parameters that a method takes from the
evaluation stack.
-/

namespace CilBuffer

structure MethodRef where
  declaringType : TypeRef
  name : String
  returnType : TypeRef
  parameters : List TypeRef
  isStatic : Bool
  deriving DecidableEq, Repr

structure ConstructorRef where
  declaringType : TypeRef
  parameters : List TypeRef
  deriving DecidableEq, Repr

structure FieldRef where
  declaringType : TypeRef
  name : String
  fieldType : TypeRef
  isStatic : Bool
  deriving DecidableEq, Repr

namespace MethodRef

/-- What the receiver of an instance method is on the stack: a value is passed by its address. -/
def receiver (method : MethodRef) : TypeRef :=
  if method.declaringType.isValueType then method.declaringType.pointerTo
  else method.declaringType

/-- The types taken from the stack: the receiver, unless the method is static, and the
parameters. -/
def stackParameters (method : MethodRef) : List TypeRef :=
  if method.isStatic then method.parameters else method.receiver :: method.parameters

/-- Return type and name, and the parameter types in brackets. -/
def text (method : MethodRef) : String :=
  method.returnType.name ++ " " ++ method.name ++ "(" ++ TypeRef.names ", " method.parameters ++ ")"

end MethodRef

/-- A constructor reads like a method of the name `.ctor` that returns nothing. -/
def ConstructorRef.text (constructor : ConstructorRef) : String :=
  TypeRef.void.name ++ " .ctor(" ++ TypeRef.names ", " constructor.parameters ++ ")"

def FieldRef.text (field : FieldRef) : String := field.fieldType.name ++ " " ++ field.name

end CilBuffer
