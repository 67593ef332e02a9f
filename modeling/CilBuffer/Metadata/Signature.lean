import CilBuffer.Metadata.Type

/-!
# Stand-alone signatures

The calling conventions of an indirect call are a set of bits, of which four have a name. All eight
are kept, the nameless ones too.
-/

namespace CilBuffer

structure Conventions where
  bits : UInt8
  deriving DecidableEq, Repr

namespace Conventions

/-- The convention with a fixed number of arguments. -/
def standard : Conventions := ⟨0x01⟩

/-- The convention with a variable number of arguments. -/
def varArgs : Conventions := ⟨0x02⟩

/-- Either of the standard and the variable-argument convention will do. -/
def any : Conventions := ⟨0x03⟩

/-- A receiver is passed along. -/
def hasThis : Conventions := ⟨0x20⟩

/-- The receiver is among the parameters. -/
def explicitThis : Conventions := ⟨0x40⟩

/-- The bits that have a name. -/
def known : Conventions := ⟨0x63⟩

/-- Every convention of the one set is in the other. -/
def includes (c part : Conventions) : Bool := c.bits &&& part.bits = part.bits

/-- The conventions that have a name. -/
def truncate (c : Conventions) : Conventions := ⟨c.bits &&& known.bits⟩

/-- The conventions of the one set that are not in the other. -/
def remove (c part : Conventions) : Conventions := ⟨c.bits &&& ~~~part.bits⟩

/-- The conventions with their names, in the order in which they are written. -/
def named : List (Conventions × String) :=
  [(standard, "Standard"), (varArgs, "VarArgs"), (hasThis, "HasThis"),
    (explicitThis, "ExplicitThis")]

/-- The names of the conventions in the set, where one name stands for the first two together. -/
def names (c : Conventions) : List String :=
  let rest := if c.includes any then c.remove any else c
  (if c.includes any then ["Any"] else []) ++
    (named.filter fun entry => rest.includes entry.1).map (·.2)

/-- The names between commas, or a zero if there is none. -/
def text (c : Conventions) : String :=
  if c.names = [] then "0" else ", ".intercalate c.names

end Conventions

structure CallSite where
  conventions : Conventions
  returnType : TypeRef
  parameters : List TypeRef
  deriving DecidableEq, Repr

/-- A space follows the return type even if no parameter does. -/
def CallSite.text (site : CallSite) : String :=
  site.conventions.text ++ " " ++ site.returnType.name ++ " " ++ TypeRef.names " " site.parameters

end CilBuffer
