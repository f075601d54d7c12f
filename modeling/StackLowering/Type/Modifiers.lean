/-!
Access and structural modifiers of types and members, as the flag bits of the
class file format.  Bits without a name here are kept as they are.
-/

namespace StackLowering

/-- A set of modifier flags, one bit each. -/
structure Modifiers where
  bits : UInt16
  deriving DecidableEq, Repr

namespace Modifiers

/-- Visible everywhere. -/
def publicFlag : Modifiers := ⟨0x0001⟩

/-- Visible inside the type alone. -/
def privateFlag : Modifiers := ⟨0x0002⟩

/-- Visible in the package and in subclasses. -/
def protectedFlag : Modifiers := ⟨0x0004⟩

/-- Belongs to the type and not to its instances. -/
def staticFlag : Modifiers := ⟨0x0008⟩

/-- Cannot be extended or assigned again. -/
def finalFlag : Modifiers := ⟨0x0010⟩

/-- Is an interface. -/
def interfaceFlag : Modifiers := ⟨0x0200⟩

/-- Has no complete implementation of its own. -/
def abstractFlag : Modifiers := ⟨0x0400⟩

instance : OrOp Modifiers where
  or a b := ⟨a.bits ||| b.bits⟩

/-- Whether all bits of `flags` are set. -/
def contains (m flags : Modifiers) : Bool :=
  m.bits &&& flags.bits == flags.bits

end Modifiers

end StackLowering
