import StackLowering.Type.Basic

/-!
References to the members of types and to local variables.

* `Method`: a method with its owner, signature and modifiers;
  `Method.dispatch` says how a call to it is made.
* `Field`: a field with its owner, type and modifiers.
* `Local`: a local variable with its slot.
-/

namespace StackLowering

/-- How a call finds the code to run. -/
inductive Dispatch where
  /-- Looked up in the receiver's class through an interface. -/
  | interface
  /-- The initializer of an object, called directly. -/
  | constructor
  /-- Called without a receiver. -/
  | static
  /-- Looked up in the receiver's class. -/
  | virtual
  deriving DecidableEq, Repr

namespace Dispatch

/-- Whether a call takes a receiver below its arguments. -/
def hasReceiver : Dispatch → Bool
  | static => false
  | interface | constructor | virtual => true

/-- The mnemonic of the call instruction. -/
def mnemonic : Dispatch → String
  | interface => "invokeinterface"
  | constructor => "invokespecial"
  | static => "invokestatic"
  | virtual => "invokevirtual"

/-- The printed name of a way to dispatch. -/
def name : Dispatch → String
  | interface => "interface"
  | constructor => "constructor"
  | static => "static"
  | virtual => "virtual"

end Dispatch

/-- A method of a type. -/
structure Method where
  owner : Ty
  name : String
  returns : Ty
  parameters : List Ty
  modifiers : Modifiers
  deriving DecidableEq, Repr

namespace Method

/-- The name under which the format knows constructors. -/
def constructorName : String := "<init>"

/-- A public instance method. -/
def ofInstance (owner returns : Ty) (name : String) (parameters : List Ty) : Method :=
  { owner, name, returns, parameters, modifiers := .publicFlag }

/-- A public static method. -/
def ofStatic (owner returns : Ty) (name : String) (parameters : List Ty) : Method :=
  { owner, name, returns, parameters, modifiers := .publicFlag ||| .staticFlag }

/-- A public constructor, which returns nothing. -/
def ofConstructor (owner : Ty) (parameters : List Ty) : Method :=
  { owner, name := constructorName, returns := .void, parameters,
    modifiers := .publicFlag }

/-- Whether the method has the name of a constructor. -/
def isConstructor (m : Method) : Bool :=
  m.name == constructorName

/-- How a call to the method is dispatched.  An interface as owner decides
first, then the name of a constructor, then the static flag. -/
def dispatch (m : Method) : Dispatch :=
  if m.owner.isInterface then .interface
  else if m.isConstructor then .constructor
  else if m.modifiers.contains .staticFlag then .static
  else .virtual

/-- Whether a call leaves a value on the stack. -/
def returnsValue (m : Method) : Bool :=
  !m.returns.isVoid

/-- The printed form of a method: owner, name and parameter types. -/
def display (m : Method) : String :=
  m.owner.display ++ "." ++ m.name ++ "("
    ++ ", ".intercalate (m.parameters.map Ty.display) ++ ")"

end Method

/-- A field of a type. -/
structure Field where
  owner : Ty
  name : String
  type : Ty
  modifiers : Modifiers
  deriving DecidableEq, Repr

namespace Field

/-- A public instance field. -/
def ofInstance (owner type : Ty) (name : String) : Field :=
  { owner, name, type, modifiers := .publicFlag }

/-- A public static field. -/
def ofStatic (owner type : Ty) (name : String) : Field :=
  { owner, name, type, modifiers := .publicFlag ||| .staticFlag }

/-- Whether the field belongs to the type and is read without an object. -/
def isStatic (f : Field) : Bool :=
  f.modifiers.contains .staticFlag

/-- The printed form of a field: owner and name. -/
def display (f : Field) : String :=
  f.owner.display ++ "." ++ f.name

end Field

/-- A local variable: the slot it occupies and the type it was declared with. -/
structure Local where
  slot : UInt16
  type : Ty
  deriving DecidableEq, Repr

end StackLowering
