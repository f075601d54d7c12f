import StackLowering.Type.Primitive
import StackLowering.Type.Modifiers

/-!
References to types.

* `Ty`: a built-in type, a named class or interface, or an array, each with its
  modifiers.  Equality takes the modifiers into account.
* `Ty.category`: the category of the values of a type, `none` for `void`.
* `Ty.display`, `Ty.simpleName`: the qualified and the short printed name.
-/

namespace StackLowering

/-- A reference to a type.  A named type carries the names of the types that
enclose it, outermost first, and then its own name. -/
inductive Ty where
  | primitive (kind : Primitive) (modifiers : Modifiers)
  | named (package : String) (enclosing : List String) (name : String)
      (modifiers : Modifiers)
  | array (component : Ty) (modifiers : Modifiers)
  deriving DecidableEq, Repr

namespace Ty

/-- The reference to a built-in type. -/
def ofPrimitive (kind : Primitive) : Ty :=
  primitive kind .publicFlag

/-- The type without values, returned by methods that return nothing. -/
def void : Ty :=
  ofPrimitive .void

/-- A public top-level class.  The empty package is the unnamed one. -/
def classOf (package name : String) : Ty :=
  named package [] name .publicFlag

/-- A public top-level interface. -/
def interfaceOf (package name : String) : Ty :=
  named package [] name (.publicFlag ||| .interfaceFlag ||| .abstractFlag)

/-- The array type with elements of type `component`. -/
def arrayOf (component : Ty) : Ty :=
  array component (.publicFlag ||| .finalFlag)

/-- The type called `inner` inside a named type, with the same modifiers.
Nothing is nested in built-in types and arrays, which stay as they are. -/
def nested (inner : String) : Ty → Ty
  | named package enclosing name m => named package (enclosing ++ [name]) inner m
  | t => t

/-- The same type with other modifiers. -/
def withModifiers (m : Modifiers) : Ty → Ty
  | primitive kind _ => primitive kind m
  | named package enclosing name _ => named package enclosing name m
  | array component _ => array component m

/-- The modifiers of a type. -/
def modifiers : Ty → Modifiers
  | primitive _ m | named _ _ _ m | array _ m => m

/-- The built-in type that is referred to, if it is one. -/
def primitive? : Ty → Option Primitive
  | primitive kind _ => some kind
  | _ => none

/-- The element type of an array type. -/
def component? : Ty → Option Ty
  | array component _ => some component
  | _ => none

/-- The package of a named type. -/
def package? : Ty → Option String
  | named package _ _ _ => some package
  | _ => none

/-- The names of the enclosing types of a named type, outermost first, and its
own name at the end. -/
def path? : Ty → Option (List String)
  | named _ enclosing name _ => some (enclosing ++ [name])
  | _ => none

/-- Whether the type is built in. -/
def isPrimitive : Ty → Bool
  | primitive .. => true
  | _ => false

/-- Whether the type is `void`. -/
def isVoid : Ty → Bool
  | primitive .void _ => true
  | _ => false

/-- Whether the type is an array type. -/
def isArray : Ty → Bool
  | array .. => true
  | _ => false

/-- Whether the type is marked as an interface. -/
def isInterface (t : Ty) : Bool :=
  t.modifiers.contains .interfaceFlag

/-- The category of the values of a type; `void` has none. -/
def category : Ty → Option Category
  | primitive kind _ => kind.category
  | named .. | array .. => some .reference

/-- The name of a type without its package and its enclosing types. -/
def simpleName : Ty → String
  | primitive kind _ => kind.name
  | named _ _ name _ => name
  | array component _ => component.simpleName ++ "[]"

/-- The printed name of a type: package, enclosing types and own name, with
dots between them. -/
def display : Ty → String
  | primitive kind _ => kind.name
  | named package enclosing name _ =>
      (if package.isEmpty then "" else package ++ ".")
        ++ ".".intercalate (enclosing ++ [name])
  | array component _ => component.display ++ "[]"

/-- The types without a category are the `void` ones. -/
theorem category_eq_none_iff {t : Ty} : t.category = none ↔ t.isVoid = true := by
  rcases t with ⟨kind, m⟩ | _ | _
  · cases kind <;> simp [category, isVoid, Primitive.category]
  · simp [category, isVoid]
  · simp [category, isVoid]

end Ty

end StackLowering
