import StackLowering.Member

/-!
Names of types and members in the class file.

* `Naming`: how types and members are named in instructions.  Only the two
  functions on types have to be given; signatures of methods and fields follow
  from them unless they are given too.
* `Naming.jvm`: internal names and descriptors of the class file format.
-/

namespace StackLowering

/-- The names that instructions use for types and members. -/
structure Naming where
  /-- The name of a type where an instruction names a class. -/
  internalName : Ty → String
  /-- The name of a type inside a signature. -/
  typeDescriptor : Ty → String
  /-- The signature of a method: its parameters in parentheses and the type it
  returns. -/
  methodDescriptor : Method → String := fun m =>
    "(" ++ String.join (m.parameters.map typeDescriptor) ++ ")"
      ++ typeDescriptor m.returns
  /-- The signature of a field. -/
  fieldDescriptor : Field → String := fun f => typeDescriptor f.type

namespace Ty

/-- The path of a named type in the class file: the package with slashes for
dots, and the names of the nested types joined by dollar signs. -/
def binaryName (package : String) (path : List String) : String :=
  (if package.isEmpty then ""
    else package.map (fun c => if c = '.' then '/' else c) ++ "/")
    ++ "$".intercalate path

/-- The descriptor of a type: a letter for a built-in type, an opening bracket
before the component of an array, the name between `L` and `;` otherwise. -/
def descriptor : Ty → String
  | primitive kind _ => String.singleton kind.letter
  | named package enclosing name _ => "L" ++ binaryName package (enclosing ++ [name]) ++ ";"
  | array component _ => "[" ++ component.descriptor

/-- The name of a type in an instruction: an array is named by its descriptor. -/
def internalName : Ty → String
  | primitive kind _ => kind.name
  | named package enclosing name _ => binaryName package (enclosing ++ [name])
  | t@(array ..) => t.descriptor

end Ty

namespace Naming

/-- The names of the class file format. -/
def jvm : Naming where
  internalName := Ty.internalName
  typeDescriptor := Ty.descriptor

end Naming

end StackLowering
