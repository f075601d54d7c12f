import Mathlib.Tactic.Lemma
import StackLowering.Naming

/-!
What a reader of descriptors learns from them.

* `Descriptor.decodeType`, `Descriptor.decodeMethod`: the type at the head of a text, and the
  signature of a method.
* `Descriptor.field?`, `Descriptor.method?`: the categories in the descriptor of a field or a
  method.
* `Ty.PlainNames`: no name in a type holds a semicolon.
* `Descriptor.decodeType_descriptor`: a descriptor without such names is read to its end, whatever
  text follows.
* `Descriptor.field?_descriptor`, `Descriptor.method?_methodDescriptor`: the reader finds
  the categories of the types that a descriptor was made from.
-/

namespace StackLowering

/-! ### The decoder -/

/-- The built-in type that a letter stands for. -/
def Primitive.ofLetter? : Char → Option Primitive
  | 'Z' => some boolean
  | 'B' => some byte
  | 'S' => some short
  | 'C' => some char
  | 'I' => some int
  | 'J' => some long
  | 'F' => some float
  | 'D' => some double
  | 'V' => some void
  | _ => none

namespace Descriptor

/-- The text before the first semicolon, and the text after it. -/
def takeName : List Char → Option (List Char × List Char)
  | [] => none
  | c :: cs => if c = ';' then some ([], cs) else (takeName cs).map fun r => (c :: r.1, r.2)

/-- The text before the last slash, if there is one, and the text after it. -/
def cutPackage : List Char → Option (List Char) × List Char
  | [] => (none, [])
  | c :: cs =>
      match cutPackage cs with
      | (some package, rest) => (some (c :: package), rest)
      | (none, rest) => if c = '/' then (some [], rest) else (none, c :: rest)

/-- The class with a given path in the class file: slashes in the name of its package stand for
dots, and dollar signs separate the names of nested classes. -/
def classAt (path : List Char) : Ty :=
  let names := ((cutPackage path).2.splitOn '$').map String.ofList
  .named (String.ofList (((cutPackage path).1.getD []).map fun c => if c = '/' then '.' else c))
    names.dropLast (names.getLastD "") ⟨0⟩

/-- The type at the head of a text, and the text after it. -/
def decodeType : List Char → Option (Ty × List Char)
  | [] => none
  | 'L' :: cs => (takeName cs).map fun r => (classAt r.1, r.2)
  | '[' :: cs => (decodeType cs).map fun r => (.array r.1 ⟨0⟩, r.2)
  | c :: cs => (Primitive.ofLetter? c).map fun kind => (.primitive kind ⟨0⟩, cs)

lemma length_of_takeName {cs name rest : List Char} (h : takeName cs = some (name, rest)) :
    rest.length < cs.length := by
  induction cs generalizing name with
  | nil => cases h
  | cons c cs ih =>
      rw [takeName] at h
      split at h
      · cases h
        exact Nat.lt_succ_self _
      · obtain ⟨r, hr, heq⟩ := Option.map_eq_some_iff.mp h
        cases heq
        exact Nat.lt_succ_of_lt (ih hr)

lemma length_of_decodeType {cs rest : List Char} {type : Ty}
    (h : decodeType cs = some (type, rest)) : rest.length < cs.length := by
  fun_induction decodeType cs generalizing type rest with
  | case1 => cases h
  | case2 cs =>
      obtain ⟨r, hr, heq⟩ := Option.map_eq_some_iff.mp h
      cases heq
      exact Nat.lt_succ_of_lt (length_of_takeName hr)
  | case3 cs ih =>
      obtain ⟨r, hr, heq⟩ := Option.map_eq_some_iff.mp h
      cases heq
      exact Nat.lt_succ_of_lt (ih hr)
  | case4 c cs =>
      obtain ⟨kind, -, heq⟩ := Option.map_eq_some_iff.mp h
      cases heq
      exact Nat.lt_succ_self _

/-- The types up to a closing parenthesis, and the text after it. -/
def decodeTypes (cs : List Char) : Option (List Ty × List Char) :=
  match (decodeType cs).attach with
  | some ⟨(type, rest), _⟩ => (decodeTypes rest).map fun r => (type :: r.1, r.2)
  | none =>
      -- no type begins with a parenthesis
      match cs with
      | ')' :: rest => some ([], rest)
      | _ => none
termination_by cs.length
decreasing_by exact length_of_decodeType (by assumption)

/-- The types of the parameters of a method, and the type that it returns. -/
def decodeMethod (descriptor : String) : Option (List Ty × Ty) :=
  match descriptor.toList with
  | '(' :: cs =>
      match decodeTypes cs with
      | some (parameters, cs) =>
          match decodeType cs with
          | some (returns, []) => some (parameters, returns)
          | _ => none
      | none => none
  | _ => none

/-! ### Categories -/

/-- The category of the values of a field. -/
def field? (descriptor : String) : Option Category :=
  match decodeType descriptor.toList with
  | some (type, []) => type.category
  | _ => none

/-- The categories of the parameters of a method, all of which have values, and that of the
value it returns if it returns one. -/
def method? (descriptor : String) : Option (List Category × Option Category) :=
  (decodeMethod descriptor).bind fun signature =>
    (signature.1.mapM Ty.category).map fun parameters => (parameters, signature.2.category)

end Descriptor

/-! ### Names without semicolons -/

/-- No package and no class in a type has a name with a semicolon. -/
def Ty.PlainNames : Ty → Prop
  | primitive .. => True
  | named package enclosing name _ => ∀ n ∈ package :: (enclosing ++ [name]), ';' ∉ n.toList
  | array component _ => component.PlainNames

/-- A character that is in no name of a path, and does not separate them, is not in the path. -/
lemma Ty.not_mem_intercalate {c : Char} (hc : c ∉ ['$']) {path : List String}
    (h : ∀ n ∈ path, c ∉ n.toList) : c ∉ ("$".intercalate path).toList := by
  induction path with
  | nil => exact List.not_mem_nil
  | cons n ns ih =>
      obtain ⟨hn, hns⟩ := List.forall_mem_cons.mp h
      have htail := ih hns
      rw [String.toList_intercalate] at htail ⊢
      cases ns with
      | nil => simpa using hn
      | cons m ns =>
          rw [List.map_cons, List.map_cons, List.intercalate_cons_cons]
          simp only [List.mem_append, not_or]
          exact ⟨⟨hn, hc⟩, htail⟩

lemma Ty.semicolon_not_mem_binaryName {package : String} {path : List String}
    (h : ∀ n ∈ package :: path, ';' ∉ n.toList) : ';' ∉ (binaryName package path).toList := by
  obtain ⟨hpackage, hpath⟩ := List.forall_mem_cons.mp h
  have hdirectory : ';' ∉ (package.map fun c => if c = '.' then '/' else c).toList := by
    rw [String.toList_map]
    intro hmem
    obtain ⟨c, hc, heq⟩ := List.mem_map.mp hmem
    split at heq
    · cases heq
    · exact hpackage (heq ▸ hc)
  have hjoined : ';' ∉ ("$".intercalate path).toList := not_mem_intercalate (by decide) hpath
  rw [binaryName, String.toList_append, List.mem_append, not_or]
  refine ⟨?_, hjoined⟩
  split
  · exact List.not_mem_nil
  · rw [String.toList_append, List.mem_append, not_or]
    exact ⟨hdirectory, by decide⟩

/-! ### Descriptors are read to their end -/

/-- The type that is read from the descriptor of a type.  Modifiers are not in the text, and
the names of packages and classes are found where slashes and dollar signs put them. -/
def Ty.reread : Ty → Ty
  | primitive kind _ => primitive kind ⟨0⟩
  | named package enclosing name _ =>
      Descriptor.classAt (binaryName package (enclosing ++ [name])).toList
  | array component _ => array component.reread ⟨0⟩

/-- Whatever its names are read as, a class is a reference. -/
lemma Ty.category_reread (type : Ty) : type.reread.category = type.category := by
  cases type <;> rfl

namespace Descriptor

lemma takeName_append {cs : List Char} (h : ';' ∉ cs) (rest : List Char) :
    takeName (cs ++ ';' :: rest) = some (cs, rest) := by
  induction cs with
  | nil => rfl
  | cons c cs ih =>
      rw [List.mem_cons, not_or] at h
      rw [List.cons_append, takeName, if_neg (Ne.symm h.1), ih h.2, Option.map_some]

/-- **A descriptor is read to its end**, whatever text follows it. -/
lemma decodeType_descriptor {type : Ty} (h : type.PlainNames) (rest : List Char) :
    decodeType (type.descriptor.toList ++ rest) = some (type.reread, rest) := by
  induction type with
  | primitive kind m =>
      rw [Ty.descriptor, String.toList_singleton]
      cases kind <;> rfl
  | named package enclosing name m =>
      have hname := Ty.semicolon_not_mem_binaryName h
      rw [Ty.descriptor, String.toList_append, String.toList_append, List.append_assoc,
        List.append_assoc]
      -- the first semicolon is the one that ends the name
      show (takeName (_ ++ ';' :: rest)).map _ = _
      rw [takeName_append hname]
      rfl
  | array component m ih =>
      rw [Ty.descriptor, String.toList_append, List.append_assoc]
      show (decodeType (component.descriptor.toList ++ rest)).map _ = _
      rw [ih h]
      rfl

lemma decodeType_alone {type : Ty} (h : type.PlainNames) :
    decodeType type.descriptor.toList = some (type.reread, []) := by
  rw [← List.append_nil type.descriptor.toList, decodeType_descriptor h]

lemma decodeTypes_of_decodeType {cs rest : List Char} {type : Ty}
    (h : decodeType cs = some (type, rest)) :
    decodeTypes cs = (decodeTypes rest).map fun r => (type :: r.1, r.2) := by
  rw [decodeTypes.eq_def]
  split
  case h_1 type' rest' hdecode _ =>
    cases h.symm.trans hdecode
    rfl
  case h_2 hdecode => cases h.symm.trans (Option.attach_eq_none_iff.mp hdecode)

lemma decodeTypes_close (rest : List Char) : decodeTypes (')' :: rest) = some ([], rest) := by
  rw [decodeTypes]
  rfl

/-- Descriptors one after another are read up to the parenthesis. -/
lemma decodeTypes_flatMap {types : List Ty} (h : ∀ t ∈ types, t.PlainNames) (rest : List Char) :
    decodeTypes (types.flatMap (fun t => t.descriptor.toList) ++ ')' :: rest)
      = some (types.map Ty.reread, rest) := by
  induction types with
  | nil => rw [List.flatMap_nil, List.nil_append, decodeTypes_close, List.map_nil]
  | cons t types ih =>
      obtain ⟨ht, htypes⟩ := List.forall_mem_cons.mp h
      rw [List.flatMap_cons, List.append_assoc,
        decodeTypes_of_decodeType (decodeType_descriptor ht _), ih htypes]
      rfl

/-- The descriptor of a method is made of those of its parameters and of what it returns. -/
lemma toList_methodDescriptor (method : Method) :
    (Naming.jvm.methodDescriptor method).toList
      = '(' :: (method.parameters.flatMap (fun t => t.descriptor.toList)
        ++ ')' :: method.returns.descriptor.toList) := by
  simp [Naming.jvm, String.toList_join, List.flatMap_map]

lemma decodeMethod_methodDescriptor {method : Method} (hreturns : method.returns.PlainNames)
    (hplain : ∀ t ∈ method.parameters, t.PlainNames) :
    decodeMethod (Naming.jvm.methodDescriptor method)
      = some (method.parameters.map Ty.reread, method.returns.reread) := by
  simp only [decodeMethod, toList_methodDescriptor, decodeTypes_flatMap hplain,
    decodeType_alone hreturns]

/-- **The descriptor of a field** tells the category of its values. -/
theorem field?_descriptor {type : Ty} (h : type.PlainNames) :
    field? type.descriptor = type.category := by
  rw [field?, decodeType_alone h]
  exact type.category_reread

/-- The categories of the types that are read are those of the types. -/
lemma mapM_category_reread {types : List Ty} {categories : List Category}
    (h : types.map Ty.category = categories.map some) :
    (types.map Ty.reread).mapM Ty.category = some categories := by
  have hreread : Ty.category ∘ Ty.reread = Ty.category := funext Ty.category_reread
  calc (types.map Ty.reread).mapM Ty.category
      = types.mapM Ty.category := by rw [List.mapM_map, hreread]
    _ = (types.map Ty.category).mapM id := by rw [List.mapM_map, Function.id_comp]
    _ = (categories.map some).mapM id := by rw [h]
    _ = some categories := by rw [List.mapM_map]; exact List.mapM_pure.trans (by simp)

/-- **The descriptor of a method** tells the categories of its parameters and of what it
returns. -/
theorem method?_methodDescriptor {method : Method} {categories : List Category}
    (hreturns : method.returns.PlainNames) (hplain : ∀ t ∈ method.parameters, t.PlainNames)
    (h : method.parameters.map Ty.category = categories.map some) :
    method? (Naming.jvm.methodDescriptor method) = some (categories, method.returns.category) := by
  rw [method?, decodeMethod_methodDescriptor hreturns hplain, Option.bind_some,
    mapM_category_reread h, Option.map_some, Ty.category_reread]

end Descriptor

end StackLowering
