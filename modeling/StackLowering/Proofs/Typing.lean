import Mathlib.Data.List.Forall2
import StackLowering.Proofs.Descriptor
import StackLowering.Proofs.Labels
import StackLowering.Proofs.Literals

/-!
Categories of values, in trees and on the stack.

* `Expr.Typed`: the typing of trees by the categories of the types that their nodes
  declare.
* `Instruction.signature?`: the categories of the values that an instruction takes and
  gives, as far as its own text tells them.
* `Instruction.retype`: what an instruction does to the categories on the stack, if it
  accepts them.
* `Expr.PlainNames`: the types that descriptors are made from have no semicolons in
  their names.
-/

namespace StackLowering

open Move (Clean)

/-! ### Trees -/

/-- The category of a literal. -/
def Literal.category : Literal → Category
  | null | string _ | classOf _ => .reference
  | bool _ | byte _ | short _ | char _ | int _ => .int
  | long _ => .long
  | float _ => .float
  | double _ => .double

/-- The tree has a value of the category, or no value and no category, and its parts
have the categories that its nodes declare for them. -/
inductive Expr.Typed : Expr → Option Category → Prop
  | literal (value : Literal) : Typed (.literal value) (some value.category)
  | load (source : Local) : Typed (.load source) source.type.category
  | receiver : Typed .receiver (some .reference)
  | getField {target : Expr} (field : Field) (htarget : Typed target (some .reference)) :
      Typed (.getField target field) field.type.category
  | getStatic (field : Field) : Typed (.getStatic field) field.type.category
  | newInstance {constructor : Method} {arguments : List Expr}
      (harguments : List.Forall₂ Typed arguments (constructor.parameters.map Ty.category)) :
      Typed (.newInstance constructor arguments) (some .reference)
  | invoke {target : Expr} {method : Method} {arguments : List Expr}
      (htarget : Typed target (some .reference))
      (harguments : List.Forall₂ Typed arguments (method.parameters.map Ty.category)) :
      Typed (.invoke target method arguments) method.returns.category
  | invokeStatic {method : Method} {arguments : List Expr}
      (harguments : List.Forall₂ Typed arguments (method.parameters.map Ty.category)) :
      Typed (.invokeStatic method arguments) method.returns.category
  | not {operand : Expr} (h : Typed operand (some .int)) : Typed (.not operand) (some .int)
  | or {lhs rhs : Expr} (hlhs : Typed lhs (some .int)) (hrhs : Typed rhs (some .int)) :
      Typed (.or lhs rhs) (some .int)
  | conditional {test onTrue onFalse : Expr} {category : Option Category}
      (htest : Typed test (some .int)) (hleft : Typed onTrue category)
      (hright : Typed onFalse category) : Typed (.conditional test onTrue onFalse) category
  | eq {lhs rhs : Expr} {type : Ty} (hlhs : Typed lhs type.category)
      (hrhs : Typed rhs type.category) : Typed (.eq lhs rhs type) (some .int)
  | gt {lhs rhs : Expr} {type : Ty} (hlhs : Typed lhs type.category)
      (hrhs : Typed rhs type.category) : Typed (.gt lhs rhs type) (some .int)
  | arithmetic (op : ArithmeticOp) {lhs rhs : Expr} {type : Ty} (hlhs : Typed lhs type.category)
      (hrhs : Typed rhs type.category) : Typed (.arithmetic op lhs rhs type) type.category
  | widen {operand : Expr} {source : Ty} (target : Ty) (h : Typed operand source.category) :
      Typed (.widen operand source target) target.category
  | cast (target : Ty) {operand : Expr} (h : Typed operand (some .reference)) :
      Typed (.cast target operand) (some .reference)
  | newArray {element : Ty} {elements : List Expr}
      (helements : ∀ e ∈ elements, Typed e element.category) :
      Typed (.newArray element elements) (some .reference)
  | pop {operand : Expr} {category : Option Category} (h : Typed operand category) :
      Typed (.pop operand) none

/-! ### Instructions -/

def Constant.category : Constant → Category
  | int _ => .int
  | long _ => .long
  | float _ => .float
  | double _ => .double
  | string _ | classRef _ => .reference

def Comparator.category : Comparator → Category
  | long => .long
  | float => .float
  | double => .double

/-- The category of the elements of an array. -/
def ArrayKind.category : ArrayKind → Category
  | boolean | char | byte | short | int => .int
  | float => .float
  | double => .double
  | long => .long
  | reference => .reference

/-- The categories that a branch takes. -/
def Condition.categories : Condition → List Category
  | zero _ => [.int]
  | ints _ => [.int, .int]
  | same | distinct => [.reference, .reference]
  | null | nonNull => [.reference]

namespace Instruction

/-- The categories that an instruction takes from the stack and those it puts there, the
topmost first.  A call is read off its descriptor, which has to agree with the numbers
of values that the call is said to take and give.  The instructions that work on values
of any category have none. -/
def signature? : Instruction → Option (List Category × List Category)
  | pushNull | new _ => some ([], [.reference])
  | iconst _ | bipush _ | sipush _ => some ([], [.int])
  | ldc constant => some ([], [constant.category])
  | load category _ => some ([], [category])
  | getField access =>
      (Descriptor.field? access.descriptor).map fun category => ([.reference], [category])
  | getStatic access => (Descriptor.field? access.descriptor).map fun category => ([], [category])
  | checkCast _ => some ([.reference], [.reference])
  | invoke call =>
      match Descriptor.method? call.descriptor with
      | some (parameters, returns) =>
          if parameters.length = call.arguments ∧ returns.isSome = call.returnsValue then
            some (parameters.reverse ++ if call.dispatch.hasReceiver then [.reference] else [],
              returns.toList)
          else none
      | none => none
  | branch condition _ => some (condition.categories, [])
  | goto _ => some ([], [])
  | arithmetic _ kind => some ([kind.category, kind.category], [kind.category])
  | compare comparator => some ([comparator.category, comparator.category], [.int])
  | convert source target => some ([source.category], [target.category])
  | newArray _ | newRefArray _ => some ([.int], [.reference])
  | arrayStore kind => some ([kind.category, .int, .reference], [])
  | dup | pop => none

/-- The categories on the stack after an instruction, if it accepts those before it. -/
def retype : Instruction → List Category → Option (List Category)
  | dup, category :: stack => some (category :: category :: stack)
  | pop, _ :: stack => some stack
  | i, stack =>
      i.signature?.bind fun signature =>
        (stack.dropPrefix? signature.1).map fun rest => signature.2 ++ rest

lemma retype_of_signature? {i : Instruction} {takes gives : List Category}
    (h : i.signature? = some (takes, gives)) (stack : List Category) :
    i.retype (takes ++ stack) = some (gives ++ stack) := by
  have hdrop := List.dropPrefix?_append_of_beq stack (BEq.refl takes)
  unfold retype
  split
  · cases h
  · cases h
  · rw [h, Option.bind_some, hdrop]
    rfl

lemma retype_of_push {i : Instruction} {category : Category}
    (h : i.signature? = some ([], [category])) (stack : List Category) :
    i.retype stack = some (category :: stack) :=
  retype_of_signature? h stack

lemma retype_test (relation : Relation) (target : Label) (stack : List Category) :
    (branch (.zero relation) target).retype (.int :: stack) = some stack :=
  retype_of_signature? (i := branch (.zero relation) target) rfl stack

lemma retype_goto (target : Label) (stack : List Category) :
    (goto target).retype stack = some stack :=
  retype_of_signature? (i := goto target) rfl stack

lemma signature?_of_pushedInt? {i : Instruction} {n : Int32} (h : i.pushedInt? = some n) :
    i.signature? = some ([], [.int]) := by
  cases i with
  | ldc constant =>
      cases constant with
      | int value => rfl
      | _ => cases h
  | iconst value => rfl
  | bipush value => rfl
  | sipush value => rfl
  | _ => cases h

lemma signature?_pushInt (compact : Bool) (n : Int32) :
    (pushInt compact n).signature? = some ([], [.int]) :=
  signature?_of_pushedInt? (pushedInt?_pushInt compact n)

end Instruction

lemma Literal.signature?_push (config : Config) (value : Literal) :
    (value.push config).signature? = some ([], [value.category]) := by
  cases value with
  | byte n => exact Instruction.signature?_pushInt _ _
  | short n => exact Instruction.signature?_pushInt _ _
  | char n => exact Instruction.signature?_pushInt _ _
  | int n => exact Instruction.signature?_pushInt _ _
  | classOf type =>
      rw [push, pushClass]
      split
      · have hclass : Descriptor.field? "Ljava/lang/Class;" = some .reference := by decide
        rw [Instruction.signature?, hclass]
        rfl
      · rfl
  | _ => rfl

/-! ### Members and arrays -/

lemma Method.isSome_category_returns (method : Method) :
    method.returns.category.isSome = method.returnsValue := by
  rw [returnsValue]
  cases hvoid : method.returns.isVoid with
  | true =>
      rw [Ty.category_eq_none_iff.mpr hvoid]
      rfl
  | false =>
      rw [Bool.not_false, Option.isSome_iff_ne_none]
      exact fun hnone => Bool.false_ne_true (hvoid.symm.trans (Ty.category_eq_none_iff.mp hnone))

/-- The descriptor of a field tells the category of its values. -/
lemma Selection.field?_of_fieldAccess {field : Field} {onObject : Bool} {access : FieldAccess}
    (h : fieldAccess .jvm field onObject = .ok access) (hnames : field.type.PlainNames) :
    ∃ category, field.type.category = some category ∧
      Descriptor.field? access.descriptor = some category := by
  obtain ⟨-, ⟨category, hcategory⟩, rfl⟩ := fieldAccess_eq_ok.mp h
  exact ⟨category, hcategory, (Descriptor.field?_descriptor hnames).trans hcategory⟩

/-- The descriptor of a call tells what the call takes and gives. -/
lemma Instruction.signature?_invoke {method : Method} {count : Nat} {call : Call}
    {categories : List Category} (hcall : Selection.callWith .jvm method count = .ok call)
    (hnames : ∀ t ∈ method.returns :: method.parameters, t.PlainNames)
    (hparameters : method.parameters.map Ty.category = categories.map some) :
    (invoke call).signature? =
      some (categories.reverse ++ if method.dispatch.hasReceiver then [.reference] else [],
        method.returns.category.toList) := by
  obtain ⟨hcount, rfl⟩ := Selection.callWith_eq_ok.mp hcall
  obtain ⟨hreturns, hplain⟩ := List.forall_mem_cons.mp hnames
  -- the number of arguments is checked against the parameters, which the descriptor lists
  have hlength : categories.length = count := by
    have h := congrArg List.length hparameters
    rw [List.length_map, List.length_map] at h
    exact h.symm.trans hcount.symm
  rw [signature?, Descriptor.method?_methodDescriptor hreturns hplain hparameters]
  dsimp only
  rw [if_pos ⟨hlength, method.isSome_category_returns⟩]

lemma Selection.signature?_of_newArray {naming : Naming} {element : Ty} {i : Instruction}
    (h : newArray naming element = .ok i) : i.signature? = some ([.int], [.reference]) := by
  obtain ⟨kind, -, rfl⟩ := newArray_eq_ok.mp h
  split <;> rfl

lemma Selection.category_of_arrayKind {element : Ty} {kind : ArrayKind}
    (h : arrayKind element = .ok kind) : element.category = some kind.category := by
  cases element with
  | primitive primitive m => cases primitive <;> cases h <;> rfl
  | named package enclosing name m =>
      cases h
      rfl
  | array component m =>
      cases h
      rfl

/-! ### Names in descriptors -/

namespace Expr

/-- The types that the descriptors in the instructions of a node are made from. -/
def described : Expr → List Ty
  | getField _ field | getStatic field => [field.type]
  | newInstance method _ | invoke _ method _ | invokeStatic method _ =>
      method.returns :: method.parameters
  | _ => []

/-- The descriptors in the instructions of a tree are made from types whose names have
no semicolons. -/
def PlainNames (e : Expr) : Prop :=
  e.Everywhere fun e => ∀ t ∈ e.described, t.PlainNames

lemma PlainNames.here {e : Expr} (h : e.PlainNames) : ∀ t ∈ e.described, t.PlainNames :=
  (everywhere_iff.mp h).1

lemma plainNames_of_children {e : Expr} (here : ∀ t ∈ e.described, t.PlainNames)
    (below : ∀ c ∈ e.children, c.PlainNames) : e.PlainNames :=
  everywhere_iff.mpr ⟨here, below⟩

lemma PlainNames.child {e c : Expr} (h : e.PlainNames) (hc : c ∈ e.children) : c.PlainNames :=
  (everywhere_iff.mp h).2 c hc

/-! ### Trees that are accepted -/

/-- An accepted tree has a value exactly if it is typed with a category. -/
lemma Typed.isSome_eq_hasValue {config : Config} {e : Expr} {category : Option Category}
    {first : Nat} (htyped : e.Typed category) (hclean : Clean (e.moves config first)) :
    category.isSome = e.hasValue := by
  induction e using Expr.induct generalizing category first with
  | load source =>
      obtain ⟨i, hi, -⟩ := Move.clean_guarded.mp hclean
      obtain ⟨c, hc, -⟩ := Selection.load_eq_ok.mp hi
      cases htyped
      rw [hc]
      rfl
  | getField target field _ =>
      obtain ⟨access, haccess, -⟩ := Move.clean_guarded.mp hclean
      obtain ⟨-, ⟨c, hc⟩, -⟩ := Selection.fieldAccess_eq_ok.mp haccess
      cases htyped
      rw [hc]
      rfl
  | getStatic field =>
      obtain ⟨access, haccess, -⟩ := Move.clean_guarded.mp hclean
      obtain ⟨-, ⟨c, hc⟩, -⟩ := Selection.fieldAccess_eq_ok.mp haccess
      cases htyped
      rw [hc]
      rfl
  | invoke target method arguments _ _ =>
      cases htyped
      exact method.isSome_category_returns
  | invokeStatic method arguments _ =>
      cases htyped
      exact method.isSome_category_returns
  | conditional test onTrue onFalse _ ihl _ =>
      obtain ⟨_, _, h⟩ := Move.clean_guarded.mp hclean
      simp only [Move.clean_append, Move.clean_cons] at h
      cases htyped with
      | conditional _ hleft _ => exact ihl hleft h.2.2.2.1
  | arithmetic op lhs rhs type _ _ =>
      obtain ⟨i, hi, -⟩ := Move.clean_guarded.mp hclean
      obtain ⟨kind, hkind, -⟩ := Selection.arithmetic_eq_ok.mp hi
      cases htyped
      rw [hkind]
      rfl
  | widen operand source target _ =>
      obtain ⟨conversion, hconversion, -⟩ := Move.clean_guarded.mp hclean
      obtain ⟨-, m, -, hm, -⟩ := Selection.widening_eq_ok.mp hconversion
      cases htyped
      rw [hm]
      rfl
  | _ =>
      cases htyped
      rfl

end Expr

end StackLowering
