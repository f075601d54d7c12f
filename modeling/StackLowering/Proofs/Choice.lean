import Mathlib.Tactic.Lemma
import StackLowering.Selection

/-!
What the choices of instructions amount to.

Each choice of `Selection` is described by one equivalence: when it succeeds, and
with which instruction.  A choice that fails does so because of the tree it is
made for or of a limit of the format, and never because of labels or of the
depth of the stack (`Selection.Ordinary`).
-/

namespace StackLowering

/-- The faults that concern labels and the depth of the stack, and not the tree
or the limits of the format. -/
def Fault.isDefect : Fault → Bool
  | labelPlacedTwice _ | labelUnplaced _ | stackImbalance .. => true
  | _ => false

/-- The place of a numeric kind in the order of widening. -/
def Numeric.rank : Numeric → Nat
  | int => 0
  | long => 1
  | float => 2
  | double => 3

namespace Selection

lemma bind_eq_ok {α β : Type} {x : Except Fault α} {f : α → Except Fault β} {b : β} :
    (x >>= f) = .ok b ↔ ∃ a, x = .ok a ∧ f a = .ok b := by
  cases x <;> simp [bind, Except.bind]

lemma pure_eq_ok {α : Type} {a b : α} : (pure a : Except Fault α) = .ok b ↔ b = a := by
  simp [pure, Except.pure, eq_comm]

/-! ### Choices that succeed -/

lemma category_eq_ok {type : Ty} {c : Category} :
    category type = .ok c ↔ type.category = some c := by
  unfold category
  cases type.category <;> simp

/-- Operations on numbers are for the categories with a numeric kind. -/
lemma numeric_eq_ok {operation : Operation} {type : Ty} {n : Numeric} :
    numeric operation type = .ok n ↔ type.category = some n.category := by
  simp only [numeric, bind_eq_ok, category_eq_ok]
  constructor
  · rintro ⟨c, hc, hn⟩
    cases hk : c.numeric with
    | none => simp [hk] at hn
    | some k =>
        simp only [hk, Except.ok.injEq] at hn
        rw [hc, ← hn, Category.numeric_eq_some_iff.mp hk]
  · intro h
    refine ⟨n.category, h, ?_⟩
    rw [Category.numeric_eq_some_iff.mpr rfl]

lemma load_eq_ok {source : Local} {i : Instruction} :
    load source = .ok i ↔ ∃ c, source.type.category = some c ∧ i = .load c source.slot := by
  simp only [load, bind_eq_ok, category_eq_ok, pure_eq_ok]

lemma arithmetic_eq_ok {op : ArithmeticOp} {type : Ty} {i : Instruction} :
    arithmetic op type = .ok i ↔
      ∃ n : Numeric, type.category = some n.category ∧ i = .arithmetic op n := by
  simp only [arithmetic, bind_eq_ok, numeric_eq_ok, pure_eq_ok]

/-- Integers and references are compared by the branch itself, the wider numbers
by an instruction before it. -/
lemma equality_eq_ok {type : Ty} {comparison : Comparison} :
    equality type = .ok comparison ↔
      (type.category = some .int ∧ comparison = ⟨none, .ints .ne⟩) ∨
      (type.category = some .reference ∧ comparison = ⟨none, .distinct⟩) ∨
      (type.category = some .long ∧ comparison = ⟨some .long, .zero .ne⟩) ∨
      (type.category = some .float ∧ comparison = ⟨some .float, .zero .ne⟩) ∨
      (type.category = some .double ∧ comparison = ⟨some .double, .zero .ne⟩) := by
  simp only [equality, bind_eq_ok, category_eq_ok, pure_eq_ok]
  cases type.category with
  | none => simp
  | some c => cases c <;> simp

lemma ordering_eq_ok {type : Ty} {comparison : Comparison} :
    ordering type = .ok comparison ↔
      (type.category = some .int ∧ comparison = ⟨none, .ints .le⟩) ∨
      (type.category = some .long ∧ comparison = ⟨some .long, .zero .le⟩) ∨
      (type.category = some .float ∧ comparison = ⟨some .float, .zero .le⟩) ∨
      (type.category = some .double ∧ comparison = ⟨some .double, .zero .le⟩) := by
  simp only [ordering, bind_eq_ok, numeric_eq_ok, pure_eq_ok]
  constructor
  · rintro ⟨n, hn, rfl⟩
    cases n <;> simp_all [Numeric.category]
  · rintro (⟨h, rfl⟩ | ⟨h, rfl⟩ | ⟨h, rfl⟩ | ⟨h, rfl⟩)
    · exact ⟨.int, h, rfl⟩
    · exact ⟨.long, h, rfl⟩
    · exact ⟨.float, h, rfl⟩
    · exact ⟨.double, h, rfl⟩

lemma newArray_eq_ok {naming : Naming} {element : Ty} {i : Instruction} :
    newArray naming element = .ok i ↔ ∃ kind, arrayKind element = .ok kind ∧
      i = if kind = .reference then .newRefArray (naming.internalName element)
        else .newArray kind := by
  simp only [newArray, bind_eq_ok, pure_eq_ok]
  refine exists_congr fun kind => and_congr_right fun _ => ?_
  cases kind <;> simp

lemma arrayStore_eq_ok {element : Ty} {i : Instruction} :
    arrayStore element = .ok i ↔ ∃ kind, arrayKind element = .ok kind ∧ i = .arrayStore kind := by
  simp only [arrayStore, bind_eq_ok, pure_eq_ok]

/-- An array that can be allocated can be filled. -/
lemma exists_arrayStore {naming : Naming} {element : Ty} {i : Instruction}
    (h : newArray naming element = .ok i) : ∃ store, arrayStore element = .ok store := by
  obtain ⟨kind, hkind, -⟩ := newArray_eq_ok.mp h
  exact ⟨.arrayStore kind, arrayStore_eq_ok.mpr ⟨kind, hkind, rfl⟩⟩

/-- Numbers are widened along the order of numeric kinds, and never against it. -/
lemma converts_iff {s t : Numeric} : converts s t = true ↔ s.rank < t.rank := by
  cases s <;> cases t <;> decide

/-- A conversion goes from one numeric kind to a wider one, or it is none. -/
lemma widening_eq_ok {source target : Ty} {conversion : Option Instruction} :
    widening source target = .ok conversion ↔
      ∃ s t : Numeric, source.category = some s.category ∧ target.category = some t.category ∧
        ((s = t ∧ conversion = none) ∨ (s.rank < t.rank ∧ conversion = some (.convert s t))) := by
  simp only [widening, bind_eq_ok, category_eq_ok]
  constructor
  · rintro ⟨c, hc, h⟩
    cases hs : c.numeric with
    | none => simp [hs, throw, throwThe, MonadExceptOf.throw] at h
    | some s =>
        simp only [hs, bind_eq_ok, category_eq_ok] at h
        obtain ⟨d, hd, h⟩ := h
        cases ht : d.numeric with
        | none => simp [ht, throw, throwThe, MonadExceptOf.throw] at h
        | some t =>
            rw [← Category.numeric_eq_some_iff.mp hs] at hc
            rw [← Category.numeric_eq_some_iff.mp ht] at hd
            refine ⟨s, t, hc, hd, ?_⟩
            simp only [ht] at h
            split at h
            · exact .inl ⟨‹_›, pure_eq_ok.mp h⟩
            · split at h
              · exact .inr ⟨converts_iff.mp ‹_›, pure_eq_ok.mp h⟩
              · cases h
  · rintro ⟨s, t, hs, ht, h⟩
    have hs' : s.category.numeric = some s := Category.numeric_eq_some_iff.mpr rfl
    have ht' : t.category.numeric = some t := Category.numeric_eq_some_iff.mpr rfl
    refine ⟨s.category, hs, ?_⟩
    simp only [hs', bind_eq_ok, category_eq_ok]
    refine ⟨t.category, ht, ?_⟩
    rcases h with ⟨rfl, rfl⟩ | ⟨hlt, rfl⟩
    · simp [hs', pure, Except.pure]
    · have hne : s ≠ t := fun heq => by simp [heq] at hlt
      simp [ht', pure, Except.pure, hne, converts_iff.mpr hlt]

lemma cast_eq_ok {naming : Naming} {target : Ty} {i : Instruction} :
    cast naming target = .ok i ↔
      target.isPrimitive = false ∧ i = .checkCast (naming.internalName target) := by
  unfold cast
  split
  · simp_all
  · simp_all only [Bool.not_eq_true, true_and, Except.ok.injEq]
    exact eq_comm

lemma fieldAccess_eq_ok {naming : Naming} {field : Field} {onObject : Bool}
    {access : FieldAccess} :
    fieldAccess naming field onObject = .ok access ↔
      field.isStatic ≠ onObject ∧ (∃ c, field.type.category = some c) ∧
        access = ⟨naming.internalName field.owner, field.name, naming.fieldDescriptor field⟩ := by
  unfold fieldAccess
  split
  · simp_all [bind, Except.bind, throw, throwThe, MonadExceptOf.throw]
  · simp only [bind_eq_ok, category_eq_ok, pure_eq_ok]
    simp_all

lemma callWith_eq_ok {naming : Naming} {method : Method} {arguments : Nat} {call : Call} :
    callWith naming method arguments = .ok call ↔
      arguments = method.parameters.length ∧
        call = ⟨method.dispatch, naming.internalName method.owner, method.name,
          naming.methodDescriptor method, arguments, method.returnsValue⟩ := by
  rw [callWith, bind_eq_ok, checkArguments]
  by_cases hcount : arguments = method.parameters.length
  · simp [hcount, pure_eq_ok]
  · simp [hcount]

lemma call_eq_ok {naming : Naming} {method : Method} {onObject : Bool} {arguments : Nat}
    {call : Call} :
    Selection.call naming method onObject arguments = .ok call ↔
      method.dispatch.hasReceiver = onObject ∧ callWith naming method arguments = .ok call := by
  unfold Selection.call
  split <;> simp_all

lemma construction_eq_ok {naming : Naming} {method : Method} {arguments : Nat} {call : Call} :
    construction naming method arguments = .ok call ↔
      method.dispatch = .constructor ∧ callWith naming method arguments = .ok call := by
  unfold construction
  split <;> simp_all

lemma value_eq_ok {e : Expr} {u : Unit} : value e = .ok u ↔ e.hasValue = true := by
  unfold value
  split <;> simp_all

lemma arms_eq_ok {onTrue onFalse : Expr} {u : Unit} :
    arms onTrue onFalse = .ok u ↔ onTrue.hasValue = onFalse.hasValue := by
  unfold arms
  cases onTrue.hasValue <;> cases onFalse.hasValue <;> simp

lemma arrayLength_eq_ok {elements : List Expr} {n : Nat} :
    arrayLength elements = .ok n ↔ elements.length < lengthLimit ∧ n = elements.length := by
  unfold arrayLength
  split
  · simp_all only [true_and, Except.ok.injEq]
    exact eq_comm
  · simp only [reduceCtorEq, false_iff, not_and]
    intro hlt
    contradiction

/-! ### Choices that fail -/

/-- If the choice fails, then not because of labels or the depth of the
stack. -/
def Ordinary {α : Type} (choice : Except Fault α) : Prop :=
  ∀ fault, choice = .error fault → fault.isDefect = false

lemma Ordinary.ok {α : Type} (a : α) : Ordinary (.ok a) := by
  rintro _ ⟨⟩

lemma Ordinary.error {α : Type} {fault : Fault} (h : fault.isDefect = false) :
    Ordinary (.error fault : Except Fault α) := by
  rintro _ ⟨⟩
  exact h

lemma Ordinary.bind {α β : Type} {x : Except Fault α} {f : α → Except Fault β}
    (hx : Ordinary x) (hf : ∀ a, Ordinary (f a)) : Ordinary (x >>= f) := by
  cases x with
  | ok a => exact hf a
  | error fault => exact .error (hx fault rfl)

lemma ordinary_category (type : Ty) : Ordinary (category type) := by
  unfold category
  split
  · exact .ok _
  · exact .error rfl

lemma ordinary_numeric (operation : Operation) (type : Ty) :
    Ordinary (numeric operation type) := by
  refine (ordinary_category type).bind fun c => ?_
  split
  · exact .ok _
  · exact .error rfl

lemma ordinary_load (source : Local) : Ordinary (load source) :=
  (ordinary_category _).bind fun _ => .ok _

lemma ordinary_arithmetic (op : ArithmeticOp) (type : Ty) : Ordinary (arithmetic op type) :=
  (ordinary_numeric _ _).bind fun _ => .ok _

lemma ordinary_equality (type : Ty) : Ordinary (equality type) :=
  (ordinary_category _).bind fun _ => .ok _

lemma ordinary_ordering (type : Ty) : Ordinary (ordering type) :=
  (ordinary_numeric _ _).bind fun _ => .ok _

lemma ordinary_arrayKind (element : Ty) : Ordinary (arrayKind element) := by
  unfold arrayKind
  split
  · exact .ok _
  · split
    · exact .ok _
    · exact .error rfl

lemma ordinary_newArray (naming : Naming) (element : Ty) : Ordinary (newArray naming element) :=
  (ordinary_arrayKind _).bind fun _ => .ok _

lemma ordinary_arrayStore (element : Ty) : Ordinary (arrayStore element) :=
  (ordinary_arrayKind _).bind fun _ => .ok _

lemma ordinary_widening (source target : Ty) : Ordinary (widening source target) := by
  refine (ordinary_category _).bind fun c => ?_
  split
  · refine (ordinary_category _).bind fun d => ?_
    split
    · split
      · exact .ok _
      · split
        · exact .ok _
        · exact .error rfl
    · exact .error rfl
  · exact .error rfl

lemma ordinary_cast (naming : Naming) (target : Ty) : Ordinary (cast naming target) := by
  unfold cast
  split
  · exact .error rfl
  · exact .ok _

lemma ordinary_fieldAccess (naming : Naming) (field : Field) (onObject : Bool) :
    Ordinary (fieldAccess naming field onObject) := by
  unfold fieldAccess
  split
  · exact .error rfl
  · exact (ordinary_category _).bind fun _ => .ok _

lemma ordinary_callWith (naming : Naming) (method : Method) (arguments : Nat) :
    Ordinary (callWith naming method arguments) := by
  unfold callWith checkArguments
  split
  · exact .ok _
  · exact .error rfl

lemma ordinary_call (naming : Naming) (method : Method) (onObject : Bool) (arguments : Nat) :
    Ordinary (Selection.call naming method onObject arguments) := by
  unfold Selection.call
  split
  · exact ordinary_callWith naming method arguments
  · exact .error rfl

lemma ordinary_construction (naming : Naming) (method : Method) (arguments : Nat) :
    Ordinary (construction naming method arguments) := by
  unfold construction
  split
  · exact ordinary_callWith naming method arguments
  · exact .error rfl

lemma ordinary_value (e : Expr) : Ordinary (value e) := by
  unfold value
  split
  · exact .ok _
  · exact .error rfl

lemma ordinary_arms (onTrue onFalse : Expr) : Ordinary (arms onTrue onFalse) := by
  unfold arms
  split
  · exact .error rfl
  · exact .error rfl
  · exact .ok _

lemma ordinary_arrayLength (elements : List Expr) : Ordinary (arrayLength elements) := by
  unfold arrayLength
  split
  · exact .ok _
  · exact .error rfl

end Selection
end StackLowering
