import StackLowering.Proofs.Evaluation
import StackLowering.Proofs.Reached

/-!
Which trees are accepted, and what the others are refused for.

* `Expr.checks`: the checks of a single node, in order, with the fault that each
  reports.
* `Expr.firstFault?`: the first fault of a tree, found without emitting anything: the
  checks of a node come before its children, and these from left to right.
* `Expr.refusal?_moves`: the first choice that fails among the moves of a tree has that
  fault.
* `Expr.step_fault_eq_firstFault?`: what a step reports is the first fault of its tree,
  whatever session it is made in.
-/

namespace StackLowering

/-! ### Checks -/

/-- A check: whether it fails, and the fault that it then reports. -/
structure Check where
  fails : Bool
  fault : Fault

namespace Check

/-- The fault of the first check that fails. -/
def first? (checks : List Check) : Option Fault :=
  (checks.find? fails).map fault

/-- A type has to have values. -/
def valued (type : Ty) : Check :=
  ⟨type.isVoid, .voidValue type⟩

/-- There have to be as many arguments as parameters. -/
def counted (method : Method) (arguments : List Expr) : Check :=
  ⟨arguments.length != method.parameters.length, .argumentCount method arguments.length⟩

end Check

/-- Whether the numbers of a type can be taken for numbers of another one: the kind of
the other is the same or comes later in the order of widening. -/
def Ty.widensTo (source target : Ty) : Bool :=
  match source.numeric?, target.numeric? with
  | some s, some t => s.rank ≤ t.rank
  | _, _ => false

namespace Expr

/-- The checks of a node, which do not look below its children, in the order in which
they are made. -/
def checks : Expr → List Check
  | literal _ | receiver | not _ | or _ _ | pop _ => []
  | load source => [.valued source.type]
  | getField _ field => [⟨field.isStatic, .fieldAccess field⟩, .valued field.type]
  | getStatic field => [⟨!field.isStatic, .fieldAccess field⟩, .valued field.type]
  | newInstance constructor arguments =>
      [⟨constructor.dispatch != .constructor, .receiverMismatch constructor⟩,
        .counted constructor arguments]
  | invoke _ method arguments =>
      [⟨!method.dispatch.hasReceiver, .receiverMismatch method⟩, .counted method arguments]
  | invokeStatic method arguments =>
      [⟨method.dispatch.hasReceiver, .receiverMismatch method⟩, .counted method arguments]
  | conditional _ onTrue onFalse =>
      [⟨onTrue.hasValue && !onFalse.hasValue, .voidValue onFalse.voidType⟩,
        ⟨!onTrue.hasValue && onFalse.hasValue, .voidValue onTrue.voidType⟩]
  | eq _ _ type => [.valued type]
  | gt _ _ type => [.valued type, ⟨type.numeric?.isNone, .unsupportedOperation .ordering type⟩]
  | arithmetic op _ _ type =>
      [.valued type, ⟨type.numeric?.isNone, .unsupportedOperation (.arithmetic op) type⟩]
  | widen _ source target =>
      [.valued source, ⟨source.numeric?.isNone, .unsupportedConversion source target⟩,
        .valued target, ⟨!source.widensTo target, .unsupportedConversion source target⟩]
  | cast target _ => [⟨target.isPrimitive, .castToPrimitive target⟩]
  | newArray element _ => [.valued element]

/-- The checks of a node in its place: where its value is wanted, it first has to have
one. -/
def checksAt (wanted : Bool) (e : Expr) : List Check :=
  ⟨wanted && !e.hasValue, .voidValue e.voidType⟩ :: e.checks

mutual

/-- The first fault of a tree whose value is wanted or not: of the node, or else of its
children from left to right.  The values of all children are wanted but those of the
arms of a conditional. -/
def fault? (wanted : Bool) : Expr → Option Fault
  | e@(literal _) | e@(load _) | e@receiver | e@(getStatic _) => Check.first? (e.checksAt wanted)
  | e@(getField operand _) | e@(not operand) | e@(widen operand _ _) | e@(cast _ operand)
  | e@(pop operand) => (Check.first? (e.checksAt wanted)).or (operand.fault? true)
  | e@(or lhs rhs) | e@(eq lhs rhs _) | e@(gt lhs rhs _) | e@(arithmetic _ lhs rhs _) =>
      (Check.first? (e.checksAt wanted)).or ((lhs.fault? true).or (rhs.fault? true))
  | e@(conditional test onTrue onFalse) =>
      (Check.first? (e.checksAt wanted)).or
        ((test.fault? true).or ((onTrue.fault? false).or (onFalse.fault? false)))
  | e@(newInstance _ operands) | e@(invokeStatic _ operands) | e@(newArray _ operands) =>
      (Check.first? (e.checksAt wanted)).or (faults? operands)
  | e@(invoke target _ arguments) =>
      (Check.first? (e.checksAt wanted)).or ((target.fault? true).or (faults? arguments))

/-- The first fault of a list of trees whose values are wanted. -/
def faults? : List Expr → Option Fault
  | [] => none
  | e :: es => (e.fault? true).or (faults? es)

end

/-- The first fault of a tree. -/
def firstFault? (e : Expr) : Option Fault :=
  e.fault? false

/-- If a node is an array, then its length fits the format. -/
def ShortArray : Expr → Prop
  | newArray _ elements => elements.length < Selection.lengthLimit
  | _ => True

/-- Every array of a tree has a length that fits the format. -/
def ShortArrays (e : Expr) : Prop :=
  e.Everywhere ShortArray

end Expr

/-! ### Choices and checks -/

namespace Check

@[simp] lemma first?_nil : first? [] = none := rfl

lemma first?_cons (c : Check) (cs : List Check) :
    first? (c :: cs) = if c.fails then some c.fault else first? cs := by
  rw [first?, List.find?_cons]
  cases c.fails <;> rfl

end Check

namespace Selection

/-- The fault of a choice that fails. -/
def fault? {α : Type} : Except Fault α → Option Fault
  | .ok _ => none
  | .error fault => some fault

lemma fault?_bind_pure {α β : Type} (x : Except Fault α) (f : α → β) :
    fault? (x >>= fun a => pure (f a)) = fault? x := by
  cases x <;> rfl

lemma isVoid_of_category {type : Ty} {c : Category} (h : type.category = some c) :
    type.isVoid = false := by
  cases hvoid : type.isVoid with
  | false => rfl
  | true =>
      rw [Ty.category_eq_none_iff.mpr hvoid] at h
      cases h

lemma fault?_category (type : Ty) : fault? (category type) = Check.first? [.valued type] := by
  rw [category, Check.first?_cons, Check.valued]
  cases h : type.category with
  | none => simp [fault?, Ty.category_eq_none_iff.mp h]
  | some c => simp [fault?, isVoid_of_category h]

lemma fault?_numeric (operation : Operation) (type : Ty) :
    fault? (numeric operation type) = Check.first?
      [.valued type, ⟨type.numeric?.isNone, .unsupportedOperation operation type⟩] := by
  rw [numeric, category, Check.first?_cons, Check.first?_cons, Check.valued, Ty.numeric?]
  cases h : type.category with
  | none => simp [fault?, bind, Except.bind, Ty.category_eq_none_iff.mp h]
  | some c =>
      cases hn : c.numeric <;>
        simp [fault?, bind, Except.bind, hn, isVoid_of_category h]

lemma fault?_load (source : Local) :
    fault? (load source) = Check.first? (Expr.load source).checks :=
  (fault?_bind_pure _ _).trans (fault?_category _)

lemma fault?_fieldAccess (naming : Naming) (field : Field) (onObject : Bool) :
    fault? (fieldAccess naming field onObject) = Check.first?
      [⟨field.isStatic == onObject, .fieldAccess field⟩, .valued field.type] := by
  rw [fieldAccess, Check.first?_cons]
  by_cases h : field.isStatic = onObject
  · simp [h, fault?, bind, Except.bind, throw, throwThe, MonadExceptOf.throw]
  · rw [if_neg h, if_neg (by simpa using h)]
    exact (fault?_bind_pure _ _).trans (fault?_category _)

lemma fault?_getField (naming : Naming) (target : Expr) (field : Field) :
    fault? (fieldAccess naming field true) = Check.first? (Expr.getField target field).checks := by
  rw [fault?_fieldAccess, beq_true, Expr.checks]

lemma fault?_getStatic (naming : Naming) (field : Field) :
    fault? (fieldAccess naming field false) = Check.first? (Expr.getStatic field).checks := by
  rw [fault?_fieldAccess, beq_false, Expr.checks]

lemma fault?_callWith (naming : Naming) (method : Method) (arguments : List Expr) :
    fault? (callWith naming method arguments.length)
      = Check.first? [.counted method arguments] := by
  refine (fault?_bind_pure _ _).trans ?_
  rw [checkArguments, Check.first?_cons, Check.counted]
  by_cases h : arguments.length = method.parameters.length
  · simp [h, fault?]
  · simp [h, fault?]

lemma fault?_call (naming : Naming) (method : Method) (onObject : Bool) (arguments : List Expr) :
    fault? (Selection.call naming method onObject arguments.length) = Check.first?
      [⟨method.dispatch.hasReceiver != onObject, .receiverMismatch method⟩,
        .counted method arguments] := by
  rw [Selection.call, Check.first?_cons]
  by_cases h : method.dispatch.hasReceiver = onObject
  · rw [if_pos h, if_neg (by simp [h])]
    exact fault?_callWith naming method arguments
  · rw [if_neg h, if_pos (by simpa using h)]
    rfl

lemma fault?_invoke (naming : Naming) (target : Expr) (method : Method) (arguments : List Expr) :
    fault? (Selection.call naming method true arguments.length)
      = Check.first? (Expr.invoke target method arguments).checks := by
  rw [fault?_call, Bool.bne_true, Expr.checks]

lemma fault?_invokeStatic (naming : Naming) (method : Method) (arguments : List Expr) :
    fault? (Selection.call naming method false arguments.length)
      = Check.first? (Expr.invokeStatic method arguments).checks := by
  rw [fault?_call, Bool.bne_false, Expr.checks]

lemma fault?_construction (naming : Naming) (method : Method) (arguments : List Expr) :
    fault? (construction naming method arguments.length)
      = Check.first? (Expr.newInstance method arguments).checks := by
  rw [construction, Expr.checks, Check.first?_cons]
  by_cases h : method.dispatch = .constructor
  · rw [if_pos h, if_neg (by simp [h])]
    exact fault?_callWith naming method arguments
  · rw [if_neg h, if_pos (by simpa using h)]
    rfl

lemma fault?_equality (lhs rhs : Expr) (type : Ty) :
    fault? (equality type) = Check.first? (Expr.eq lhs rhs type).checks :=
  (fault?_bind_pure _ _).trans (fault?_category _)

lemma fault?_ordering (lhs rhs : Expr) (type : Ty) :
    fault? (ordering type) = Check.first? (Expr.gt lhs rhs type).checks :=
  (fault?_bind_pure _ _).trans (fault?_numeric _ _)

lemma fault?_arithmetic (op : ArithmeticOp) (lhs rhs : Expr) (type : Ty) :
    fault? (arithmetic op type) = Check.first? (Expr.arithmetic op lhs rhs type).checks :=
  (fault?_bind_pure _ _).trans (fault?_numeric _ _)

/-- A conversion fails at the first of the two types that has no values or no numbers, or
because it would narrow. -/
lemma fault?_widening (operand : Expr) (source target : Ty) :
    fault? (widening source target) = Check.first? (Expr.widen operand source target).checks := by
  simp only [widening, category, Expr.checks, Check.first?_cons, Check.valued, Ty.widensTo,
    Ty.numeric?]
  cases hs : source.category with
  | none => simp [fault?, bind, Except.bind, Ty.category_eq_none_iff.mp hs]
  | some c =>
      have hvoid := isVoid_of_category hs
      cases hn : c.numeric with
      | none =>
          simp [fault?, bind, Except.bind, hvoid, hn, throw, throwThe, MonadExceptOf.throw]
      | some n =>
          cases ht : target.category with
          | none => simp [fault?, bind, Except.bind, hvoid, hn, Ty.category_eq_none_iff.mp ht]
          | some d =>
              have hvoid' := isVoid_of_category ht
              cases hm : d.numeric with
              | none =>
                  simp [fault?, bind, Except.bind, hvoid, hvoid', hn, hm, throw, throwThe,
                    MonadExceptOf.throw]
              | some m =>
                  cases n <;> cases m <;>
                    simp [fault?, bind, Except.bind, hvoid, hvoid', hn, hm, throw, throwThe,
                      MonadExceptOf.throw, pure, Except.pure, converts, Numeric.rank]

lemma fault?_cast (naming : Naming) (target : Ty) (operand : Expr) :
    fault? (cast naming target) = Check.first? (Expr.cast target operand).checks := by
  rw [cast, Expr.checks, Check.first?_cons]
  cases target.isPrimitive <;> rfl

lemma fault?_arrayKind (element : Ty) :
    fault? (arrayKind element) = Check.first? [.valued element] := by
  rw [Check.first?_cons, Check.valued]
  rcases element with ⟨kind, m⟩ | _ | _
  · cases kind <;> rfl
  · rfl
  · rfl

lemma fault?_newArray (naming : Naming) (element : Ty) (elements : List Expr) :
    fault? (newArray naming element) = Check.first? (Expr.newArray element elements).checks :=
  (fault?_bind_pure _ _).trans (fault?_arrayKind element)

lemma fault?_value (e : Expr) :
    fault? (value e) = if e.hasValue then none else some (.voidValue e.voidType) := by
  rw [value]
  cases e.hasValue <;> rfl

lemma fault?_arms (test onTrue onFalse : Expr) :
    fault? (arms onTrue onFalse)
      = Check.first? (Expr.conditional test onTrue onFalse).checks := by
  rw [arms, Expr.checks, Check.first?_cons, Check.first?_cons]
  cases onTrue.hasValue <;> cases onFalse.hasValue <;> rfl

end Selection

/-! ### The first refusal among moves -/

namespace Move

/-- The fault that a move stops with. -/
def refused? : Move → Option Fault
  | refuse fault => some fault
  | _ => none

/-- The fault of the first move that stops a run. -/
def refusal? (ms : List Move) : Option Fault :=
  ms.findSome? refused?

lemma refusal?_nil : refusal? [] = none := rfl

lemma refusal?_append (ms ns : List Move) :
    refusal? (ms ++ ns) = (refusal? ms).or (refusal? ns) :=
  List.findSome?_append

lemma refusal?_cons (m : Move) (ms : List Move) :
    refusal? (m :: ms) = m.refused?.or (refusal? ms) := by
  rw [refusal?, List.findSome?_cons]
  cases m.refused? <;> rfl

lemma refusal?_guarded {α : Type} {choice : Except Fault α} {next : α → List Move}
    {rest : Option Fault} (h : ∀ a, choice = .ok a → refusal? (next a) = rest) :
    refusal? (guarded choice next) = (Selection.fault? choice).or rest := by
  cases choice with
  | ok a => exact h a rfl
  | error fault => rfl

/-- Constructs that turn a branch into a value make no choices. -/
lemma refusal?_decideBy (first : Nat) (comparison : Selection.Comparison) :
    refusal? (decideBy first comparison) = none := by
  rw [decideBy]
  cases comparison.reduce <;> rfl

end Move

open Move (refusal? refusal?_nil refusal?_append refusal?_cons refusal?_guarded)

namespace Expr

/-- Where the value of a tree is wanted, the check for it comes before all others. -/
lemma fault?_true (e : Expr) :
    e.fault? true = (Selection.fault? (Selection.value e)).or (e.fault? false) := by
  rw [Selection.fault?_value]
  -- only the first check depends on whether the value is wanted
  cases e <;> simp only [fault?, checksAt, Check.first?_cons, Bool.true_and, Bool.false_and] <;>
    cases (hasValue _) <;> simp

variable {config : Config}

lemma refusal?_consumed {e : Expr} {first : Nat}
    (h : refusal? (e.moves config first) = e.fault? false) :
    refusal? (Move.consumed e (e.moves config first)) = e.fault? true := by
  rw [fault?_true]
  exact refusal?_guarded fun _ _ => h

lemma first?_checksAt_false (e : Expr) :
    Check.first? (e.checksAt false) = Check.first? e.checks := by
  rw [checksAt, Check.first?_cons, Bool.false_and, if_neg Bool.false_ne_true]

lemma refusal?_argumentMoves {arguments : List Expr}
    (ih : ∀ e ∈ arguments, ∀ first, refusal? (e.moves config first) = e.fault? false)
    (first : Nat) : refusal? (argumentMoves config first arguments) = faults? arguments := by
  induction arguments generalizing first with
  | nil => rfl
  | cons e es ihes =>
      have hhead := refusal?_consumed (ih e List.mem_cons_self first)
      have htail := ihes (fun e' he' => ih e' (List.mem_cons_of_mem _ he')) (first + e.labelCount)
      rw [argumentMoves, faults?, refusal?_append, hhead, htail]

lemma refusal?_elementMoves {store : Instruction} {elements : List Expr}
    (ih : ∀ e ∈ elements, ∀ first, refusal? (e.moves config first) = e.fault? false)
    (first index : Nat) :
    refusal? (elementMoves config store first index elements) = faults? elements := by
  induction elements generalizing first index with
  | nil => rfl
  | cons e es ihes =>
      have hhead := refusal?_consumed (ih e List.mem_cons_self first)
      have htail := ihes (fun e' he' => ih e' (List.mem_cons_of_mem _ he')) (first + e.labelCount)
        (index + 1)
      rw [elementMoves, faults?, refusal?_cons, refusal?_cons, refusal?_append, refusal?_cons,
        hhead, htail]
      rfl

/-- Two operands, and moves after them that make no choice. -/
lemma refusal?_operands {lhs rhs : Expr} {first : Nat} {ns : List Move}
    (ihl : ∀ first, refusal? (lhs.moves config first) = lhs.fault? false)
    (ihr : ∀ first, refusal? (rhs.moves config first) = rhs.fault? false)
    (hns : refusal? ns = none) :
    refusal? (Move.consumed lhs (lhs.moves config first) ++
      (Move.consumed rhs (rhs.moves config (first + lhs.labelCount)) ++ ns))
      = (lhs.fault? true).or (rhs.fault? true) := by
  rw [refusal?_append, refusal?_append, refusal?_consumed (ihl _), refusal?_consumed (ihr _), hns,
    Option.or_none]

/-- A node whose choice makes the checks of the node. -/
lemma refusal?_node {e : Expr} {α : Type} {choice : Except Fault α} {next : α → List Move}
    {below : Option Fault} (hchoice : Selection.fault? choice = Check.first? e.checks)
    (hnext : ∀ a, choice = .ok a → refusal? (next a) = below) :
    refusal? (Move.guarded choice next) = (Check.first? (e.checksAt false)).or below := by
  rw [first?_checksAt_false, ← hchoice]
  exact refusal?_guarded hnext

lemma refusal?_leaf {e : Expr} {α : Type} {choice : Except Fault α} {next : α → List Move}
    (hchoice : Selection.fault? choice = Check.first? e.checks)
    (hnext : ∀ a, refusal? (next a) = none) :
    refusal? (Move.guarded choice next) = Check.first? (e.checksAt false) :=
  (refusal?_node hchoice fun a _ => hnext a).trans Option.or_none

/-- **The first refusal of a tree** is its first fault. -/
theorem refusal?_moves (e : Expr) : e.ShortArrays → ∀ first,
    refusal? (e.moves config first) = e.firstFault? := by
  -- every node makes its choice before the moves of its children, as `fault?` does
  rw [firstFault?]
  induction e using Expr.induct with
  | literal value => exact fun _ _ => rfl
  | load source =>
      intro _ first
      rw [moves, fault?]
      exact refusal?_leaf (Selection.fault?_load source) fun _ => rfl
  | receiver => exact fun _ _ => rfl
  | getField target field ih =>
      intro h first
      have htarget := refusal?_consumed (ih (h.child (by simp [children])) first)
      rw [moves, fault?]
      refine refusal?_node (Selection.fault?_getField _ _ _) fun access _ => ?_
      rw [refusal?_append, htarget]
      exact Option.or_none
  | getStatic field =>
      intro _ first
      rw [moves, fault?]
      exact refusal?_leaf (Selection.fault?_getStatic _ _) fun _ => rfl
  | newInstance constructor arguments ih =>
      intro h first
      have hargs := refusal?_argumentMoves (fun e he => ih e he (h.child he)) first
      rw [moves, fault?]
      refine refusal?_node (Selection.fault?_construction _ _ _) fun call _ => ?_
      rw [refusal?_cons, refusal?_cons, refusal?_append, hargs]
      exact Option.or_none
  | invoke target method arguments ih ihs =>
      intro h first
      have htarget := refusal?_consumed (ih (h.child (by simp [children])) first)
      have hargs := refusal?_argumentMoves
        (fun e he => ihs e he (h.child (List.mem_cons_of_mem _ he))) (first + target.labelCount)
      rw [moves, fault?]
      refine refusal?_node (Selection.fault?_invoke _ _ _ _) fun call _ => ?_
      rw [refusal?_append, refusal?_append, htarget, hargs]
      exact congrArg _ Option.or_none
  | invokeStatic method arguments ih =>
      intro h first
      have hargs := refusal?_argumentMoves (fun e he => ih e he (h.child he)) first
      rw [moves, fault?]
      refine refusal?_node (Selection.fault?_invokeStatic _ _ _) fun call _ => ?_
      rw [refusal?_append, hargs]
      exact Option.or_none
  | not operand ih =>
      intro h first
      have hoperand := refusal?_consumed (ih (h.child (by simp [children])) first)
      rw [moves, fault?, first?_checksAt_false, refusal?_append, hoperand]
      exact Option.or_none
  | or lhs rhs ihl ihr =>
      intro h first
      have hlhs := refusal?_consumed (ihl (h.child (by simp [children])) first)
      have hrhs := refusal?_consumed
        (ihr (h.child (by simp [children])) (first + lhs.labelCount + 1))
      simp only [moves, fault?, first?_checksAt_false, refusal?_append, refusal?_cons, hlhs, hrhs]
      exact congrArg _ Option.or_none
  | conditional test onTrue onFalse iht ihl ihr =>
      intro h first
      have htest := refusal?_consumed (iht (h.child (by simp [children])) first)
      have hl := ihl (h.child (by simp [children]))
      have hr := ihr (h.child (by simp [children]))
      rw [moves, fault?]
      refine refusal?_node (Selection.fault?_arms _ _ _) fun _ _ => ?_
      -- the values of the arms are not wanted, so that the arms are not consumed
      simp only [refusal?_append, refusal?_cons, refusal?_nil, Move.refused?, htest, hl, hr,
        Option.none_or, Option.or_none]
  | eq lhs rhs type ihl ihr =>
      intro h first
      rw [moves, fault?]
      refine refusal?_node (Selection.fault?_equality _ _ _) fun comparison _ => ?_
      exact refusal?_operands (ihl (h.child (by simp [children])))
        (ihr (h.child (by simp [children]))) (Move.refusal?_decideBy _ _)
  | gt lhs rhs type ihl ihr =>
      intro h first
      rw [moves, fault?]
      refine refusal?_node (Selection.fault?_ordering _ _ _) fun comparison _ => ?_
      exact refusal?_operands (ihl (h.child (by simp [children])))
        (ihr (h.child (by simp [children]))) (Move.refusal?_decideBy _ _)
  | arithmetic op lhs rhs type ihl ihr =>
      intro h first
      rw [moves, fault?]
      refine refusal?_node (Selection.fault?_arithmetic _ _ _ _) fun i _ => ?_
      exact refusal?_operands (ihl (h.child (by simp [children])))
        (ihr (h.child (by simp [children]))) rfl
  | widen operand source target ih =>
      intro h first
      have hoperand := refusal?_consumed (ih (h.child (by simp [children])) first)
      rw [moves, fault?]
      refine refusal?_node (Selection.fault?_widening _ _ _) fun conversion _ => ?_
      rw [refusal?_append, hoperand]
      cases conversion <;> exact Option.or_none
  | cast target operand ih =>
      intro h first
      have hoperand := refusal?_consumed (ih (h.child (by simp [children])) first)
      rw [moves, fault?]
      refine refusal?_node (Selection.fault?_cast _ _ _) fun i _ => ?_
      rw [refusal?_append, hoperand]
      exact Option.or_none
  | newArray element elements ih =>
      intro h first
      have hshort : elements.length < Selection.lengthLimit := (everywhere_iff.mp h).1
      have hlength : Selection.arrayLength elements = .ok elements.length := if_pos hshort
      rw [moves, fault?]
      refine refusal?_node (Selection.fault?_newArray _ _ _) fun allocation hok => ?_
      -- of the three choices only the first one can fail
      obtain ⟨store, hstore⟩ := Selection.exists_arrayStore hok
      rw [hstore, hlength]
      exact refusal?_elementMoves (fun e he => ih e he (h.child he)) first 0
  | pop operand ih =>
      intro h first
      have hoperand := refusal?_consumed (ih (h.child (by simp [children])) first)
      rw [moves, fault?, first?_checksAt_false, refusal?_append, hoperand]
      exact Option.or_none

end Expr

/-! ### Enough labels -/

namespace Move

/-- The number of labels that moves create. -/
def creations (ms : List Move) : Nat :=
  ms.countP isCreate

@[simp] lemma creations_nil : creations [] = 0 := rfl

@[simp] lemma creations_append (ms ns : List Move) :
    creations (ms ++ ns) = creations ms + creations ns :=
  List.countP_append

@[simp] lemma creations_create (ms : List Move) : creations (create :: ms) = creations ms + 1 :=
  List.countP_cons_of_pos rfl

@[simp] lemma creations_emit (i : Instruction) (ms : List Move) :
    creations (emit i :: ms) = creations ms := rfl

@[simp] lemma creations_branch (condition : Condition) (target : Label) (ms : List Move) :
    creations (branch condition target :: ms) = creations ms := rfl

@[simp] lemma creations_goto (target : Label) (ms : List Move) :
    creations (goto target :: ms) = creations ms := rfl

@[simp] lemma creations_place (label : Label) (ms : List Move) :
    creations (place label :: ms) = creations ms := rfl

@[simp] lemma creations_joinTruth (onFalse done : Nat) : creations (joinTruth onFalse done) = 1 :=
  rfl

lemma creations_guarded_le {α : Type} {choice : Except Fault α} {next : α → List Move} {n : Nat}
    (h : ∀ a, creations (next a) ≤ n) : creations (guarded choice next) ≤ n := by
  cases choice with
  | ok a => exact h a
  | error fault => exact Nat.zero_le _

lemma creations_consumed_le (e : Expr) (ms : List Move) :
    creations (consumed e ms) ≤ creations ms :=
  creations_guarded_le fun _ => Nat.le_refl _

lemma creations_decideBy (first : Nat) (comparison : Selection.Comparison) :
    creations (decideBy first comparison) = 2 := by
  rw [decideBy]
  cases comparison.reduce <;> rfl

end Move

open Move (creations)

namespace Expr

variable {config : Config}

lemma creations_operand_le {e : Expr} {first : Nat}
    (h : creations (e.moves config first) ≤ e.labelCount) :
    creations (Move.consumed e (e.moves config first)) ≤ e.labelCount :=
  Nat.le_trans (Move.creations_consumed_le _ _) h

lemma creations_argumentMoves_le {arguments : List Expr}
    (ih : ∀ e ∈ arguments, ∀ first, creations (e.moves config first) ≤ e.labelCount)
    (first : Nat) : creations (argumentMoves config first arguments) ≤ labelCounts arguments := by
  induction arguments generalizing first with
  | nil => exact Nat.le_refl _
  | cons e es ihes =>
      have hhead := creations_operand_le (ih e List.mem_cons_self first)
      have htail := ihes (fun e' he' => ih e' (List.mem_cons_of_mem _ he')) (first + e.labelCount)
      rw [argumentMoves, labelCounts, Move.creations_append]
      exact Nat.add_le_add hhead htail

lemma creations_elementMoves_le {store : Instruction} {elements : List Expr}
    (ih : ∀ e ∈ elements, ∀ first, creations (e.moves config first) ≤ e.labelCount)
    (first index : Nat) :
    creations (elementMoves config store first index elements) ≤ labelCounts elements := by
  induction elements generalizing first index with
  | nil => exact Nat.le_refl _
  | cons e es ihes =>
      have hhead := creations_operand_le (ih e List.mem_cons_self first)
      have htail := ihes (fun e' he' => ih e' (List.mem_cons_of_mem _ he')) (first + e.labelCount)
        (index + 1)
      simp only [elementMoves, labelCounts, Move.creations_emit, Move.creations_append]
      exact Nat.add_le_add hhead htail

/-- Two operands, and moves after them that create some more labels. -/
lemma creations_operands_le {lhs rhs : Expr} {first n : Nat} {ns : List Move}
    (ihl : ∀ first, creations (lhs.moves config first) ≤ lhs.labelCount)
    (ihr : ∀ first, creations (rhs.moves config first) ≤ rhs.labelCount)
    (hns : creations ns = n) :
    creations (Move.consumed lhs (lhs.moves config first) ++
      (Move.consumed rhs (rhs.moves config (first + lhs.labelCount)) ++ ns))
      ≤ lhs.labelCount + rhs.labelCount + n := by
  have hl := creations_operand_le (ihl first)
  have hr := creations_operand_le (ihr (first + lhs.labelCount))
  rw [Move.creations_append, Move.creations_append, hns]
  omega

/-- A tree creates no more labels than it needs. -/
lemma creations_moves_le (e : Expr) : ∀ first, creations (e.moves config first) ≤ e.labelCount := by
  -- no equality, since a choice that fails has no moves after it
  induction e using Expr.induct with
  | literal value => exact fun _ => Nat.le_refl _
  | load source => exact fun _ => Move.creations_guarded_le fun _ => Nat.le_refl _
  | receiver => exact fun _ => Nat.le_refl _
  | getField target field ih =>
      refine fun first => Move.creations_guarded_le fun access => ?_
      simpa [labelCount] using creations_operand_le (ih first)
  | getStatic field => exact fun _ => Move.creations_guarded_le fun _ => Nat.le_refl _
  | newInstance constructor arguments ih =>
      refine fun first => Move.creations_guarded_le fun call => ?_
      simpa [labelCount] using creations_argumentMoves_le ih first
  | invoke target method arguments ih ihs =>
      refine fun first => Move.creations_guarded_le fun call => ?_
      have htarget := creations_operand_le (ih first)
      have hargs := creations_argumentMoves_le ihs (first + target.labelCount)
      simpa [labelCount] using Nat.add_le_add htarget hargs
  | invokeStatic method arguments ih =>
      refine fun first => Move.creations_guarded_le fun call => ?_
      simpa [labelCount] using creations_argumentMoves_le ih first
  | not operand ih =>
      intro first
      rw [moves, Move.creations_append]
      exact Nat.add_le_add_right (creations_operand_le (ih first)) 2
  | or lhs rhs ihl ihr =>
      intro first
      have hl := creations_operand_le (ihl first)
      have hr := creations_operand_le (ihr (first + lhs.labelCount + 1))
      simp only [moves, labelCount, Move.creations_append, Move.creations_create,
        Move.creations_branch, Move.creations_place, Move.creations_joinTruth]
      omega
  | conditional test onTrue onFalse iht ihl ihr =>
      refine fun first => Move.creations_guarded_le fun _ => ?_
      have ht := creations_operand_le (iht first)
      have hl := ihl (first + test.labelCount + 1)
      have hr := ihr (first + test.labelCount + 1 + onTrue.labelCount + 1)
      simp only [labelCount, Move.creations_append, Move.creations_create, Move.creations_branch,
        Move.creations_goto, Move.creations_place, Move.creations_nil]
      omega
  | eq lhs rhs type ihl ihr =>
      exact fun first => Move.creations_guarded_le fun comparison =>
        creations_operands_le ihl ihr (Move.creations_decideBy _ _)
  | gt lhs rhs type ihl ihr =>
      exact fun first => Move.creations_guarded_le fun comparison =>
        creations_operands_le ihl ihr (Move.creations_decideBy _ _)
  | arithmetic op lhs rhs type ihl ihr =>
      exact fun first => Move.creations_guarded_le fun i => creations_operands_le ihl ihr rfl
  | widen operand source target ih =>
      refine fun first => Move.creations_guarded_le fun conversion => ?_
      have hoperand := creations_operand_le (ih first)
      cases conversion with
      | none => simpa [labelCount] using hoperand
      | some i => simpa [labelCount] using hoperand
  | cast target operand ih =>
      refine fun first => Move.creations_guarded_le fun i => ?_
      simpa [labelCount] using creations_operand_le (ih first)
  | newArray element elements ih =>
      exact fun first => Move.creations_guarded_le fun allocation =>
        Move.creations_guarded_le fun store => Move.creations_guarded_le fun length =>
          creations_elementMoves_le ih first 0
  | pop operand ih =>
      intro first
      rw [moves, Move.creations_append]
      exact creations_operand_le (ih first)

end Expr

/-! ### Runs and steps -/

variable {σ : Type}

/-- The fault that a computation stops with. -/
def Lowering.fault? (code : Lowering σ Unit) (s : Session σ) : Option Fault :=
  match code.run s with
  | .ok _ _ => none
  | .error fault _ => some fault

variable [Sink σ]

/-- A step reports the fault of its computation. -/
lemma Session.step_fault (config : Config) (step : Step) (s : Session σ) :
    (s.step config step).1 = Lowering.fault? (step.action config) s := by
  rw [Session.step, Lowering.fault?]
  cases (step.action config).run s <;> rfl

/-- A safe move that fails is a refusal, or it lacks the number for a label, or two
depths of the stack differ. -/
lemma Safe.fault_cases {floor : Nat} {m : Move} {s s' : Session σ} {fault : Fault}
    (h : Safe floor m s) (hrun : m.perform.run s = .error fault s') :
    m = .refuse fault ∨ (m = .create ∧ LabelTable.limit ≤ s.labels.size) ∨
      ∃ expected actual, expected ≠ actual ∧ fault = .stackImbalance expected actual := by
  cases m with
  | refuse fault' =>
      cases hrun
      exact .inl rfl
  | create =>
      refine .inr (.inl ⟨rfl, Nat.not_lt.mp fun hlt => ?_⟩)
      rw [Move.run_create_of_lt hlt] at hrun
      cases hrun
  | emit i => cases hrun
  | branch condition target =>
      rw [Move.run_branch h.2.2] at hrun
      cases hrun
  | goto target =>
      rw [Move.run_goto h.2.2] at hrun
      cases hrun
  | place label =>
      obtain ⟨depth, -, hstate⟩ := h
      -- depths are compared only where control also comes from above
      cases hs : s.reachable with
      | false =>
          rw [Move.run_place_of_halted hs hstate] at hrun
          cases hrun
      | true =>
          by_cases heq : depth = s.depth
          · rw [heq] at hstate
            rw [Move.run_place_of_eq hs hstate] at hrun
            cases hrun
          · rw [Move.run_place_of_ne hs hstate heq] at hrun
            cases hrun
            exact .inr (.inr ⟨depth, s.depth, heq, rfl⟩)

/-- **What a run reports.**  If depths cannot differ and there are enough numbers for the
labels, then a safe run stops exactly at the first refusal. -/
theorem Leads.fault?_follow {floor : Nat} {V : Prop} {Q : Session σ → Prop} {ms : List Move}
    {s : Session σ} (h : Leads (Safe floor) Q (Halts V) ms s) (hV : V)
    (hlabels : s.labels.size + Move.creations ms ≤ LabelTable.limit) :
    Lowering.fault? (follow ms) s = refusal? ms := by
  induction ms generalizing s with
  | nil => rfl
  | cons m ms ih =>
      obtain ⟨hsafe, hnext⟩ := h
      rw [Lowering.fault?, follow, EStateM.run_bind, refusal?_cons]
      rcases hsafe.run_cases with ⟨hrun, hpass⟩ | ⟨fault, hrun⟩
      · have hrefused : m.refused? = none := by
          cases m with
          | refuse fault => exact hpass.elim
          | _ => rfl
        have hsize := s.size_moved m
        rw [Move.creations, List.countP_cons] at hlabels
        rw [hrun] at hnext ⊢
        rw [hrefused, Option.none_or]
        refine ih hnext ?_
        rw [Move.creations]
        omega
      · -- of the three ways to fail only the refusal is left
        rw [hrun] at hnext ⊢
        rcases hsafe.fault_cases hrun with rfl | ⟨rfl, hle⟩ | ⟨expected, actual, -, rfl⟩
        · rfl
        · rw [Move.creations_create] at hlabels
          omega
        · cases hnext.2 hV

namespace Expr

/-- What lowering a tree reports is its first fault. -/
lemma fault?_lower (config : Config) {e : Expr} (hvoid : e.VoidConstructors)
    (harrays : e.ShortArrays) {s : Session σ} (hs : s.reachable = true)
    (hlabels : s.labels.size + e.labelCount ≤ LabelTable.limit) :
    Lowering.fault? (e.lower config) s = e.firstFault? := by
  have hlead := e.moves_lead σ config 0 s hs (Nat.zero_le _)
  have hbound : Move.creations (e.moves config s.labels.size) ≤ e.labelCount :=
    e.creations_moves_le _
  rw [Lowering.fault?, lower_eq_follow]
  exact (hlead.fault?_follow hvoid (by omega)).trans (e.refusal?_moves harrays _)

/-- Without constructors that return values, the check of the depth reports nothing. -/
lemma fault?_compile (config : Config) {e : Expr} (hvoid : e.VoidConstructors) {s : Session σ}
    (hs : s.reachable = true) :
    Lowering.fault? (e.compile config) s = Lowering.fault? (e.lower config) s := by
  rw [Lowering.fault?, Lowering.fault?, compile_eq]
  cases hrun : (e.lower config).run s with
  | error fault s' => rfl
  | ok u s' =>
      have hdepth := (e.advance_of_lower_eq_ok config hs hrun).1.depth
      rw [surplus_eq_zero e hvoid, Nat.add_zero] at hdepth
      simp [hdepth]

/-- **Acceptance and the first fault.**  Take a tree in which constructors return nothing
and arrays have lengths that fit the format, and any session that has been reached in
which there are enough numbers for the labels of the tree.  With all names and options,
a step with the tree succeeds exactly if the tree has no fault, and otherwise it reports
the first one. -/
theorem step_fault_eq_firstFault? (config : Config) (step : Step)
    (hvoid : step.expr.VoidConstructors) (harrays : step.expr.ShortArrays) {s : Session σ}
    (hs : s.Reached) (hlabels : s.labels.size + step.expr.labelCount ≤ LabelTable.limit) :
    (s.step config step).1 = step.expr.firstFault? := by
  rw [Session.step_fault]
  cases step with
  | lower e => exact fault?_lower config hvoid harrays hs.live hlabels
  | compile e =>
      exact (fault?_compile config hvoid hs.live).trans
        (fault?_lower config hvoid harrays hs.live hlabels)

/-- After a step that has failed, a sum whose left side is in order and whose right side
has two faults: the cast to a built-in type is found before what it casts. -/
theorem step_fault_eq_firstFault?_of_cast :
    let int : Ty := .ofPrimitive .int
    let failing : Expr := .arithmetic .add (.literal (.int 7)) (.pop (.literal .null)) int
    let s := ((Session.start ({} : Trace)).step {} (.lower failing)).2
    let point : Expr := .newInstance (.ofConstructor (.classOf "geometry" "Point") []) []
    let left : Expr := .newArray int [.not point]
    let e : Expr := .arithmetic .add left (.cast int (.load ⟨1, .void⟩)) int
    s.Reached ∧ e.VoidConstructors ∧ e.ShortArrays ∧
      (s.step {} (.lower e)).1 = some (.castToPrimitive int) := by
  intro int failing s point left e
  have hreached : s.Reached := .step {} (.lower failing) (.start _)
  have hall {P : Expr → Prop} (hpoint : P point) (hnot : P (.not point)) (hleft : P left)
      (hload : P (.load ⟨1, .void⟩)) (hcast : P (.cast int (.load ⟨1, .void⟩))) (he : P e) :
      e.Everywhere P := by
    have hpoint' : Everywhere P point := .node hpoint (List.forall_mem_nil _)
    have hnot' : Everywhere P (.not point) := .node hnot (by simp [children, hpoint'])
    have hleft' : Everywhere P left := .node hleft (by simp [left, children, hnot'])
    have hload' : Everywhere P (.load ⟨1, .void⟩) := .node hload (List.forall_mem_nil _)
    have hcast' : Everywhere P (.cast int (.load ⟨1, .void⟩)) :=
      .node hcast (by simp [children, hload'])
    exact .node he (by simp [e, children, hleft', hcast'])
  have hvoid : e.VoidConstructors := hall rfl trivial trivial trivial trivial trivial
  have hlength : 1 < Selection.lengthLimit := by decide
  have harrays : e.ShortArrays := hall trivial trivial hlength trivial trivial trivial
  have hfault : e.firstFault? = some (.castToPrimitive int) := rfl
  refine ⟨hreached, hvoid, harrays, ?_⟩
  rw [← hfault]
  exact step_fault_eq_firstFault? {} (.lower e) hvoid harrays hreached (by decide)

end Expr

end StackLowering
