import StackLowering.Proofs.Reached
import StackLowering.Proofs.Simulation

/-!
The code of a tree does what the tree means.

* `Interpretation.Simulated`: the code of a tree, wherever it lies, does to the stack
  and the world what evaluation does.
* `Interpretation.simulated`: this holds of every accepted tree.
* `Expr.compile_correct`: compilation keeps the meaning of trees.
-/

namespace StackLowering

open Event (extent)
open Move (Clean)

namespace Interpretation

variable {V W E : Type} (I : Interpretation V W E)

/-! ### Lists of trees -/

section Trees

variable (config : Config)

/-- The code of the tree does what the tree means, with its labels numbered from any
number on. -/
def Simulated (e : Expr) : Prop :=
  ∀ first, Clean (e.moves config first) → e.VoidConstructors →
    I.Performs (Move.events (e.moves config first)) (push (I.eval config.naming e))

variable {I config} {first : Nat}

lemma Simulated.operand {e : Expr} (he : I.Simulated config e)
    (hclean : Clean (Move.consumed e (e.moves config first))) (hvoid : e.VoidConstructors) :
    I.Performs (Move.events (Move.consumed e (e.moves config first)))
      (I.pushValue (I.eval config.naming e)) := by
  obtain ⟨hvalue, hclean⟩ := Move.clean_consumed.mp hclean
  have hyields := I.yields_eval config.naming e first hclean
  rw [hvalue] at hyields
  rw [Move.consumed_of_hasValue hvalue]
  exact (he first hclean hvoid).congr (I.push_eq_pushValue hyields)

/-- Two operands, and what is done with them. -/
lemma Simulated.operands {lhs rhs : Expr} {ns : List Move} {f : List V → EStateM E W (List V)}
    (hl : I.Simulated config lhs) (hr : I.Simulated config rhs)
    (hclean : Clean (Move.consumed lhs (lhs.moves config first) ++
      (Move.consumed rhs (rhs.moves config (first + lhs.labelCount)) ++ ns)))
    (hvoid : ∀ e ∈ [lhs, rhs], e.VoidConstructors) (hns : I.Performs (Move.events ns) f) :
    I.Performs (Move.events (Move.consumed lhs (lhs.moves config first) ++
      (Move.consumed rhs (rhs.moves config (first + lhs.labelCount)) ++ ns))) fun stack =>
        I.value (I.eval config.naming lhs) >>= fun a =>
          I.value (I.eval config.naming rhs) >>= fun b => f (b :: a :: stack) := by
  obtain ⟨hcl, hclean⟩ := Move.clean_append.mp hclean
  obtain ⟨hcr, -⟩ := Move.clean_append.mp hclean
  rw [Move.events_append, Move.events_append]
  have hlhs := hl.operand hcl (hvoid lhs (by simp))
  have hrhs := hr.operand hcr (hvoid rhs (by simp))
  exact (hlhs.append (hrhs.append hns)).congr fun stack => by simp [pushValue]

/-- Arguments end up on the stack with the last one on top. -/
lemma performs_arguments {arguments : List Expr} (ih : ∀ e ∈ arguments, I.Simulated config e)
    (hclean : Clean (Expr.argumentMoves config first arguments))
    (hvoid : ∀ e ∈ arguments, e.VoidConstructors) :
    I.Performs (Move.events (Expr.argumentMoves config first arguments)) fun stack =>
      I.evalArguments config.naming arguments >>= fun vs => pure (vs.reverse ++ stack) := by
  induction arguments generalizing first with
  | nil => exact Performs.nil.congr fun stack => by simp [evalArguments]
  | cons e es ihes =>
      simp only [Expr.argumentMoves, Move.events_append] at hclean ⊢
      obtain ⟨he, hes⟩ := Move.clean_append.mp hclean
      have hhead := (ih e List.mem_cons_self).operand he (hvoid e List.mem_cons_self)
      have htail := ihes (fun e' he' => ih e' (List.mem_cons_of_mem _ he')) hes
        fun e' he' => hvoid e' (List.mem_cons_of_mem _ he')
      exact (hhead.append htail).congr fun stack => by simp [pushValue, evalArguments]

lemma length_evalArguments {naming : Naming} {arguments : List Expr} {w w' : W} {vs : List V}
    (h : (I.evalArguments naming arguments).run w = .ok vs w') : vs.length = arguments.length := by
  induction arguments generalizing w vs with
  | nil =>
      cases h
      rfl
  | cons e es ih =>
      obtain ⟨v, w₁, -, h⟩ := run_bind_eq_ok h
      obtain ⟨vs', w₂, hvs, h⟩ := run_bind_eq_ok h
      cases h
      rw [List.length_cons, List.length_cons, ih hvs]

variable (I) in
/-- The elements of an array are stored while the array stays on top of the stack. -/
def stored (kind : ArrayKind) (naming : Naming) (index : Nat) :
    List Expr → List V → EStateM E W (List V)
  | [], stack => pure stack
  | e :: es, stack => do
      let stack ← I.exec .dup stack
      let stack ← I.pushValue (I.eval naming e) (I.int (.ofNat index) :: stack)
      let stack ← I.exec (.arrayStore kind) stack
      stored kind naming (index + 1) es stack

lemma performs_elements {kind : ArrayKind} {elements : List Expr} {index : Nat}
    (ih : ∀ e ∈ elements, I.Simulated config e)
    (hclean : Clean (Expr.elementMoves config (.arrayStore kind) first index elements))
    (hvoid : ∀ e ∈ elements, e.VoidConstructors) :
    I.Performs (Move.events (Expr.elementMoves config (.arrayStore kind) first index elements))
      (I.stored kind config.naming index elements) := by
  induction elements generalizing first index with
  | nil => exact Performs.nil.congr fun stack => by simp [stored]
  | cons e es ihes =>
      simp only [Expr.elementMoves, Move.clean_cons, Move.clean_append, Move.events_emit,
        Move.events_append] at hclean ⊢
      obtain ⟨-, -, he, -, hes⟩ := hclean
      have hhead := (ih e List.mem_cons_self).operand he (hvoid e List.mem_cons_self)
      have htail := ihes (fun e' he' => ih e' (List.mem_cons_of_mem _ he')) hes
        fun e' he' => hvoid e' (List.mem_cons_of_mem _ he')
      have hstore := hhead.append (Performs.cons (.arrayStore kind) rfl htail)
      have hindex := Performs.cons (.pushInt config.options.compactConstants (.ofNat index))
        (Instruction.target?_pushInt _ _) hstore
      exact (Performs.cons .dup rfl hindex).congr fun stack => by simp [stored, exec_pushInt]

lemma stored_cons (kind : ArrayKind) (naming : Naming) (elements : List Expr) (index : Nat)
    (array : V) (stack : List V) :
    I.stored kind naming index elements (array :: stack)
      = I.evalElements naming kind array index elements >>= fun _ => pure (array :: stack) := by
  induction elements generalizing index with
  | nil => simp [stored, evalElements]
  | cons e es ih => simp [stored, evalElements, exec, pushValue, ih]

/-! ### Calls -/

lemma call_of_callWith {naming : Naming} {method : Method} {count : Nat} {call : Call}
    (h : Selection.callWith naming method count = .ok call) :
    call = naming.call method ∧ count = method.parameters.length := by
  obtain ⟨rfl, rfl⟩ := Selection.callWith_eq_ok.mp h
  exact ⟨rfl, rfl⟩

/-- A call after its arguments.  The receiver, if there is one, lies below them. -/
lemma evalArguments_exec_invoke {naming : Naming} {method : Method} {arguments : List Expr}
    (hlength : arguments.length = method.parameters.length) {receiver : Option V}
    (hreceiver : receiver.isSome = method.dispatch.hasReceiver) (stack : List V) :
    (I.evalArguments naming arguments >>= fun vs =>
        I.exec (.invoke (naming.call method)) (vs.reverse ++ (receiver.toList ++ stack)))
      = I.evalArguments naming arguments >>= fun vs =>
        I.invoke (naming.call method) (receiver.toList ++ vs) >>= fun r =>
          pure (r.toList ++ stack) := by
  -- the call takes as many values as the arguments gave in this very run
  refine bind_congr_of_run fun w vs w' hrun => ?_
  have hoperands : (receiver.toList ++ vs).length
      = (naming.call method).arguments + (naming.call method).dispatch.hasReceiver.toNat := by
    rw [List.length_append, length_evalArguments hrun, hlength, Nat.add_comm]
    change _ = method.parameters.length + method.dispatch.hasReceiver.toNat
    rw [← hreceiver]
    cases receiver <;> rfl
  have hexec := exec_invoke (I := I) hoperands stack
  rw [List.reverse_append, List.append_assoc] at hexec
  cases receiver with
  | none => exact hexec
  | some object => exact hexec

/-! ### Arrays and numbers -/

lemma arrayKind?_of_arrayKind {element : Ty} {kind : ArrayKind}
    (h : Selection.arrayKind element = .ok kind) : element.arrayKind? = some kind := by
  rw [Selection.arrayKind] at h
  rw [Ty.arrayKind?]
  cases hprimitive : element.primitive? with
  | none =>
      rw [hprimitive] at h
      cases h
      rfl
  | some primitive =>
      rw [hprimitive] at h
      dsimp only at h ⊢
      cases hkind : ArrayKind.ofPrimitive? primitive with
      | none =>
          rw [hkind] at h
          cases h
      | some k =>
          rw [hkind] at h
          cases h
          rfl

lemma exec_newArray {naming : Naming} {element : Ty} {kind : ArrayKind} {i : Instruction}
    (hi : i = if kind = .reference then .newRefArray (naming.internalName element)
      else .newArray kind) (n : Int32) (stack : List V) :
    I.exec i (I.int n :: stack)
      = I.allocate naming element kind n >>= fun array => pure (array :: stack) := by
  subst hi
  by_cases hkind : kind = .reference <;> simp [hkind, exec, allocate]

lemma numeric?_of_category {type : Ty} {kind : Numeric} (h : type.category = some kind.category) :
    type.numeric? = some kind := by
  rw [Ty.numeric?, h]
  exact Category.numeric_eq_some_iff.mpr rfl

/-! ### Trees -/

variable (I config)

/-- **The code of every accepted tree does what the tree means.** -/
theorem simulated (e : Expr) : I.Simulated config e := by
  -- in every case the pieces of code are put together first, and what they do is then seen to be
  -- what evaluation does
  induction e using Expr.induct with
  | literal value =>
      intro first _ _
      refine (Performs.exec _ (Literal.target?_push config value)).congr fun stack => ?_
      simp [exec_push, push, eval]
  | load source =>
      intro first hclean _
      obtain ⟨i, hi, -⟩ := Move.clean_guarded.mp hclean
      simp only [Expr.moves, hi, Move.guarded]
      obtain ⟨category, hcategory, rfl⟩ := Selection.load_eq_ok.mp hi
      refine (Performs.exec _ rfl).congr fun stack => ?_
      simp [exec, push, eval, hcategory]
  | receiver =>
      intro first _ _
      exact (Performs.exec _ rfl).congr fun stack => by simp [exec, push, eval]
  | getField target field ih =>
      intro first hclean hvoid
      obtain ⟨access, haccess, h⟩ := Move.clean_guarded.mp hclean
      simp only [Expr.moves, haccess, Move.guarded, Move.events_append]
      obtain ⟨ht, -⟩ := Move.clean_append.mp h
      have htarget := ih.operand ht (hvoid.child (by simp [Expr.children]))
      obtain ⟨-, -, rfl⟩ := Selection.fieldAccess_eq_ok.mp haccess
      refine (htarget.append (.exec _ rfl)).congr fun stack => ?_
      simp [exec, push, pushValue, eval, Naming.access]
  | getStatic field =>
      intro first hclean _
      obtain ⟨access, haccess, -⟩ := Move.clean_guarded.mp hclean
      simp only [Expr.moves, haccess, Move.guarded]
      obtain ⟨-, -, rfl⟩ := Selection.fieldAccess_eq_ok.mp haccess
      refine (Performs.exec _ rfl).congr fun stack => ?_
      simp [exec, push, eval, Naming.access]
  | newInstance constructor arguments ih =>
      intro first hclean hvoid
      obtain ⟨call, hcall, h⟩ := Move.clean_guarded.mp hclean
      simp only [Expr.moves, hcall, Move.guarded, Move.events_emit, Move.events_append]
      simp only [Move.clean_cons, Move.clean_append] at h
      obtain ⟨hdispatch, hwith⟩ := Selection.construction_eq_ok.mp hcall
      obtain ⟨rfl, hlength⟩ := call_of_callWith hwith
      have harguments := performs_arguments ih h.2.2.1 fun e he => hvoid.child he
      have hinvoke := harguments.append (.exec (.invoke (config.naming.call constructor)) rfl)
      refine (Performs.cons _ rfl (Performs.cons .dup rfl hinvoke)).congr fun stack => ?_
      have hreturns : (config.naming.call constructor).returnsValue = false := by
        simp [Naming.call, Method.returnsValue, hvoid.isVoid]
      simp only [exec, push, eval, bind_assoc, pure_bind]
      refine bind_congr fun object => ?_
      have hreceiver : (some object).isSome = constructor.dispatch.hasReceiver := by
        rw [hdispatch]
        rfl
      refine (evalArguments_exec_invoke hlength hreceiver (object :: stack)).trans ?_
      refine bind_congr fun vs => bind_congr_of_run fun w r w' hrun => ?_
      -- the constructor leaves nothing above the object
      have hnone := I.isSome_invoke _ _ _ _ _ hrun
      rw [hreturns, Option.isSome_eq_false_iff, Option.isNone_iff_eq_none] at hnone
      rw [hnone]
      rfl
  | invoke target method arguments ih ihs =>
      intro first hclean hvoid
      obtain ⟨call, hcall, h⟩ := Move.clean_guarded.mp hclean
      simp only [Expr.moves, hcall, Move.guarded, Move.events_append]
      simp only [Move.clean_append] at h
      obtain ⟨hreceiver, hwith⟩ := Selection.call_eq_ok.mp hcall
      obtain ⟨rfl, hlength⟩ := call_of_callWith hwith
      have htarget := ih.operand h.1 (hvoid.child (by simp [Expr.children]))
      have harguments := performs_arguments ihs h.2.1 fun e he =>
        hvoid.child (List.mem_cons_of_mem _ he)
      refine (htarget.append (harguments.append (.exec _ rfl))).congr fun stack => ?_
      simp only [push, pushValue, eval, bind_assoc, pure_bind]
      refine bind_congr fun object => ?_
      have hobject : (some object).isSome = method.dispatch.hasReceiver := hreceiver.symm
      exact evalArguments_exec_invoke hlength hobject stack
  | invokeStatic method arguments ih =>
      intro first hclean hvoid
      obtain ⟨call, hcall, h⟩ := Move.clean_guarded.mp hclean
      simp only [Expr.moves, hcall, Move.guarded, Move.events_append]
      simp only [Move.clean_append] at h
      obtain ⟨hreceiver, hwith⟩ := Selection.call_eq_ok.mp hcall
      obtain ⟨rfl, hlength⟩ := call_of_callWith hwith
      have harguments := performs_arguments ih h.1 fun e he => hvoid.child he
      refine (harguments.append (.exec _ rfl)).congr fun stack => ?_
      simp only [push, eval, bind_assoc, pure_bind]
      have hnone : (none : Option V).isSome = method.dispatch.hasReceiver := hreceiver.symm
      exact evalArguments_exec_invoke hlength hnone stack
  | not operand ih =>
      intro first hclean hvoid
      simp only [Expr.moves, Move.events_append] at hclean ⊢
      obtain ⟨ho, -⟩ := Move.clean_append.mp hclean
      have hoperand := ih.operand ho (hvoid.child (by simp [Expr.children]))
      refine (hoperand.append (performs_truth _ _)).congr fun stack => ?_
      simp [push, pushValue, eval, holds, Relation.decide, bne]
  | or lhs rhs ihl ihr =>
      intro first hclean hvoid
      simp only [Expr.moves, Move.clean_append, Move.clean_cons] at hclean
      simp only [Expr.moves, Move.events_append, Move.events_create, Move.events_branch,
        Move.events_place]
      have hlhs := ihl.operand hclean.1 (hvoid.child (by simp [Expr.children]))
      have hrhs := ihr.operand hclean.2.2.2.1 (hvoid.child (by simp [Expr.children]))
      refine (hlhs.append (performs_disjunction hrhs)).congr fun stack => ?_
      simp only [push, pushValue, eval, holds, bind_assoc, pure_bind, uncons_cons]
      -- the right side is evaluated only where the left one is zero
      refine bind_congr fun v => bind_congr fun m => ?_
      by_cases hm : m = 0
      · simp [Relation.decide, hm, bne]
      · simp [Relation.decide, hm]
  | conditional test onTrue onFalse iht ihl ihr =>
      intro first hclean hvoid
      obtain ⟨_, harms, hclean⟩ := Move.clean_guarded.mp hclean
      simp only [Move.clean_append, Move.clean_cons] at hclean
      simp only [Expr.moves, harms, Move.guarded, Move.events_append, Move.events_create,
        Move.events_branch, Move.events_goto, Move.events_place, Move.events_nil]
      have htest := iht.operand hclean.1 (hvoid.child (by simp [Expr.children]))
      have hleft := ihl _ hclean.2.2.2.1 (hvoid.child (by simp [Expr.children]))
      have hright := ihr _ hclean.2.2.2.2.2.2.2.1 (hvoid.child (by simp [Expr.children]))
      refine (htest.append (performs_conditional hleft hright)).congr fun stack => ?_
      simp only [push, pushValue, eval, holds, bind_assoc, pure_bind, uncons_cons]
      refine bind_congr fun v => bind_congr fun n => ?_
      by_cases hn : n = 0
      · simp [Relation.decide, hn]
      · simp [Relation.decide, hn]
  | eq lhs rhs type ihl ihr =>
      intro first hclean hvoid
      obtain ⟨comparison, hcomparison, h⟩ := Move.clean_guarded.mp hclean
      simp only [Expr.moves, hcomparison, Move.guarded]
      have hoperands := ihl.operands ihr h (fun e he => hvoid.child he) (performs_decideBy _ _)
      refine hoperands.congr fun stack => ?_
      simp [push, eval, decided_equality hcomparison]
  | gt lhs rhs type ihl ihr =>
      intro first hclean hvoid
      obtain ⟨comparison, hcomparison, h⟩ := Move.clean_guarded.mp hclean
      simp only [Expr.moves, hcomparison, Move.guarded]
      have hoperands := ihl.operands ihr h (fun e he => hvoid.child he) (performs_decideBy _ _)
      refine hoperands.congr fun stack => ?_
      simp [push, eval, decided_ordering hcomparison]
  | arithmetic op lhs rhs type ihl ihr =>
      intro first hclean hvoid
      obtain ⟨i, hi, h⟩ := Move.clean_guarded.mp hclean
      simp only [Expr.moves, hi, Move.guarded]
      obtain ⟨kind, hkind, rfl⟩ := Selection.arithmetic_eq_ok.mp hi
      have hnumeric := numeric?_of_category hkind
      have hoperands := ihl.operands ihr h (fun e he => hvoid.child he)
        (.exec (.arithmetic op kind) rfl)
      refine hoperands.congr fun stack => ?_
      simp [push, eval, exec, hnumeric]
  | widen operand source target ih =>
      intro first hclean hvoid
      obtain ⟨conversion, hconversion, h⟩ := Move.clean_guarded.mp hclean
      simp only [Expr.moves, hconversion, Move.guarded, Move.events_append]
      obtain ⟨ho, -⟩ := Move.clean_append.mp h
      have hoperand := ih.operand ho (hvoid.child (by simp [Expr.children]))
      obtain ⟨n, m, hn, hm, ⟨rfl, rfl⟩ | ⟨hlt, rfl⟩⟩ := Selection.widening_eq_ok.mp hconversion
      · -- between equal kinds there is no instruction, and nothing to convert
        refine (hoperand.append .nil).congr fun stack => ?_
        simp [push, pushValue, eval, numeric?_of_category hn, numeric?_of_category hm, widened]
      · have hne : n ≠ m := fun heq => absurd hlt (by simp [heq])
        refine (hoperand.append (.exec (.convert n m) rfl)).congr fun stack => ?_
        simp [push, pushValue, eval, numeric?_of_category hn, numeric?_of_category hm, widened, hne,
          exec]
  | cast target operand ih =>
      intro first hclean hvoid
      obtain ⟨i, hi, h⟩ := Move.clean_guarded.mp hclean
      simp only [Expr.moves, hi, Move.guarded, Move.events_append]
      obtain ⟨-, rfl⟩ := Selection.cast_eq_ok.mp hi
      obtain ⟨ho, -⟩ := Move.clean_append.mp h
      have hoperand := ih.operand ho (hvoid.child (by simp [Expr.children]))
      refine (hoperand.append (.exec _ rfl)).congr fun stack => ?_
      simp [push, pushValue, eval, exec]
  | newArray element elements ih =>
      intro first hclean hvoid
      obtain ⟨allocation, hallocation, h⟩ := Move.clean_guarded.mp hclean
      obtain ⟨store, hstore, h⟩ := Move.clean_guarded.mp h
      obtain ⟨length, hlength, h⟩ := Move.clean_guarded.mp h
      simp only [Move.clean_cons] at h
      simp only [Expr.moves, hallocation, hstore, hlength, Move.guarded, Move.events_emit]
      obtain ⟨htarget, -⟩ := Selection.effect_of_newArray hallocation
      obtain ⟨kind, hkind, hi⟩ := Selection.newArray_eq_ok.mp hallocation
      obtain ⟨kind', hkind', rfl⟩ := Selection.arrayStore_eq_ok.mp hstore
      -- allocation and stores have been chosen for one kind of elements
      obtain rfl : kind = kind' := Except.ok.inj (hkind.symm.trans hkind')
      obtain ⟨-, rfl⟩ := Selection.arrayLength_eq_ok.mp hlength
      have helems := performs_elements ih h.2.2 fun e he => hvoid.child he
      have hall := Performs.cons (.pushInt config.options.compactConstants (.ofNat elements.length))
        (Instruction.target?_pushInt _ _) (.cons allocation htarget helems)
      refine hall.congr fun stack => ?_
      simp [push, eval, arrayKind?_of_arrayKind hkind, exec_pushInt, exec_newArray hi, stored_cons]
  | pop operand ih =>
      intro first hclean hvoid
      simp only [Expr.moves, Move.events_append] at hclean ⊢
      obtain ⟨ho, -⟩ := Move.clean_append.mp hclean
      have hoperand := ih.operand ho (hvoid.child (by simp [Expr.children]))
      refine (hoperand.append (.exec _ rfl)).congr fun stack => ?_
      simp [push, pushValue, eval, exec]

end Trees

end Interpretation

/-! ### Compilation -/

/-- **Compiler correctness.**  Take a tree that compilation with the check of the
depth accepts, in any session that has been reached.  Under every interpretation of
the primitive operations, from every stack and world, the machine runs the new code
from its first position as evaluation goes.  If evaluation succeeds, then the machine
comes to the end of the code with the world of evaluation and, on the stack it
started with, the value, if the tree has one.  If evaluation fails, then the machine
fails with the same error in the same world. -/
theorem Expr.compile_correct (config : Config) (hcheck : config.options.checkBalance = true)
    {e : Expr} {s s' : Session Code} (hs : s.Reached)
    (hrun : (e.compile config).run s = .ok () s')
    {V W E : Type} (I : Interpretation V W E) (stack : List V) (w : W) :
    match (I.eval config.naming e).run w with
    | .ok r w' =>
        r.isSome = e.hasValue ∧
          I.Executes s'.sink ⟨s.sink.size, stack⟩ w (.ok ⟨s'.sink.size, r.toList ++ stack⟩ w')
    | .error error w' =>
        I.Executes s'.sink ⟨s.sink.size, stack⟩ w (.error error w') := by
  have hvoid := e.voidConstructors_of_compile_eq_ok config hs.live hcheck hrun
  obtain ⟨hlower, -⟩ := e.lower_of_compile_eq_ok config hrun
  have hcourse := e.course_of_lower_eq_ok config hs.live hlower
  obtain ⟨hholds, hsize⟩ := hcourse.holds
  have hruns := I.simulated config e _ hcourse.clean hvoid s'.sink s.sink.size hholds stack w
  rw [← hsize, Interpretation.push, EStateM.run_bind] at hruns
  cases heval : (I.eval config.naming e).run w with
  | ok r w' =>
      rw [heval] at hruns
      exact ⟨I.yields_eval config.naming e _ hcourse.clean w r w' heval, hruns⟩
  | error error w' =>
      rw [heval] at hruns
      exact hruns

/-- Numbers and references are integers, the value of a local variable is its slot,
and the world is the list of the slots that were read, the latest first. -/
def Interpretation.slots : Interpretation Int32 (List UInt16) Unit where
  int n := n
  int? n := some n
  int?_int _ := rfl
  null := 0
  stuck := ()
  load _ slot := do
    modify (slot :: ·)
    return .ofNat slot.toNat
  constant _ := throw ()
  getField _ _ := throw ()
  getStatic _ := throw ()
  new _ := throw ()
  checkCast _ v := pure v
  invoke call operands := pure (if call.returnsValue then some (.ofNat operands.length) else none)
  isSome_invoke call operands w r w' h := by
    cases h
    cases call.returnsValue <;> rfl
  arithmetic _ _ a b := pure (a + b)
  compare _ a b := pure (some (Ord.compare a b))
  same a b := pure (a == b)
  convert _ _ v := pure v
  newArray _ _ := throw ()
  newRefArray _ _ := throw ()
  store _ _ _ _ := throw ()

/-- A disjunction inside a sum, on a stack that holds 7: the second disjunct is not
read. -/
theorem Expr.compile_correct_of_or :
    let e : Expr := .arithmetic .add (.literal (.int 40))
      (.conditional (.or (.load ⟨1, .ofPrimitive .int⟩) (.load ⟨2, .ofPrimitive .int⟩))
        (.literal (.int 2)) receiver) (.ofPrimitive .int)
    let s := Session.start ({} : Code)
    s.Reached ∧ ∃ s', (e.compile {}).run s = .ok () s' ∧
      Interpretation.slots.Executes s'.sink ⟨0, [7]⟩ [] (.ok ⟨s'.sink.size, [42, 7]⟩ [1]) := by
  intro e s
  have hreached : s.Reached := .start _
  have hok : (Lowering.final? (e.compile {}) s).isSome = true := by
    simp only [e, s]
    decide +kernel
  have heval : (Interpretation.slots.eval .jvm e).run [] = .ok (some 42) [1] := rfl
  have hsize : s.sink.size = 0 := rfl
  clear_value s e
  obtain ⟨s', hfinal⟩ := Option.isSome_iff_exists.mp hok
  have hrun := Lowering.final?_eq_some.mp hfinal
  have hcorrect := compile_correct {} rfl hreached hrun Interpretation.slots [7] []
  rw [heval, hsize] at hcorrect
  exact ⟨hreached, s', hrun, hcorrect.2⟩

end StackLowering
