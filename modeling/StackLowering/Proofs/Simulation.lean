import StackLowering.Proofs.Evaluation
import StackLowering.Proofs.Labels
import StackLowering.Proofs.Literals

/-!
What pieces of code do.

* `Interpretation.Yields`: a computation gives a value, or it never does.
* `Interpretation.yields_eval`: an accepted tree gives a value if it is said to.
* `Interpretation.Performs`: code that holds some events does what a computation
  does, wherever it lies.
* `Interpretation.runs_joinTruth`, `Interpretation.performs_truth`,
  `Interpretation.performs_disjunction`, `Interpretation.performs_conditional`,
  `Interpretation.performs_decideBy`: the pieces with branches.
* `Interpretation.exec_push`, `Interpretation.exec_invoke`: literals and calls.
-/

namespace StackLowering

open Event (extent)
open Move (Clean)

namespace Interpretation

variable {V W E : Type} (I : Interpretation V W E)

/-- A computation that succeeds does so in both its parts. -/
lemma run_bind_eq_ok {α β : Type} {x : EStateM E W α} {f : α → EStateM E W β} {b : β} {w w' : W}
    (h : (x >>= f).run w = .ok b w') :
    ∃ a w₁, x.run w = .ok a w₁ ∧ (f a).run w₁ = .ok b w' := by
  rw [EStateM.run_bind] at h
  cases hx : x.run w with
  | ok a w₁ =>
      rw [hx] at h
      exact ⟨a, w₁, rfl, h⟩
  | error error w₁ =>
      rw [hx] at h
      cases h

/-- Computations that continue alike with every result are the same. -/
lemma bind_congr_of_run {α β : Type} {x : EStateM E W α} {f g : α → EStateM E W β}
    (h : ∀ w a w', x.run w = .ok a w' → f a = g a) : x >>= f = x >>= g := by
  funext w
  change (x >>= f).run w = (x >>= g).run w
  rw [EStateM.run_bind, EStateM.run_bind]
  cases hx : x.run w with
  | ok a w' =>
      dsimp only
      rw [h w a w' hx]
  | error error w' => rfl

/-! ### Computations that give a value -/

/-- If the computation succeeds, then with a value exactly if `b` holds. -/
def Yields (b : Bool) (m : EStateM E W (Option V)) : Prop :=
  ∀ w r w', m.run w = .ok r w' → r.isSome = b

namespace Yields

variable {I} {α : Type} {b : Bool}

lemma pure {r : Option V} (h : r.isSome = b) : Yields b (pure r : EStateM E W (Option V)) := by
  rintro w _ w' ⟨⟩
  exact h

lemma throw (error : E) : Yields b (throw error : EStateM E W (Option V)) := by
  rintro w r w' ⟨⟩

lemma bind {x : EStateM E W α} {f : α → EStateM E W (Option V)} (h : ∀ a, Yields b (f a)) :
    Yields b (x >>= f) := by
  intro w r w' hrun
  obtain ⟨a, w₁, -, hrun⟩ := run_bind_eq_ok hrun
  exact h a w₁ r w' hrun

lemma some_map (x : EStateM E W V) : Yields true (some <$> x) := by
  rw [map_eq_pure_bind]
  exact .bind fun a => .pure rfl

end Yields

/-- What an accepted tree is said to give, it gives. -/
lemma yields_eval {config : Config} (naming : Naming) (e : Expr) : ∀ first,
    Clean (e.moves config first) → Yields e.hasValue (I.eval naming e) := by
  induction e using Expr.induct with
  | literal value => exact fun _ _ => .some_map _
  | load source =>
      intro first _
      rw [eval]
      split
      · exact .some_map _
      · exact .throw _
  | receiver => exact fun _ _ => .some_map _
  | getField target field _ => exact fun _ _ => .bind fun _ => .some_map _
  | getStatic field => exact fun _ _ => .some_map _
  | newInstance constructor arguments _ =>
      exact fun _ _ => .bind fun _ => .bind fun _ => .bind fun _ => .pure rfl
  | invoke target method arguments _ _ =>
      exact fun _ _ => .bind fun _ => .bind fun operands => I.isSome_invoke _ _
  | invokeStatic method arguments _ => exact fun _ _ => .bind fun operands => I.isSome_invoke _ _
  | not operand _ => exact fun _ _ => .bind fun _ => .bind fun _ => .pure rfl
  | or lhs rhs _ _ =>
      refine fun _ _ => .bind fun _ => .bind fun m => ?_
      split
      · exact .bind fun _ => .bind fun _ => .pure rfl
      · exact .pure rfl
  | conditional test onTrue onFalse _ ihl ihr =>
      intro first h
      obtain ⟨u, harms, h⟩ := Move.clean_guarded.mp h
      simp only [Move.clean_append, Move.clean_cons] at h
      have htrue := ihl _ h.2.2.2.1
      have hfalse := ihr _ h.2.2.2.2.2.2.2.1
      -- the arms agree, so that it does not matter which one is taken
      rw [← Selection.arms_eq_ok.mp harms] at hfalse
      rw [eval, Expr.hasValue]
      refine .bind fun _ => .bind fun n => ?_
      split
      · exact hfalse
      · exact htrue
  | eq lhs rhs type _ _ =>
      exact fun _ _ => .bind fun _ => .bind fun _ => .bind fun _ => .pure rfl
  | gt lhs rhs type _ _ =>
      exact fun _ _ => .bind fun _ => .bind fun _ => .bind fun _ => .pure rfl
  | arithmetic op lhs rhs type _ _ =>
      refine fun _ _ => .bind fun _ => .bind fun _ => ?_
      split
      · exact .some_map _
      · exact .throw _
  | widen operand source target _ => exact fun _ _ => .bind fun _ => .some_map _
  | cast target operand _ => exact fun _ _ => .bind fun _ => .some_map _
  | newArray element elements _ =>
      intro first _
      rw [eval]
      split
      · exact .bind fun _ => .bind fun _ => .pure rfl
      · exact .throw _
  | pop operand _ => exact fun _ _ => .bind fun _ => .pure rfl

/-! ### Code without jumps -/

/-- Code that holds the events does what the computation does, wherever it lies. -/
def Performs (items : List Event) (f : List V → EStateM E W (List V)) : Prop :=
  ∀ c pos, c.Holds pos items → I.Runs c pos (pos + extent items) f

namespace Performs

variable {I} {items items' : List Event} {f g : List V → EStateM E W (List V)}

lemma congr (h : I.Performs items f) (heq : ∀ stack, f stack = g stack) : I.Performs items g :=
  fun c pos hholds => (h c pos hholds).congr heq

lemma nil : I.Performs [] pure :=
  fun _ _ _ => .nil

lemma append (h : I.Performs items f) (h' : I.Performs items' g) :
    I.Performs (items ++ items') fun stack => f stack >>= g := by
  intro c pos hholds
  obtain ⟨hleft, hright⟩ := Code.holds_append.mp hholds
  rw [Event.extent_append, ← Nat.add_assoc]
  exact (h c pos hleft).append (h' c _ hright)

lemma exec (i : Instruction) (htarget : i.target? = none) : I.Performs [.emitted i] (I.exec i) :=
  fun _ _ hholds => .exec hholds.1 htarget

lemma cons (i : Instruction) (htarget : i.target? = none) (h : I.Performs items f) :
    I.Performs (.emitted i :: items) fun stack => I.exec i stack >>= f :=
  (exec i htarget).append h

end Performs

/-- The stack with the value of a computation, if it gives one. -/
def push (m : EStateM E W (Option V)) (stack : List V) : EStateM E W (List V) := do
  return (← m).toList ++ stack

/-- The stack with the value of a computation that has to give one. -/
def pushValue (m : EStateM E W (Option V)) (stack : List V) : EStateM E W (List V) := do
  return (← I.value m) :: stack

lemma push_eq_pushValue {m : EStateM E W (Option V)} (h : Yields true m) (stack : List V) :
    push m stack = I.pushValue m stack := by
  rw [push, pushValue, value, bind_assoc]
  -- the two differ only where there is no value, and this does not happen
  refine bind_congr_of_run fun w r w' hrun => ?_
  cases r with
  | none => cases h w none w' hrun
  | some v => rfl

/-! ### Branches -/

section Control

variable {I} {c : Code} {pos : Nat}

/-- The end of a construct pushes 1 for the path reached, and 0 for the path that
comes through the label. -/
lemma runs_joinTruth {onFalse done : Nat}
    (hholds : c.Holds pos (Move.events (Move.joinTruth onFalse done))) :
    I.Runs c pos (pos + 3) (fun stack => pure (I.truth true :: stack)) ∧
      ∃ q, c.labelPosition? ⟨onFalse⟩ = some q ∧
        I.Runs c q (pos + 3) (fun stack => pure (I.truth false :: stack)) := by
  obtain ⟨hone, hgoto, hfalse, hzero, hdone, -⟩ := hholds
  -- the path reached jumps over the two events of the other one
  refine ⟨?_, pos + 2, hfalse, .exec hzero rfl⟩
  exact Runs.append (.exec hone rfl) (.goto hgoto hdone .nil)

lemma performs_truth (first : Nat) (condition : Condition) :
    I.Performs (Move.events (Move.truth first condition)) fun stack =>
      I.holds condition stack >>= fun r => pure (I.truth (!r.1) :: r.2) := by
  intro c pos hholds
  obtain ⟨hbranch, hjoin⟩ := hholds
  obtain ⟨htrue, q, hq, hfalse⟩ := runs_joinTruth hjoin
  refine (Runs.branch hbranch hq hfalse htrue).congr fun stack => ?_
  refine bind_congr fun r => ?_
  cases r.1 <;> rfl

/-- A disjunction after its left side. -/
lemma performs_disjunction {items : List Event} {f : List V → EStateM E W (List V)}
    {onTrue onFalse : Nat} (h : I.Performs items f) :
    I.Performs (.emitted (.branch (.zero .ne) ⟨onTrue⟩) :: (items ++
      (.emitted (.branch (.zero .eq) ⟨onFalse⟩) :: .placed ⟨onTrue⟩ ::
        Move.events (Move.joinTruth onFalse (onFalse + 1))))) fun stack =>
      I.holds (.zero .ne) stack >>= fun r =>
        if r.1 then pure (I.truth true :: r.2)
        else f r.2 >>= fun stack' => I.holds (.zero .eq) stack' >>= fun r' =>
          pure (I.truth (!r'.1) :: r'.2) := by
  intro c pos hholds
  obtain ⟨hbranch, hholds⟩ := hholds
  obtain ⟨hitems, hbranch', honTrue, hjoin⟩ := Code.holds_append.mp hholds
  obtain ⟨htrue, q, hq, hfalse⟩ := runs_joinTruth hjoin
  -- the path for the true outcome goes on behind the second branch
  have hright := (h c _ hitems).append (.branch hbranch' hq hfalse htrue)
  have hall := Runs.branch hbranch honTrue htrue hright
  refine (hall.cast ?_).congr fun stack => bind_congr fun r => ?_
  · simp only [Event.extent_append, extent, Move.joinTruth, Move.events_emit,
      Move.events_create, Move.events_goto, Move.events_place, Move.events_nil]
    omega
  · refine ite_congr rfl (fun _ => rfl) fun _ => bind_congr fun stack' => bind_congr fun r' => ?_
    cases r'.1 <;> rfl

/-- The two arms of a conditional after its test. -/
lemma performs_conditional {items items' : List Event} {f g : List V → EStateM E W (List V)}
    {otherwise done : Nat} (h : I.Performs items f) (h' : I.Performs items' g) :
    I.Performs (.emitted (.branch (.zero .eq) ⟨otherwise⟩) :: (items ++
      (.emitted (.goto ⟨done⟩) :: .placed ⟨otherwise⟩ :: (items' ++ [.placed ⟨done⟩]))))
      fun stack => I.holds (.zero .eq) stack >>= fun r => if r.1 then g r.2 else f r.2 := by
  intro c pos hholds
  obtain ⟨hbranch, hholds⟩ := hholds
  obtain ⟨hitems, hgoto, hotherwise, hholds⟩ := Code.holds_append.mp hholds
  obtain ⟨hitems', hdone, -⟩ := Code.holds_append.mp hholds
  have hleft := (h c _ hitems).append (.goto hgoto hdone .nil)
  have hall := Runs.branch hbranch hotherwise (h' c _ hitems') hleft
  refine (hall.cast ?_).congr fun stack => ?_
  · simp only [Event.extent_append, extent]
    omega
  · simp only [bind_pure]

/-- The comparison of the two topmost values. -/
def decided (I : Interpretation V W E) (comparison : Selection.Comparison) (stack : List V) :
    EStateM E W (List V) := do
  let stack' ← match comparison.reduce with
    | some comparator => I.exec (.compare comparator) stack
    | none => pure stack
  let r ← I.holds comparison.jumpIfFalse stack'
  pure (I.truth (!r.1) :: r.2)

lemma performs_decideBy (first : Nat) (comparison : Selection.Comparison) :
    I.Performs (Move.events (Move.decideBy first comparison)) (I.decided comparison) := by
  have htruth := performs_truth (I := I) first comparison.jumpIfFalse
  unfold Move.decideBy decided
  cases comparison.reduce with
  | none => exact htruth
  | some comparator => exact .cons _ rfl htruth

/-- The branch for equality is taken if the values differ. -/
lemma decided_equality {type : Ty} {comparison : Selection.Comparison}
    (h : Selection.equality type = .ok comparison) (a b : V) (stack : List V) :
    I.decided comparison (b :: a :: stack)
      = I.equal a b type.category >>= fun r => pure (I.truth r :: stack) := by
  -- values that cannot be compared are not equal
  have hordering : ∀ o : Option Ordering,
      (!Relation.decide .ne (Comparator.outcome o) 0) = (o == some .eq) := by
    rintro (_ | _ | _ | _) <;> decide
  rcases Selection.equality_eq_ok.mp h with ⟨htype, rfl⟩ | ⟨htype, rfl⟩ | ⟨htype, rfl⟩ |
    ⟨htype, rfl⟩ | ⟨htype, rfl⟩
  · simp [decided, htype, holds, equal, Relation.decide, bne]
  · simp [decided, htype, holds, equal]
  all_goals simp [decided, htype, holds, equal, exec, hordering]

/-- The branch for the ordering is taken if the left value does not exceed the right
one. -/
lemma decided_ordering {type : Ty} {comparison : Selection.Comparison}
    (h : Selection.ordering type = .ok comparison) (a b : V) (stack : List V) :
    I.decided comparison (b :: a :: stack)
      = I.exceeds a b type.numeric? >>= fun r => pure (I.truth r :: stack) := by
  have hordering : ∀ o : Option Ordering,
      (!Relation.decide .le (Comparator.outcome o) 0) = (o == some .gt) := by
    rintro (_ | _ | _ | _) <;> decide
  rcases Selection.ordering_eq_ok.mp h with ⟨htype, rfl⟩ | ⟨htype, rfl⟩ | ⟨htype, rfl⟩ |
    ⟨htype, rfl⟩
  · have hlt : ∀ m n : Int32, (!Relation.decide .le m n) = decide (m > n) := by
      intro m n
      rw [Relation.decide, ← decide_not, decide_eq_decide]
      exact Int32.not_le
    simp [decided, Ty.numeric?, htype, Category.numeric, holds, exceeds, hlt]
  all_goals simp [decided, Ty.numeric?, htype, Category.numeric, holds, exceeds, exec, hordering]

end Control

/-! ### Single nodes -/

section Nodes

variable {I}

/-- All forms of an integer push that integer. -/
lemma exec_of_pushedInt? {i : Instruction} {n : Int32} (h : i.pushedInt? = some n)
    (stack : List V) : I.exec i stack = pure (I.int n :: stack) := by
  cases i with
  | iconst value =>
      cases h
      rfl
  | bipush value =>
      cases h
      rfl
  | sipush value =>
      cases h
      rfl
  | ldc constant =>
      cases constant with
      | int value =>
          cases h
          rfl
      | _ => cases h
  | _ => cases h

lemma exec_pushInt (compact : Bool) (n : Int32) (stack : List V) :
    I.exec (.pushInt compact n) stack = pure (I.int n :: stack) :=
  exec_of_pushedInt? (Instruction.pushedInt?_pushInt compact n) stack

lemma exec_push (config : Config) (value : Literal) (stack : List V) :
    I.exec (value.push config) stack
      = I.literal config.naming value >>= fun v => pure (v :: stack) := by
  cases value with
  | bool value => cases value <;> rfl
  | byte value => simp [Literal.push, literal, exec_pushInt]
  | short value => simp [Literal.push, literal, exec_pushInt]
  | char value => simp [Literal.push, literal, exec_pushInt]
  | int value => simp [Literal.push, literal, exec_pushInt]
  | classOf type =>
      rw [Literal.push, Literal.pushClass, literal]
      cases type.primitive? <;> rfl
  | null => simp [Literal.push, literal, exec]
  | _ => rfl

/-- A call takes its operands from the top of the stack, where the last one is. -/
lemma exec_invoke {call : Call} {operands : List V}
    (h : operands.length = call.arguments + call.dispatch.hasReceiver.toNat) (stack : List V) :
    I.exec (.invoke call) (operands.reverse ++ stack)
      = I.invoke call operands >>= fun r => pure (r.toList ++ stack) := by
  have hlength : operands.reverse.length = call.arguments + call.dispatch.hasReceiver.toNat := by
    rw [List.length_reverse, h]
  have hle : call.arguments + call.dispatch.hasReceiver.toNat
      ≤ (operands.reverse ++ stack).length := by
    rw [List.length_append, hlength]
    exact Nat.le_add_right _ _
  rw [exec, if_pos hle, ← hlength, List.take_left, List.drop_left, List.reverse_reverse]

end Nodes

end Interpretation

end StackLowering
