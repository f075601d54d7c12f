import Mathlib.Tactic.Lemma
import StackLowering.Code.Basic

/-!
The stack machine.

* `Interpretation`: what the primitive operations do to a world, whether they fail,
  and which values they give.
* `Interpretation.exec`, `Interpretation.holds`: one instruction that does not jump,
  and the condition of a branch, on a stack of values.
* `Interpretation.step`, `Interpretation.steps`: the machine on code.
* `Interpretation.Executes`: what the machine comes to.
* `Interpretation.Runs`: the machine gets from one position to another and does to
  the stack and the world what a computation does.
-/

namespace StackLowering

/-- The primitive operations over values `V`, worlds `W` and errors `E`.  Each may
change the world and may fail. -/
structure Interpretation (V W E : Type) where
  /-- The value that stands for an integer. -/
  int : Int32 → V
  /-- The integer that a value stands for. -/
  int? : V → Option Int32
  int?_int : ∀ n, int? (int n) = some n
  null : V
  /-- The error of an operation that lacks a value. -/
  stuck : E
  /-- A local variable. -/
  load : Category → UInt16 → EStateM E W V
  /-- A constant of the pool that is not an integer. -/
  constant : Constant → EStateM E W V
  getField : FieldAccess → V → EStateM E W V
  getStatic : FieldAccess → EStateM E W V
  new : String → EStateM E W V
  checkCast : String → V → EStateM E W V
  /-- A call with its operands: the receiver, if it has one, and the arguments. -/
  invoke : Call → List V → EStateM E W (Option V)
  /-- A call gives a value if the method returns one. -/
  isSome_invoke : ∀ call operands w r w',
    (invoke call operands).run w = .ok r w' → r.isSome = call.returnsValue
  arithmetic : ArithmeticOp → Numeric → V → V → EStateM E W V
  /-- How two numbers stand to each other; `none` if one of them is a NaN. -/
  compare : Comparator → V → V → EStateM E W (Option Ordering)
  /-- Whether two references are the same. -/
  same : V → V → EStateM E W Bool
  convert : Numeric → Numeric → V → EStateM E W V
  newArray : ArrayKind → Int32 → EStateM E W V
  newRefArray : String → Int32 → EStateM E W V
  /-- A store of a value at an index of an array. -/
  store : ArrayKind → V → Int32 → V → EStateM E W Unit

/-- The result of a comparison with three outcomes.  With a NaN it is -1. -/
def Comparator.outcome : Option Ordering → Int32
  | some .lt | none => -1
  | some .eq => 0
  | some .gt => 1

/-- Whether two integers stand in a relation. -/
def Relation.decide : Relation → Int32 → Int32 → Bool
  | eq, m, n => m == n
  | ne, m, n => m != n
  | lt, m, n => m < n
  | ge, m, n => n ≤ m
  | gt, m, n => n < m
  | le, m, n => m ≤ n

/-- A machine between two instructions: the position of the next one and the values
on the stack, the topmost first. -/
structure Frame (V : Type) where
  pos : Nat
  stack : List V

namespace Interpretation

variable {V W E : Type} (I : Interpretation V W E)

/-! ### Single instructions -/

/-- The integer that a value has to stand for. -/
def toInt (v : V) : EStateM E W Int32 :=
  match I.int? v with
  | some n => pure n
  | none => throw I.stuck

@[simp] lemma toInt_int (n : Int32) : I.toInt (I.int n) = pure n := by
  rw [toInt, I.int?_int]

/-- The topmost value and the stack below it. -/
def uncons : List V → EStateM E W (V × List V)
  | v :: stack => pure (v, stack)
  | [] => throw I.stuck

@[simp] lemma uncons_cons (v : V) (stack : List V) :
    (I.uncons (v :: stack) : EStateM E W (V × List V)) = pure (v, stack) := rfl

/-- An instruction that does not jump, on a stack. -/
def exec (i : Instruction) (stack : List V) : EStateM E W (List V) :=
  match i with
  | .pushNull => pure (I.null :: stack)
  | .iconst value => pure (I.int (.ofNat value.toNat) :: stack)
  | .bipush value => pure (I.int value.toInt32 :: stack)
  | .sipush value => pure (I.int value.toInt32 :: stack)
  | .ldc (.int value) => pure (I.int value :: stack)
  | .ldc constant => return (← I.constant constant) :: stack
  | .load category slot => return (← I.load category slot) :: stack
  | .getField access => do
      let (v, stack) ← I.uncons stack
      return (← I.getField access v) :: stack
  | .getStatic access => return (← I.getStatic access) :: stack
  | .new type => return (← I.new type) :: stack
  | .dup => do
      let (v, stack) ← I.uncons stack
      return v :: v :: stack
  | .pop => return (← I.uncons stack).2
  | .checkCast type => do
      let (v, stack) ← I.uncons stack
      return (← I.checkCast type v) :: stack
  | .invoke call => do
      let count := call.arguments + call.dispatch.hasReceiver.toNat
      if count ≤ stack.length then
        return (← I.invoke call (stack.take count).reverse).toList ++ stack.drop count
      else
        throw I.stuck
  | .arithmetic op kind => do
      let (b, stack) ← I.uncons stack
      let (a, stack) ← I.uncons stack
      return (← I.arithmetic op kind a b) :: stack
  | .compare comparator => do
      let (b, stack) ← I.uncons stack
      let (a, stack) ← I.uncons stack
      return I.int (Comparator.outcome (← I.compare comparator a b)) :: stack
  | .convert source target => do
      let (v, stack) ← I.uncons stack
      return (← I.convert source target v) :: stack
  | .newArray kind => do
      let (v, stack) ← I.uncons stack
      return (← I.newArray kind (← I.toInt v)) :: stack
  | .newRefArray type => do
      let (v, stack) ← I.uncons stack
      return (← I.newRefArray type (← I.toInt v)) :: stack
  | .arrayStore kind => do
      let (v, stack) ← I.uncons stack
      let (index, stack) ← I.uncons stack
      let (array, stack) ← I.uncons stack
      I.store kind array (← I.toInt index) v
      return stack
  | .goto _ | .branch .. => throw I.stuck

/-- Whether the condition of a branch holds, with the stack below its operands. -/
def holds (condition : Condition) (stack : List V) : EStateM E W (Bool × List V) := do
  let (b, stack) ← I.uncons stack
  match condition with
  | .zero relation => return (relation.decide (← I.toInt b) 0, stack)
  | .null => return (← I.same b I.null, stack)
  | .nonNull => return (!(← I.same b I.null), stack)
  | .ints relation => do
      let (a, stack) ← I.uncons stack
      return (relation.decide (← I.toInt a) (← I.toInt b), stack)
  | .same => do
      let (a, stack) ← I.uncons stack
      return (← I.same a b, stack)
  | .distinct => do
      let (a, stack) ← I.uncons stack
      return (!(← I.same a b), stack)

/-! ### The machine -/

/-- Continues at a label. -/
def jump (c : Code) (label : Label) (stack : List V) : EStateM E W (Frame V) :=
  match c.labelPosition? label with
  | some pos => pure ⟨pos, stack⟩
  | none => throw I.stuck

/-- One step of the machine. -/
def step (c : Code) (frame : Frame V) : EStateM E W (Frame V) :=
  match c.instructions[frame.pos]? with
  | none => throw I.stuck
  | some (.goto target) => I.jump c target frame.stack
  | some (.branch condition target) => do
      let (taken, stack) ← I.holds condition frame.stack
      if taken then I.jump c target stack else pure ⟨frame.pos + 1, stack⟩
  | some i => return ⟨frame.pos + 1, ← I.exec i frame.stack⟩

/-- An instruction that does not jump is executed, and control goes on. -/
lemma step_of_exec {c : Code} {frame : Frame V} {i : Instruction}
    (hi : c.instructions[frame.pos]? = some i) (htarget : i.target? = none) :
    I.step c frame = (I.exec i frame.stack >>= fun stack => pure ⟨frame.pos + 1, stack⟩) := by
  rw [step, hi]
  cases i with
  | goto target => cases htarget
  | branch condition target => cases htarget
  | _ => rfl

/-- A number of steps. -/
def steps (c : Code) : Nat → Frame V → EStateM E W (Frame V)
  | 0, frame => pure frame
  | n + 1, frame => do
      steps c n (← I.step c frame)

/-- After some steps the machine has come to a frame, or it has failed. -/
def Executes (c : Code) (frame : Frame V) (w : W) (r : EStateM.Result E W (Frame V)) : Prop :=
  ∃ n, (I.steps c n frame).run w = r

namespace Executes

variable {I} {c : Code} {frame frame' : Frame V} {w w' : W} {r : EStateM.Result E W (Frame V)}

lemma done : I.Executes c frame w (.ok frame w) :=
  ⟨0, rfl⟩

lemma next (h : (I.step c frame).run w = .ok frame' w') (h' : I.Executes c frame' w' r) :
    I.Executes c frame w r := by
  obtain ⟨n, hn⟩ := h'
  refine ⟨n + 1, ?_⟩
  rw [steps, EStateM.run_bind, h]
  exact hn

lemma fail {error : E} (h : (I.step c frame).run w = .error error w') :
    I.Executes c frame w (.error error w') := by
  refine ⟨1, ?_⟩
  rw [steps, EStateM.run_bind, h]

lemma trans (h : I.Executes c frame w (.ok frame' w')) (h' : I.Executes c frame' w' r) :
    I.Executes c frame w r := by
  obtain ⟨n, hn⟩ := h
  induction n generalizing frame w with
  | zero =>
      cases hn
      exact h'
  | succ n ih =>
      rw [steps, EStateM.run_bind] at hn
      cases hstep : (I.step c frame).run w with
      | ok frame₁ w₁ =>
          rw [hstep] at hn
          exact .next hstep (ih hn)
      | error e w₁ =>
          rw [hstep] at hn
          cases hn

end Executes

/-! ### Runs between two positions -/

/-- From every stack and world, the machine gets from `pos` to `pos'` as the
computation `f` on the stack does: with its stack and world, or failing as it
fails. -/
def Runs (c : Code) (pos pos' : Nat) (f : List V → EStateM E W (List V)) : Prop :=
  ∀ stack w, I.Executes c ⟨pos, stack⟩ w
    (match (f stack).run w with
    | .ok stack' w' => .ok ⟨pos', stack'⟩ w'
    | .error error w' => .error error w')

namespace Runs

variable {I} {c : Code} {pos pos₁ pos₂ : Nat} {f g : List V → EStateM E W (List V)}

lemma congr (h : I.Runs c pos pos₁ f) (heq : ∀ stack, f stack = g stack) :
    I.Runs c pos pos₁ g := by
  obtain rfl : f = g := funext heq
  exact h

lemma cast (h : I.Runs c pos pos₁ f) (heq : pos₁ = pos₂) : I.Runs c pos pos₂ f :=
  heq ▸ h

lemma nil : I.Runs c pos pos pure :=
  fun _ _ => .done

/-- Runs follow each other as computations do. -/
lemma append (h : I.Runs c pos pos₁ f) (h' : I.Runs c pos₁ pos₂ g) :
    I.Runs c pos pos₂ fun stack => f stack >>= g := by
  intro stack w
  have hf := h stack w
  rw [EStateM.run_bind]
  cases hrun : (f stack).run w with
  | ok stack₁ w₁ =>
      rw [hrun] at hf
      exact hf.trans (h' stack₁ w₁)
  | error error w₁ =>
      rw [hrun] at hf
      exact hf

/-- One instruction. -/
lemma exec {i : Instruction} (hi : c.instructions[pos]? = some i) (htarget : i.target? = none) :
    I.Runs c pos (pos + 1) (I.exec i) := by
  intro stack w
  have hstep : I.step c ⟨pos, stack⟩ = _ := I.step_of_exec hi htarget
  cases hrun : (I.exec i stack).run w with
  | ok stack' w' =>
      refine .next ?_ .done
      rw [hstep, EStateM.run_bind, hrun]
      rfl
  | error error w' =>
      refine .fail ?_
      rw [hstep, EStateM.run_bind, hrun]

lemma goto {target : Label} (hi : c.instructions[pos]? = some (.goto target))
    (htarget : c.labelPosition? target = some pos₁) (h : I.Runs c pos₁ pos₂ f) :
    I.Runs c pos pos₂ f := by
  intro stack w
  refine .next ?_ (h stack w)
  rw [step, hi]
  dsimp only
  rw [jump, htarget]
  rfl

/-- A branch with the runs for its two outcomes. -/
lemma branch {condition : Condition} {target : Label}
    (hi : c.instructions[pos]? = some (.branch condition target))
    (htarget : c.labelPosition? target = some pos₁) (htaken : I.Runs c pos₁ pos₂ f)
    (hnot : I.Runs c (pos + 1) pos₂ g) :
    I.Runs c pos pos₂ fun stack =>
      I.holds condition stack >>= fun r => if r.1 then f r.2 else g r.2 := by
  intro stack w
  have hstep : I.step c ⟨pos, stack⟩ = I.holds condition stack >>= fun r =>
      if r.1 then I.jump c target r.2 else pure ⟨pos + 1, r.2⟩ := by
    rw [step, hi]
  rw [EStateM.run_bind]
  cases hrun : (I.holds condition stack).run w with
  | error error w' =>
      refine .fail ?_
      rw [hstep, EStateM.run_bind, hrun]
  | ok r w' =>
      obtain ⟨taken, stack'⟩ := r
      cases taken with
      | true =>
          refine .next ?_ (htaken stack' w')
          rw [hstep, EStateM.run_bind, hrun]
          dsimp only
          rw [if_pos rfl, jump, htarget]
          rfl
      | false =>
          refine .next ?_ (hnot stack' w')
          rw [hstep, EStateM.run_bind, hrun]
          rfl

end Runs

end Interpretation

end StackLowering
