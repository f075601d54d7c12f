import Mathlib.Tactic.Set
import StackLowering.Proofs.Choice
import StackLowering.Proofs.Literals
import StackLowering.Proofs.Runs

/-!
The balance of the stack.

* `Expr.surplus`: how many values a tree leaves beyond the one it stands for.
  Only a constructor that returns a value leaves one.
* `Advance`: what lowering does to the labels and the depth of a session.
* `Expr.moves_lead`: the moves of every tree are safe, and what they come to.
-/

namespace StackLowering

namespace Expr

mutual

/-- The number of values that lowering a tree leaves on the stack beyond
`Expr.stackEffect`: one for each constructor that returns a value.  The arms of a
conditional have to agree, so one of them counts. -/
def surplus : Expr → Nat
  | literal _ | load _ | receiver | getStatic _ => 0
  | getField operand _ | not operand | widen operand _ _ | cast _ operand | pop operand =>
      operand.surplus
  | or lhs rhs | eq lhs rhs _ | gt lhs rhs _ | arithmetic _ lhs rhs _ => lhs.surplus + rhs.surplus
  | conditional test onTrue _ => test.surplus + onTrue.surplus
  | newInstance constructor arguments => constructor.returnsValue.toNat + surpluses arguments
  | invokeStatic _ arguments => surpluses arguments
  | invoke target _ arguments => target.surplus + surpluses arguments
  | newArray _ elements => surpluses elements

/-- The surplus of a list of trees. -/
def surpluses : List Expr → Nat
  | [] => 0
  | e :: es => e.surplus + surpluses es

end

lemma surpluses_eq_zero {es : List Expr} (h : ∀ e ∈ es, e.surplus = 0) : surpluses es = 0 := by
  induction es with
  | nil => rfl
  | cons e es ih =>
      have hhead := h e List.mem_cons_self
      have htail := ih fun e' he' => h e' (List.mem_cons_of_mem _ he')
      simp only [surpluses]
      omega

/-- Without constructors that return values there is no surplus. -/
lemma surplus_eq_zero (e : Expr) : e.VoidConstructors → e.surplus = 0 := by
  induction e using Expr.induct with
  | literal value => simp [surplus]
  | load source => simp [surplus]
  | receiver => simp [surplus]
  | getStatic field => simp [surplus]
  | getField target field ih => exact fun h => ih (h.child (by simp [children]))
  | newInstance constructor arguments ih =>
      intro h
      have hargs := surpluses_eq_zero fun e he => ih e he (h.child he)
      simp [surplus, hargs, Method.returnsValue, h.isVoid]
  | invoke target method arguments ih ihs =>
      intro h
      have htarget := ih (h.child (by simp [children]))
      have hargs := surpluses_eq_zero fun e he => ihs e he (h.child (by simp [children, he]))
      simp [surplus, htarget, hargs]
  | invokeStatic method arguments ih =>
      intro h
      have hargs := surpluses_eq_zero fun e he => ih e he (h.child he)
      simp [surplus, hargs]
  | not operand ih => exact fun h => ih (h.child (by simp [children]))
  | or lhs rhs ihl ihr =>
      intro h
      have hl := ihl (h.child (by simp [children]))
      have hr := ihr (h.child (by simp [children]))
      simp [surplus, hl, hr]
  | conditional test onTrue onFalse iht ihl ihr =>
      intro h
      have ht := iht (h.child (by simp [children]))
      have hl := ihl (h.child (by simp [children]))
      simp [surplus, ht, hl]
  | eq lhs rhs type ihl ihr =>
      intro h
      have hl := ihl (h.child (by simp [children]))
      have hr := ihr (h.child (by simp [children]))
      simp [surplus, hl, hr]
  | gt lhs rhs type ihl ihr =>
      intro h
      have hl := ihl (h.child (by simp [children]))
      have hr := ihr (h.child (by simp [children]))
      simp [surplus, hl, hr]
  | arithmetic op lhs rhs type ihl ihr =>
      intro h
      have hl := ihl (h.child (by simp [children]))
      have hr := ihr (h.child (by simp [children]))
      simp [surplus, hl, hr]
  | widen operand source target ih => exact fun h => ih (h.child (by simp [children]))
  | cast target operand ih => exact fun h => ih (h.child (by simp [children]))
  | newArray element elements ih =>
      intro h
      have helems := surpluses_eq_zero fun e he => ih e he (h.child he)
      simp [surplus, helems]
  | pop operand ih => exact fun h => ih (h.child (by simp [children]))

end Expr

/-! ### What lowering does to a session -/

section Advance

variable {σ : Type}

/-- Lowering has come from `s` to `s'`: control is at its end, the stack holds
`rise` values more, and there are `count` labels more, with the labels of before
as they were. -/
structure Advance (rise count : Nat) (s s' : Session σ) : Prop where
  live : s'.reachable = true
  depth : s'.depth = s.depth + rise
  size : s'.labels.size = s.labels.size + count
  keeps : ∀ label : Label, label.id < s.labels.size → s'.state? label = s.state? label

/-- A run has stopped where control was, and if `V` holds not because of labels
or of the depth of the stack. -/
def Halts (V : Prop) (fault : Fault) (s : Session σ) : Prop :=
  s.reachable = true ∧ (V → fault.isDefect = false)

namespace Advance

variable {rise rise' count count' : Nat} {s s₁ s₂ : Session σ}

lemma refl (hs : s.reachable = true) : Advance 0 0 s s :=
  ⟨hs, rfl, rfl, fun _ _ => rfl⟩

lemma trans (h : Advance rise count s s₁) (h' : Advance rise' count' s₁ s₂) :
    Advance (rise + rise') (count + count') s s₂ := by
  refine ⟨h'.live, ?_, ?_, fun label hlabel => ?_⟩
  · rw [h'.depth, h.depth, Nat.add_assoc]
  · rw [h'.size, h.size, Nat.add_assoc]
  · have hlt : label.id < s₁.labels.size := by
      rw [h.size]
      omega
    rw [h'.keeps label hlt, h.keeps label hlabel]

/-- The effect of an instruction that takes `pops` values and leaves `pushes`. -/
lemma emitted [Sink σ] (h : Advance rise count s s₁) {i : Instruction} {pops pushes : Nat}
    (heffect : i.effect = ⟨pops, pushes⟩) (hpops : pops ≤ rise)
    (hrise : rise + pushes = rise' + pops) : Advance rise' count s (s₁.emitted i) := by
  refine ⟨h.live, ?_, h.size, h.keeps⟩
  rw [Session.depth_emitted, heffect, h.depth]
  change s.depth + rise - pops + pushes = s.depth + rise'
  omega

end Advance

lemma Halts.mono {V V' : Prop} (h : V' → V) {fault : Fault} {s : Session σ}
    (hs : Halts V fault s) : Halts V' fault s :=
  ⟨hs.1, fun hV => hs.2 (h hV)⟩

end Advance

/-! ### Constructs with labels -/

section Control

variable {σ : Type} [Sink σ] {floor : Nat} {V : Prop} {Q : Session σ → Prop} {s : Session σ}

/-- A choice is made without touching the session. -/
lemma Leads.choose {α : Type} {choice : Except Fault α} {next : α → List Move}
    (hs : s.reachable = true) (hord : Selection.Ordinary choice)
    (h : ∀ a, choice = .ok a → Leads (Safe floor) Q (Halts V) (next a) s) :
    Leads (Safe floor) Q (Halts V) (Move.guarded choice next) s :=
  .guarded (fun fault hfault => ⟨hs, fun _ => hord fault hfault⟩) h

/-- An instruction inside a construct that has begun in `s₀`, from which it takes
no value. -/
lemma Leads.advance (rise' : Nat) {s₀ : Session σ} {rise count pops pushes : Nat}
    {i : Instruction} {ms : List Move} (h : Advance rise count s₀ s) (hfloor : floor ≤ s₀.depth)
    (htarget : i.target? = none) (heffect : i.effect = ⟨pops, pushes⟩) (hpops : pops ≤ rise)
    (hrise : rise + pushes = rise' + pops)
    (hnext : Advance rise' count s₀ (s.emitted i) →
      Leads (Safe floor) Q (Halts V) ms (s.emitted i)) :
    Leads (Safe floor) Q (Halts V) (.emit i :: ms) s := by
  have hdepth := h.depth
  refine .emit h.live htarget ?_ (hnext (h.emitted heffect hpops hrise))
  rw [heffect]
  change floor + pops ≤ s.depth
  omega

/-- A branch to a new label, for which the depth after the branch is recorded. -/
lemma Leads.branchNew (rise' : Nat) {s₀ : Session σ} {rise count : Nat} {condition : Condition}
    {ms : List Move} (h : Advance rise count s₀ s) (hfloor : floor ≤ s₀.depth)
    (hrise : rise = rise' + condition.operands)
    (hnext : ∀ s₁, Advance rise' (count + 1) s₀ s₁ →
      s₁.state? ⟨s₀.labels.size + count⟩ = some (.pending (some s₁.depth)) →
      (∀ label : Label, label.id < s₀.labels.size + count → s₁.state? label = s.state? label) →
      Leads (Safe floor) Q (Halts V) ms s₁) :
    Leads (Safe floor) Q (Halts V)
      (.create :: .branch condition ⟨s₀.labels.size + count⟩ :: ms) s := by
  have hdepth := h.depth
  rw [← h.size] at hnext ⊢
  refine .create ⟨h.live, fun _ => rfl⟩ ?_
  refine .branch h.live (by simp; omega) (Session.state?_created_new s) ?_
  set s₁ := (s.created.emitted (.branch condition ⟨s.labels.size⟩)).recorded ⟨s.labels.size⟩
    with hs₁
  have hkeep : ∀ label : Label, label.id < s.labels.size → s₁.state? label = s.state? label := by
    intro label hlabel
    rw [hs₁, Session.state?_recorded _ (by simp; omega), Session.state?_emitted,
      Session.state?_created _ hlabel]
  refine hnext s₁ ⟨h.live, ?_, ?_, fun label hlabel => ?_⟩
    (Session.state?_recorded_self _ (by simp)) hkeep
  · simp [hs₁, Instruction.effect]
    omega
  · simp [hs₁, h.size, Nat.add_assoc]
  · rw [hkeep label (by rw [h.size]; omega), h.keeps label hlabel]

/-- A jump to a new label, after which control does not go on. -/
lemma Leads.gotoNew {ms : List Move} (hs : s.reachable = true) (hfloor : floor ≤ s.depth)
    (hnext : ∀ s₁ : Session σ, s₁.reachable = false → s₁.labels.size = s.labels.size + 1 →
      s₁.state? ⟨s.labels.size⟩ = some (.pending (some s.depth)) →
      (∀ label : Label, label.id < s.labels.size → s₁.state? label = s.state? label) →
      Leads (Safe floor) Q (Halts V) ms s₁) :
    Leads (Safe floor) Q (Halts V) (.create :: .goto ⟨s.labels.size⟩ :: ms) s := by
  refine .create ⟨hs, fun _ => rfl⟩ ?_
  refine .goto hs hfloor (Session.state?_created_new s) ?_
  set s₁ := ((s.created.emitted (.goto ⟨s.labels.size⟩)).recorded ⟨s.labels.size⟩).halted with hs₁
  refine hnext s₁ rfl (by simp [hs₁]) ?_ fun label hlabel => ?_
  · rw [hs₁, Session.state?_halted, Session.state?_recorded_self _ (by simp)]
    simp [Instruction.effect]
  · rw [hs₁, Session.state?_halted, Session.state?_recorded _ (by simp; omega),
      Session.state?_emitted, Session.state?_created _ hlabel]

/-- Both paths to the end of a construct leave one value: the one at hand, and
the one that comes from the jump to `onFalse`. -/
lemma Leads.joinTruth {onFalse : Nat} (hs : s.reachable = true) (hfloor : floor ≤ s.depth)
    (hlt : onFalse < s.labels.size)
    (hstate : s.state? ⟨onFalse⟩ = some (.pending (some s.depth))) :
    Leads (Safe floor)
      (fun s' => s'.reachable = true ∧ s'.depth = s.depth + 1 ∧
        s'.labels.size = s.labels.size + 1 ∧
        ∀ label : Label, label.id < s.labels.size → label.id ≠ onFalse →
          s'.state? label = s.state? label)
      (Halts V) (Move.joinTruth onFalse s.labels.size) s := by
  refine .emit hs rfl hfloor ?_
  refine .gotoNew (s := s.emitted (.iconst 1)) hs (by simp [Instruction.effect]; omega)
    fun s₁ hhalted hsize hdone hkeep => ?_
  -- from here on the path is the other one, with the depth of the jump to `onFalse`
  refine .place_of_halted hhalted hfloor ((hkeep ⟨onFalse⟩ hlt).trans hstate) ?_
  refine .emit rfl rfl hfloor ?_
  set s₂ := (s₁.settled ⟨onFalse⟩ s.depth).emitted (.iconst 0) with hs₂
  have hkeep' : ∀ label : Label, label.id ≠ onFalse → s₂.state? label = s₁.state? label :=
    fun label hlabel => Session.state?_settled _ _ hlabel
  have hdone' : s₂.state? ⟨s.labels.size⟩ = some (.pending (some (s.depth + 1))) := by
    rw [hkeep' ⟨s.labels.size⟩ (Nat.ne_of_gt hlt)]
    exact hdone
  -- the two paths meet, both with one value more
  refine .place rfl (by omega) hdone' (fun hne => absurd rfl hne) fun _ => ?_
  refine ⟨rfl, rfl, by simp [hs₂, hsize], fun label hlabel hne => ?_⟩
  rw [Session.state?_settled _ _ (by simp; omega), hkeep' label hne, hkeep label hlabel]
  rfl

/-- A branch on the topmost values becomes one value. -/
lemma Leads.truth {s₀ : Session σ} {rise rise' count : Nat} (h : Advance rise count s₀ s)
    (hfloor : floor ≤ s₀.depth) {condition : Condition}
    (hrise : rise = rise' + condition.operands) :
    Leads (Safe floor) (Advance (rise' + 1) (count + 2) s₀) (Halts V)
      (Move.truth (s₀.labels.size + count) condition) s := by
  refine .branchNew rise' h hfloor hrise fun s₁ h₁ hstate hkeep => ?_
  have hdepth := h₁.depth
  have hsize := h₁.size
  rw [Nat.add_assoc, ← hsize]
  refine (Leads.joinTruth h₁.live (by omega) (by omega) hstate).imp ?_
  rintro s' ⟨hlive', hdepth', hsize', hkeep'⟩
  refine ⟨hlive', by omega, by omega, fun label hlabel => ?_⟩
  rw [hkeep' label (by omega) (by omega), h₁.keeps label hlabel]

/-- A comparison takes two values. -/
def Selection.Comparison.Binary (comparison : Selection.Comparison) : Prop :=
  (comparison.reduce = none ∧ comparison.jumpIfFalse.operands = 2) ∨
    (∃ comparator, comparison.reduce = some comparator) ∧ comparison.jumpIfFalse.operands = 1

lemma Selection.binary_of_equality {type : Ty} {comparison : Selection.Comparison}
    (h : equality type = .ok comparison) : comparison.Binary := by
  rcases equality_eq_ok.mp h with ⟨-, rfl⟩ | ⟨-, rfl⟩ | ⟨-, rfl⟩ | ⟨-, rfl⟩ | ⟨-, rfl⟩ <;>
    simp [Comparison.Binary, Condition.operands]

lemma Selection.binary_of_ordering {type : Ty} {comparison : Selection.Comparison}
    (h : ordering type = .ok comparison) : comparison.Binary := by
  rcases ordering_eq_ok.mp h with ⟨-, rfl⟩ | ⟨-, rfl⟩ | ⟨-, rfl⟩ | ⟨-, rfl⟩ <;>
    simp [Comparison.Binary, Condition.operands]

/-- A call takes its arguments and its receiver, if it has one. -/
lemma Selection.effect_of_callWith {naming : Naming} {method : Method} {count : Nat} {call : Call}
    (h : callWith naming method count = .ok call) : (Instruction.invoke call).effect
      = ⟨count + method.dispatch.hasReceiver.toNat, method.returnsValue.toNat⟩ := by
  obtain ⟨-, rfl⟩ := callWith_eq_ok.mp h
  rfl

/-- Arrays of primitives and of references are both allocated by their length. -/
lemma Selection.effect_of_newArray {naming : Naming} {element : Ty} {i : Instruction}
    (h : newArray naming element = .ok i) : i.target? = none ∧ i.effect = ⟨1, 1⟩ := by
  obtain ⟨kind, -, rfl⟩ := newArray_eq_ok.mp h
  split <;> exact ⟨rfl, rfl⟩

lemma Leads.decideBy {s₀ : Session σ} {rise count : Nat} (h : Advance (rise + 2) count s₀ s)
    (hfloor : floor ≤ s₀.depth) {comparison : Selection.Comparison} (hbinary : comparison.Binary) :
    Leads (Safe floor) (Advance (rise + 1) (count + 2) s₀) (Halts V)
      (Move.decideBy (s₀.labels.size + count) comparison) s := by
  have hdepth := h.depth
  rcases hbinary with ⟨hreduce, hoperands⟩ | ⟨⟨comparator, hreduce⟩, hoperands⟩
  · rw [Move.decideBy, hreduce]
    exact .truth h hfloor (by omega)
  · rw [Move.decideBy, hreduce]
    exact .advance (rise + 1) h hfloor rfl rfl (by omega) (by omega) fun h' =>
      .truth h' hfloor (by omega)

end Control

/-! ### The moves of a tree -/

section Trees

variable (σ : Type) [Sink σ] (config : Config)

/-- From every session that control has reached, the moves of a tree are safe.
They leave the values that the tree stands for and its surplus, or they stop;
without a surplus, no constructor returns a value. -/
def Expr.Sound (e : Expr) : Prop :=
  ∀ (floor : Nat) (s : Session σ), s.reachable = true → floor ≤ s.depth →
    Leads (Safe floor)
      (fun s' => Advance (e.stackEffect + e.surplus) e.labelCount s s' ∧
        (e.surplus = 0 → e.VoidConstructors))
      (Halts e.VoidConstructors) (e.moves config s.labels.size) s

variable {σ config} {floor : Nat} {V : Prop} {Q : Session σ → Prop} {s s₀ : Session σ}
  {rise count : Nat} {ns : List Move}

/-- A tree inside a construct that has begun in `s₀`. -/
lemma Expr.Sound.append {e : Expr} (he : e.Sound σ config) (h : Advance rise count s₀ s)
    (hfloor : floor ≤ s₀.depth) (hV : V → e.VoidConstructors)
    (hnext : ∀ s₁, Advance (rise + e.stackEffect + e.surplus) (count + e.labelCount) s₀ s₁ →
      (e.surplus = 0 → e.VoidConstructors) → Leads (Safe floor) Q (Halts V) ns s₁) :
    Leads (Safe floor) Q (Halts V) (e.moves config (s₀.labels.size + count) ++ ns) s := by
  have hdepth := h.depth
  rw [← h.size]
  -- inside the construct a fault is judged by the constructors of the whole of it
  have hlead := (he floor s h.live (by omega)).mono (fun _ _ hm => hm) (fun _ hQ => hQ)
    (fun fault s' hR => hR.mono hV)
  refine hlead.append fun s₁ ⟨h₁, hvoid⟩ => hnext s₁ ?_ hvoid
  rw [Nat.add_assoc]
  exact h.trans h₁

/-- A tree whose value is consumed. -/
lemma Expr.Sound.operand {e : Expr} (he : e.Sound σ config) (h : Advance rise count s₀ s)
    (hfloor : floor ≤ s₀.depth) (hV : V → e.VoidConstructors)
    (hnext : ∀ s₁, Advance (rise + 1 + e.surplus) (count + e.labelCount) s₀ s₁ →
      (e.surplus = 0 → e.VoidConstructors) → Leads (Safe floor) Q (Halts V) ns s₁) :
    Leads (Safe floor) Q (Halts V)
      (Move.consumed e (e.moves config (s₀.labels.size + count)) ++ ns) s := by
  cases hvalue : Selection.value e with
  | error fault =>
      rw [Move.consumed, hvalue]
      exact .refuse ⟨h.live, fun _ => Selection.ordinary_value e fault hvalue⟩
  | ok u =>
      have heffect : e.stackEffect = 1 := by
        rw [Expr.stackEffect, Selection.value_eq_ok.mp hvalue]
        rfl
      rw [Move.consumed, hvalue]
      refine he.append h hfloor hV fun s₁ h₁ hvoid => hnext s₁ ?_ hvoid
      rw [← heffect]
      exact h₁

/-- Two trees whose values are consumed together. -/
lemma Expr.Sound.operands {lhs rhs : Expr} (hlhs : lhs.Sound σ config) (hrhs : rhs.Sound σ config)
    (hs : s.reachable = true) (hfloor : floor ≤ s.depth) (hVl : V → lhs.VoidConstructors)
    (hVr : V → rhs.VoidConstructors)
    (hnext : ∀ s₂, Advance (lhs.surplus + rhs.surplus + 2) (lhs.labelCount + rhs.labelCount) s s₂ →
      (lhs.surplus = 0 → lhs.VoidConstructors) → (rhs.surplus = 0 → rhs.VoidConstructors) →
      Leads (Safe floor) Q (Halts V) ns s₂) :
    Leads (Safe floor) Q (Halts V)
      (Move.consumed lhs (lhs.moves config s.labels.size) ++
        (Move.consumed rhs (rhs.moves config (s.labels.size + lhs.labelCount)) ++ ns)) s := by
  refine hlhs.operand (.refl hs) hfloor hVl fun s₁ h₁ hvoidl => ?_
  simp only [Nat.zero_add] at h₁
  refine hrhs.operand h₁ hfloor hVr fun s₂ h₂ hvoidr => hnext s₂ ?_ hvoidl hvoidr
  have hrise : lhs.surplus + rhs.surplus + 2 = 1 + lhs.surplus + 1 + rhs.surplus := by omega
  rw [hrise]
  exact h₂

/-- Arguments leave one value each. -/
lemma Expr.argumentMoves_lead {arguments : List Expr} (ih : ∀ e ∈ arguments, e.Sound σ config)
    (h : Advance rise count s₀ s) (hfloor : floor ≤ s₀.depth)
    (hV : V → ∀ e ∈ arguments, e.VoidConstructors)
    (hnext : ∀ s₁, Advance (rise + arguments.length + surpluses arguments)
      (count + labelCounts arguments) s₀ s₁ →
      (surpluses arguments = 0 → ∀ e ∈ arguments, e.VoidConstructors) →
      Leads (Safe floor) Q (Halts V) ns s₁) :
    Leads (Safe floor) Q (Halts V)
      (argumentMoves config (s₀.labels.size + count) arguments ++ ns) s := by
  -- `s₀` stays fixed while the rise and the labels since then grow
  induction arguments generalizing s rise count with
  | nil =>
      simp only [argumentMoves, List.nil_append]
      exact hnext s h fun _ e he => absurd he List.not_mem_nil
  | cons e es ihes =>
      simp only [argumentMoves, List.append_assoc]
      have he := ih e List.mem_cons_self
      refine he.operand h hfloor (fun hv => hV hv e List.mem_cons_self) fun s₁ h₁ hvoid => ?_
      rw [Nat.add_assoc s₀.labels.size]
      refine ihes (fun e' he' => ih e' (List.mem_cons_of_mem _ he')) h₁
        (fun hv e' he' => hV hv e' (List.mem_cons_of_mem _ he')) fun s₂ h₂ hvoids => ?_
      refine hnext s₂ ?_ fun hzero => ?_
      · have hrise : rise + (e :: es).length + surpluses (e :: es)
            = rise + 1 + e.surplus + es.length + surpluses es := by
          simp only [List.length_cons, surpluses]
          omega
        have hcount : count + labelCounts (e :: es) = count + e.labelCount + labelCounts es := by
          simp only [labelCounts, Nat.add_assoc]
        rw [hrise, hcount]
        exact h₂
      · simp only [surpluses] at hzero
        intro e' he'
        rcases List.mem_cons.mp he' with rfl | he'
        · exact hvoid (by omega)
        · exact hvoids (by omega) e' he'

/-- Each element of an array is stored, so that only the array stays. -/
lemma Expr.elementMoves_lead {kind : ArrayKind} {elements : List Expr} {index : Nat}
    (ih : ∀ e ∈ elements, e.Sound σ config) (h : Advance rise count s₀ s)
    (hfloor : floor ≤ s₀.depth) (hrise : 1 ≤ rise)
    (hV : V → ∀ e ∈ elements, e.VoidConstructors)
    (hnext : ∀ s₁, Advance (rise + surpluses elements) (count + labelCounts elements) s₀ s₁ →
      (surpluses elements = 0 → ∀ e ∈ elements, e.VoidConstructors) → Q s₁) :
    Leads (Safe floor) Q (Halts V)
      (elementMoves config (.arrayStore kind) (s₀.labels.size + count) index elements) s := by
  induction elements generalizing s rise count index with
  | nil =>
      simp only [elementMoves]
      exact hnext s h fun _ e he => absurd he List.not_mem_nil
  | cons e es ihes =>
      simp only [elementMoves]
      refine .advance (rise + 1) h hfloor rfl rfl hrise (by omega) fun hdup => ?_
      refine .advance (rise + 2) hdup hfloor (by simp) (Instruction.effect_pushInt _ _) (by omega)
        (by omega) fun hindex => ?_
      have he := ih e List.mem_cons_self
      refine he.operand hindex hfloor (fun hv => hV hv e List.mem_cons_self)
        fun s₁ h₁ hvoid => ?_
      refine .advance (rise + e.surplus) h₁ hfloor rfl rfl (by omega) (by omega) fun hstore => ?_
      rw [Nat.add_assoc s₀.labels.size]
      refine ihes (fun e' he' => ih e' (List.mem_cons_of_mem _ he')) hstore (by omega)
        (fun hv e' he' => hV hv e' (List.mem_cons_of_mem _ he')) fun s₂ h₂ hvoids => ?_
      refine hnext s₂ ?_ fun hzero => ?_
      · simp only [surpluses, labelCounts, ← Nat.add_assoc]
        exact h₂
      · simp only [surpluses] at hzero
        intro e' he'
        rcases List.mem_cons.mp he' with rfl | he'
        · exact hvoid (by omega)
        · exact hvoids (by omega) e' he'

/-- A tree with one child, whose value one instruction replaces or discards. -/
lemma Expr.Sound.unary {e operand : Expr} {i : Instruction} (ho : operand.Sound σ config)
    (hnode : e.VoidConstructor) (hchildren : e.children = [operand]) (hs : s.reachable = true)
    (hfloor : floor ≤ s.depth) (htarget : i.target? = none)
    (heffect : i.effect = ⟨1, e.stackEffect⟩) :
    Leads (Safe floor)
      (fun s' => Advance (e.stackEffect + operand.surplus) operand.labelCount s s' ∧
        (operand.surplus = 0 → e.VoidConstructors))
      (Halts e.VoidConstructors)
      (Move.consumed operand (operand.moves config s.labels.size) ++ [.emit i]) s := by
  have hV : e.VoidConstructors → operand.VoidConstructors :=
    fun hv => hv.child (by simp [hchildren])
  refine ho.operand (.refl hs) hfloor hV fun s₁ h₁ hvoid => ?_
  simp only [Nat.zero_add] at h₁
  refine .advance (e.stackEffect + operand.surplus) h₁ hfloor htarget heffect (by omega) (by omega)
    fun h₂ => ⟨h₂, fun hzero => ?_⟩
  exact voidConstructors_of_children hnode (by simp [hchildren, hvoid hzero])

/-- A tree with two children, whose values are compared. -/
lemma Expr.Sound.comparison {e lhs rhs : Expr} {comparison : Selection.Comparison}
    (hl : lhs.Sound σ config) (hr : rhs.Sound σ config) (hnode : e.VoidConstructor)
    (hchildren : e.children = [lhs, rhs]) (hs : s.reachable = true) (hfloor : floor ≤ s.depth)
    (hbinary : comparison.Binary) :
    Leads (Safe floor)
      (fun s' => Advance (1 + (lhs.surplus + rhs.surplus)) (lhs.labelCount + rhs.labelCount + 2)
        s s' ∧ (lhs.surplus + rhs.surplus = 0 → e.VoidConstructors))
      (Halts e.VoidConstructors)
      (Move.consumed lhs (lhs.moves config s.labels.size) ++
        (Move.consumed rhs (rhs.moves config (s.labels.size + lhs.labelCount)) ++
          Move.decideBy (s.labels.size + lhs.labelCount + rhs.labelCount) comparison)) s := by
  refine hl.operands hr hs hfloor (fun hv => hv.child (by simp [hchildren]))
    (fun hv => hv.child (by simp [hchildren])) fun s₂ h₂ hvoidl hvoidr => ?_
  rw [Nat.add_assoc s.labels.size]
  refine (Leads.decideBy h₂ hfloor hbinary).imp fun s₃ h₃ => ⟨?_, fun hzero => ?_⟩
  · rw [Nat.add_comm]
    exact h₃
  · have hvl := hvoidl (by omega)
    have hvr := hvoidr (by omega)
    exact voidConstructors_of_children hnode (by simp [hchildren, hvl, hvr])

lemma Expr.Sound.disjunction {lhs rhs : Expr} (ihl : lhs.Sound σ config)
    (ihr : rhs.Sound σ config) : (or lhs rhs).Sound σ config := by
  intro floor s hs hfloor
  simp only [moves, stackEffect, hasValue, surplus, labelCount]
  have hVl : (or lhs rhs).VoidConstructors → lhs.VoidConstructors :=
    fun hv => hv.child (by simp [children])
  have hVr : (or lhs rhs).VoidConstructors → rhs.VoidConstructors :=
    fun hv => hv.child (by simp [children])
  refine ihl.operand (.refl hs) hfloor hVl fun s₁ h₁ hvoidl => ?_
  simp only [Nat.zero_add] at h₁
  refine .branchNew lhs.surplus h₁ hfloor (Nat.add_comm _ _) fun s₂ h₂ honTrue _ => ?_
  have hdepth₂ := h₂.depth
  have hsize₂ := h₂.size
  rw [Nat.add_assoc s.labels.size, ← hsize₂]
  refine ihr.operand (.refl h₂.live) (by omega) hVr fun s₃ h₃ hvoidr => ?_
  simp only [Nat.zero_add] at h₃
  refine .branchNew rhs.surplus h₃ (by omega) (Nat.add_comm _ _) fun s₄ h₄ honFalse _ => ?_
  have hdepth₄ := h₄.depth
  have hsize₄ := h₄.size
  have honTrue₄ : s₄.state? ⟨s.labels.size + lhs.labelCount⟩
      = some (.pending (some s₂.depth)) := by
    rw [h₄.keeps _ (by simp; omega), honTrue]
  refine .place h₄.live (by omega) honTrue₄ (fun hne => ⟨h₄.live, fun hv => ?_⟩) fun heq => ?_
  · -- only a surplus of the right side makes the depths differ
    have hzero := surplus_eq_zero rhs (hVr hv)
    omega
  set s₅ := s₄.settled ⟨s.labels.size + lhs.labelCount⟩ s₂.depth with hs₅
  have hsize₅ : s₅.labels.size = s₄.labels.size := Session.size_settled _ _
  have honFalse₅ : s₅.state? ⟨s₂.labels.size + rhs.labelCount⟩
      = some (.pending (some s₅.depth)) := by
    rw [hs₅, Session.state?_settled _ _ (by simp; omega), honFalse, ← heq]
    rfl
  rw [Nat.add_assoc s₂.labels.size, ← hsize₄, ← hsize₅]
  refine (Leads.joinTruth rfl (by simp [hs₅]; omega) (by omega) honFalse₅).imp ?_
  rintro s' ⟨hlive', hdepth', hsize', hkeep'⟩
  refine ⟨⟨hlive', ?_, by omega, fun label hlabel => ?_⟩, fun hzero => ?_⟩
  · rw [hdepth', hs₅, Session.depth_settled]
    simp only [Bool.toNat_true]
    omega
  · rw [hkeep' label (by omega) (by omega), hs₅, Session.state?_settled _ _ (by simp; omega),
      h₄.keeps label (by omega), h₂.keeps label hlabel]
  · have hl := hvoidl (by omega)
    have hr := hvoidr (by omega)
    exact voidConstructors_of_children trivial (by simp [children, hl, hr])

lemma Expr.Sound.conditional {test onTrue onFalse : Expr} (iht : test.Sound σ config)
    (ihl : onTrue.Sound σ config) (ihr : onFalse.Sound σ config) :
    (Expr.conditional test onTrue onFalse).Sound σ config := by
  intro floor s hs hfloor
  simp only [moves, surplus, labelCount]
  have hVt : (Expr.conditional test onTrue onFalse).VoidConstructors → test.VoidConstructors :=
    fun hv => hv.child (by simp [children])
  have hVl : (Expr.conditional test onTrue onFalse).VoidConstructors → onTrue.VoidConstructors :=
    fun hv => hv.child (by simp [children])
  have hVr : (Expr.conditional test onTrue onFalse).VoidConstructors → onFalse.VoidConstructors :=
    fun hv => hv.child (by simp [children])
  refine .choose hs (Selection.ordinary_arms _ _) fun _ harms => ?_
  have heffect : (Expr.conditional test onTrue onFalse).stackEffect = onTrue.stackEffect := by
    simp only [stackEffect, hasValue]
  have harms : onFalse.stackEffect = onTrue.stackEffect := by
    rw [stackEffect, stackEffect, Selection.arms_eq_ok.mp harms]
  refine iht.operand (.refl hs) hfloor hVt fun s₁ h₁ hvoidt => ?_
  simp only [Nat.zero_add] at h₁
  refine .branchNew test.surplus h₁ hfloor (Nat.add_comm _ _) fun s₂ h₂ hotherwise _ => ?_
  have hdepth₂ := h₂.depth
  have hsize₂ := h₂.size
  rw [Nat.add_assoc s.labels.size, ← hsize₂]
  refine ihl.append (.refl h₂.live) (by omega) hVl fun s₃ h₃ hvoidl => ?_
  simp only [Nat.zero_add] at h₃
  have hdepth₃ := h₃.depth
  have hsize₃ := h₃.size
  rw [← hsize₃]
  refine .gotoNew h₃.live (by omega) fun s₄ hhalted hsize₄ hdone hkeep₄ => ?_
  have hotherwise₄ : s₄.state? ⟨s.labels.size + test.labelCount⟩
      = some (.pending (some s₂.depth)) := by
    rw [hkeep₄ _ (by simp; omega), h₃.keeps _ (by simp; omega), hotherwise]
  refine .place_of_halted hhalted (by omega) hotherwise₄ ?_
  -- the other arm starts again from the depth before the first
  set s₅ := s₄.settled ⟨s.labels.size + test.labelCount⟩ s₂.depth with hs₅
  have hsize₅ : s₅.labels.size = s₄.labels.size := Session.size_settled _ _
  have hdepth₅ : s₅.depth = s₂.depth := rfl
  have hkeep₅ : ∀ label : Label, label.id ≠ s.labels.size + test.labelCount →
      s₅.state? label = s₄.state? label := fun label hlabel => Session.state?_settled _ _ hlabel
  rw [← hsize₄, ← hsize₅]
  refine ihr.append (.refl rfl) (by omega) hVr fun s₆ h₆ hvoidr => ?_
  simp only [Nat.zero_add] at h₆
  have hdepth₆ := h₆.depth
  have hsize₆ := h₆.size
  have hdone₆ : s₆.state? ⟨s₃.labels.size⟩ = some (.pending (some s₃.depth)) := by
    rw [h₆.keeps _ (by simp; omega), hkeep₅ _ (by simp; omega), hdone]
  refine .place h₆.live (by omega) hdone₆ (fun hne => ⟨h₆.live, fun hv => ?_⟩) fun heq => ?_
  · -- only a surplus of one of the arms makes the depths differ
    have hzerol := surplus_eq_zero onTrue (hVl hv)
    have hzeror := surplus_eq_zero onFalse (hVr hv)
    omega
  refine ⟨⟨rfl, ?_, ?_, fun label hlabel => ?_⟩, fun hzero => ?_⟩
  · rw [Session.depth_settled]
    omega
  · rw [Session.size_settled]
    omega
  · rw [Session.state?_settled _ _ (by simp; omega), h₆.keeps label (by omega),
      hkeep₅ label (by omega), hkeep₄ label (by omega), h₃.keeps label (by omega),
      h₂.keeps label hlabel]
  · have ht := hvoidt (by omega)
    have hl := hvoidl (by omega)
    have hr := hvoidr (by omega)
    exact voidConstructors_of_children trivial (by simp [children, ht, hl, hr])

variable (σ config)

/-- **The moves of every tree are safe**, and what they come to. -/
theorem Expr.moves_lead (e : Expr) : e.Sound σ config := by
  -- each case follows the moves of its node, and the children come in by their own leads
  induction e using Expr.induct with
  | literal value =>
      intro floor s hs hfloor
      simp only [moves, stackEffect, hasValue, surplus, labelCount]
      exact .advance 1 (.refl hs) hfloor (by simp) (Literal.effect_push _ _) (by omega) (by omega)
        fun h => ⟨h, fun _ => voidConstructors_of_children trivial (List.forall_mem_nil _)⟩
  | load source =>
      intro floor s hs hfloor
      simp only [moves, stackEffect, hasValue, surplus, labelCount]
      refine .choose hs (Selection.ordinary_load source) fun i hi => ?_
      obtain ⟨c, -, rfl⟩ := Selection.load_eq_ok.mp hi
      exact .advance 1 (.refl hs) hfloor rfl rfl (by omega) (by omega)
        fun h => ⟨h, fun _ => voidConstructors_of_children trivial (List.forall_mem_nil _)⟩
  | receiver =>
      intro floor s hs hfloor
      simp only [moves, stackEffect, hasValue, surplus, labelCount]
      exact .advance 1 (.refl hs) hfloor rfl rfl (by omega) (by omega)
        fun h => ⟨h, fun _ => voidConstructors_of_children trivial (List.forall_mem_nil _)⟩
  | getField target field ih =>
      intro floor s hs hfloor
      simp only [moves, surplus, labelCount]
      refine .choose hs (Selection.ordinary_fieldAccess _ _ _) fun access _ => ?_
      exact ih.unary trivial rfl hs hfloor rfl rfl
  | getStatic field =>
      intro floor s hs hfloor
      simp only [moves, stackEffect, hasValue, surplus, labelCount]
      refine .choose hs (Selection.ordinary_fieldAccess _ _ _) fun access _ => ?_
      exact .advance 1 (.refl hs) hfloor rfl rfl (by omega) (by omega)
        fun h => ⟨h, fun _ => voidConstructors_of_children trivial (List.forall_mem_nil _)⟩
  | newInstance constructor arguments ih =>
      intro floor s hs hfloor
      simp only [moves, stackEffect, hasValue, surplus, labelCount]
      refine .choose hs (Selection.ordinary_construction _ _ _) fun call hcall => ?_
      obtain ⟨hdispatch, hwith⟩ := Selection.construction_eq_ok.mp hcall
      refine .advance 1 (.refl hs) hfloor rfl rfl (by omega) (by omega) fun hnew => ?_
      refine .advance 2 hnew hfloor rfl rfl (by omega) (by omega) fun hdup => ?_
      refine argumentMoves_lead ih hdup hfloor (fun hv e he => hv.child he) fun s₁ h₁ hvoids => ?_
      have heffect : (Instruction.invoke call).effect
          = ⟨arguments.length + 1, constructor.returnsValue.toNat⟩ := by
        rw [Selection.effect_of_callWith hwith, hdispatch]
        rfl
      refine .advance (1 + (constructor.returnsValue.toNat + surpluses arguments)) h₁ hfloor rfl
        heffect (by omega) (by omega) fun h₂ => ⟨?_, fun hzero => ?_⟩
      · rw [Nat.zero_add] at h₂
        exact h₂
      · refine voidConstructors_of_children ?_ fun e he => hvoids (by omega) e he
        cases hvoid : constructor.returns.isVoid with
        | true => exact hvoid
        | false => simp [Method.returnsValue, hvoid] at hzero
  | invoke target method arguments ih ihs =>
      intro floor s hs hfloor
      simp only [moves, stackEffect, hasValue, surplus, labelCount]
      refine .choose hs (Selection.ordinary_call _ _ _ _) fun call hcall => ?_
      obtain ⟨hreceiver, hwith⟩ := Selection.call_eq_ok.mp hcall
      have heffect : (Instruction.invoke call).effect
          = ⟨arguments.length + 1, method.returnsValue.toNat⟩ := by
        rw [Selection.effect_of_callWith hwith, hreceiver]
        rfl
      refine ih.operand (.refl hs) hfloor (fun hv => hv.child (by simp [children]))
        fun s₁ h₁ hvoid => ?_
      simp only [Nat.zero_add] at h₁
      refine argumentMoves_lead ihs h₁ hfloor
        (fun hv e he => hv.child (List.mem_cons_of_mem _ he)) fun s₂ h₂ hvoids => ?_
      refine .advance (method.returnsValue.toNat + (target.surplus + surpluses arguments)) h₂ hfloor
        rfl heffect (by omega) (by omega) fun h₃ => ⟨h₃, fun hzero => ?_⟩
      refine voidConstructors_of_children trivial fun e he => ?_
      rcases List.mem_cons.mp he with rfl | he
      · exact hvoid (by omega)
      · exact hvoids (by omega) e he
  | invokeStatic method arguments ih =>
      intro floor s hs hfloor
      simp only [moves, stackEffect, hasValue, surplus, labelCount]
      refine .choose hs (Selection.ordinary_call _ _ _ _) fun call hcall => ?_
      obtain ⟨hreceiver, hwith⟩ := Selection.call_eq_ok.mp hcall
      have heffect : (Instruction.invoke call).effect
          = ⟨arguments.length, method.returnsValue.toNat⟩ := by
        rw [Selection.effect_of_callWith hwith, hreceiver]
        rfl
      refine argumentMoves_lead ih (.refl hs) hfloor (fun hv e he => hv.child he)
        fun s₁ h₁ hvoids => ?_
      simp only [Nat.zero_add] at h₁
      refine .advance (method.returnsValue.toNat + surpluses arguments) h₁ hfloor rfl heffect
        (by omega) (by omega) fun h₂ => ⟨h₂, fun hzero => ?_⟩
      exact voidConstructors_of_children trivial (hvoids hzero)
  | not operand ih =>
      intro floor s hs hfloor
      simp only [moves, stackEffect, hasValue, surplus, labelCount]
      refine ih.operand (.refl hs) hfloor (fun hv => hv.child (by simp [children]))
        fun s₁ h₁ hvoid => ?_
      simp only [Nat.zero_add] at h₁
      rw [Nat.add_comm] at h₁
      refine (Leads.truth h₁ hfloor rfl).imp fun s₂ h₂ => ⟨?_, fun hzero => ?_⟩
      · rw [Nat.add_comm]
        exact h₂
      · exact voidConstructors_of_children trivial (by simp [children, hvoid hzero])
  | or lhs rhs ihl ihr => exact ihl.disjunction ihr
  | conditional test onTrue onFalse iht ihl ihr => exact iht.conditional ihl ihr
  | eq lhs rhs type ihl ihr =>
      intro floor s hs hfloor
      simp only [moves, stackEffect, hasValue, surplus, labelCount]
      refine .choose hs (Selection.ordinary_equality type) fun comparison hcomparison => ?_
      exact ihl.comparison ihr trivial rfl hs hfloor (Selection.binary_of_equality hcomparison)
  | gt lhs rhs type ihl ihr =>
      intro floor s hs hfloor
      simp only [moves, stackEffect, hasValue, surplus, labelCount]
      refine .choose hs (Selection.ordinary_ordering type) fun comparison hcomparison => ?_
      exact ihl.comparison ihr trivial rfl hs hfloor (Selection.binary_of_ordering hcomparison)
  | arithmetic op lhs rhs type ihl ihr =>
      intro floor s hs hfloor
      simp only [moves, stackEffect, hasValue, surplus, labelCount]
      refine .choose hs (Selection.ordinary_arithmetic op type) fun i hi => ?_
      obtain ⟨n, -, rfl⟩ := Selection.arithmetic_eq_ok.mp hi
      refine Sound.operands ihl ihr hs hfloor (fun hv => hv.child (by simp [children]))
        (fun hv => hv.child (by simp [children])) fun s₂ h₂ hvoidl hvoidr => ?_
      refine .advance (1 + (lhs.surplus + rhs.surplus)) h₂ hfloor rfl rfl (by omega) (by omega)
        fun h₃ => ⟨h₃, fun hzero => ?_⟩
      have hl := hvoidl (by omega)
      have hr := hvoidr (by omega)
      exact voidConstructors_of_children trivial (by simp [children, hl, hr])
  | widen operand source target ih =>
      intro floor s hs hfloor
      simp only [moves, surplus, labelCount]
      refine .choose hs (Selection.ordinary_widening source target) fun conversion hconversion => ?_
      obtain ⟨n, m, -, -, ⟨-, rfl⟩ | ⟨-, rfl⟩⟩ := Selection.widening_eq_ok.mp hconversion
      · refine ih.operand (.refl hs) hfloor (fun hv => hv.child (by simp [children]))
          fun s₁ h₁ hvoid => ⟨?_, fun hzero => ?_⟩
        · simp only [Nat.zero_add] at h₁
          exact h₁
        · exact voidConstructors_of_children trivial (by simp [children, hvoid hzero])
      · exact ih.unary trivial rfl hs hfloor rfl rfl
  | cast target operand ih =>
      intro floor s hs hfloor
      simp only [moves, surplus, labelCount]
      refine .choose hs (Selection.ordinary_cast _ _) fun i hi => ?_
      obtain ⟨-, rfl⟩ := Selection.cast_eq_ok.mp hi
      exact ih.unary trivial rfl hs hfloor rfl rfl
  | newArray element elements ih =>
      intro floor s hs hfloor
      simp only [moves, stackEffect, hasValue, surplus, labelCount]
      refine .choose hs (Selection.ordinary_newArray _ _) fun allocation hallocation => ?_
      refine .choose hs (Selection.ordinary_arrayStore _) fun store hstore => ?_
      refine .choose hs (Selection.ordinary_arrayLength _) fun length _ => ?_
      obtain ⟨kind, -, rfl⟩ := Selection.arrayStore_eq_ok.mp hstore
      obtain ⟨htarget, heffect⟩ := Selection.effect_of_newArray hallocation
      refine .advance 1 (.refl hs) hfloor (by simp) (Instruction.effect_pushInt _ _) (by omega)
        (by omega) fun h₁ => ?_
      refine .advance 1 h₁ hfloor htarget heffect (by omega) (by omega) fun h₂ => ?_
      refine elementMoves_lead ih h₂ hfloor (by omega) (fun hv e he => hv.child he)
        fun s₃ h₃ hvoids => ⟨?_, fun hzero => ?_⟩
      · simp only [Nat.zero_add] at h₃
        exact h₃
      · exact voidConstructors_of_children trivial (hvoids hzero)
  | pop operand ih =>
      intro floor s hs hfloor
      simp only [moves, surplus, labelCount]
      exact ih.unary trivial rfl hs hfloor rfl rfl

end Trees

end StackLowering
