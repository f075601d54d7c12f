import StackLowering.Proofs.Unfinished

/-!
What a session reports for a tree, whatever constructors return.

* `Expr.diagnosis?`: the fault that lowering a tree stops with, found without emitting anything:
  the checks of a node come before its children, and where paths join their depths have to agree.
* `Expr.fault?_lower_eq_diagnosis?`: lowering reports just this, if there are enough labels.
* `Session.compile_defect`: a defect is reported only for trees with constructors that return a
  value, and it always concerns the depth of the stack.
-/

namespace StackLowering

/-! ### The diagnosis of a tree -/

/-- Two depths of the stack have to agree. -/
def Check.level (expected actual : Nat) : Check :=
  ⟨expected != actual, .stackImbalance expected actual⟩

lemma Check.first?_level (expected actual : Nat) :
    first? [level expected actual]
      = if expected = actual then none else some (.stackImbalance expected actual) := by
  rw [first?_cons, level]
  by_cases h : expected = actual
  · simp [h]
  · simp [h]

namespace Expr

mutual

/-- The fault that lowering a tree stops with where there are `depth` values on the stack: that of
the node, or else of its children from left to right, and at last of the depths that do not agree
where two paths join. -/
def diagnosis? (wanted : Bool) (depth : Nat) : Expr → Option Fault
  | e@(literal _) | e@(load _) | e@receiver | e@(getStatic _) => e.faultAt? wanted []
  | e@(getField operand _) | e@(not operand) | e@(widen operand _ _) | e@(cast _ operand)
  | e@(pop operand) => (e.faultAt? wanted []).or (operand.diagnosis? true depth)
  | e@(eq lhs rhs _) | e@(gt lhs rhs _) | e@(arithmetic _ lhs rhs _) =>
      (e.faultAt? wanted []).or ((lhs.diagnosis? true depth).or
        (rhs.diagnosis? true (depth + (1 + lhs.surplus))))
  | e@(or lhs rhs) =>
      let onTrue := depth + lhs.surplus
      (e.faultAt? wanted []).or ((lhs.diagnosis? true depth).or
        ((rhs.diagnosis? true onTrue).or (Check.first? [.level onTrue (onTrue + rhs.surplus)])))
  | e@(conditional test onTrue onFalse) =>
      let arm := depth + test.surplus
      (e.faultAt? wanted []).or ((test.diagnosis? true depth).or
        ((onTrue.diagnosis? false arm).or ((onFalse.diagnosis? false arm).or
          (Check.first? [.level (arm + (onTrue.stackEffect + onTrue.surplus))
            (arm + (onFalse.stackEffect + onFalse.surplus))]))))
  | e@(newInstance _ arguments) => (e.faultAt? wanted []).or (diagnoses? 1 (depth + 2) arguments)
  | e@(invokeStatic _ arguments) => (e.faultAt? wanted []).or (diagnoses? 1 depth arguments)
  | e@(invoke target _ arguments) =>
      (e.faultAt? wanted []).or ((target.diagnosis? true depth).or
        (diagnoses? 1 (depth + (1 + target.surplus)) arguments))
  | e@(newArray _ elements) => (e.faultAt? wanted []).or (diagnoses? 0 (depth + 3) elements)

/-- The diagnosis of trees whose values are wanted, of each of which `rise` values stay. -/
def diagnoses? (rise depth : Nat) : List Expr → Option Fault
  | [] => none
  | e :: es => (e.diagnosis? true depth).or (diagnoses? rise (depth + (rise + e.surplus)) es)

end

/-- Where the value of a tree is wanted, the check for it comes before all others. -/
lemma diagnosis?_true (e : Expr) (depth : Nat) : e.diagnosis? true depth
    = (Selection.fault? (Selection.value e)).or (e.diagnosis? false depth) := by
  rw [Selection.fault?_value]
  cases e <;>
    simp only [diagnosis?, faultAt?, Check.first?_cons, Bool.true_and, Bool.false_and] <;>
    cases (hasValue _) <;> simp

lemma faultAt?_false (e : Expr) : e.faultAt? false [] = Check.first? e.nodeChecks := by
  rw [faultAt?, Check.first?_cons, Bool.false_and, if_neg Bool.false_ne_true]

end Expr

/-! ### Runs -/

section Runs

variable {σ : Type} [Sink σ] {ms ns : List Move} {s s' s₀ : Session σ} {here rest : Option Fault}

/-- A run goes on where its first part has come to, or stops with it. -/
lemma Lowering.fault?_append (hms : fault? (follow ms) s = here)
    (hns : ∀ s', (follow ms).run s = .ok () s' → fault? (follow ns) s' = rest) :
    fault? (follow (ms ++ ns)) s = here.or rest := by
  rw [fault?] at hms ⊢
  rw [follow_append, EStateM.run_bind]
  cases hrun : (follow ms).run s with
  | ok u s' =>
      rw [hrun] at hms
      rw [← hms, Option.none_or]
      exact hns s' hrun
  | error fault s' =>
      rw [hrun] at hms
      rw [← hms]
      rfl

lemma Lowering.fault?_append_of_ok (hrun : (follow ms).run s = .ok () s') :
    fault? (follow (ms ++ ns)) s = fault? (follow ns) s' := by
  rw [fault?, follow_append, EStateM.run_bind, hrun]
  rfl

lemma Lowering.fault?_guarded {α : Type} {choice : Except Fault α} {next : α → List Move}
    (h : ∀ a, choice = .ok a → fault? (follow (next a)) s = rest) :
    fault? (follow (Move.guarded choice next)) s = (Selection.fault? choice).or rest := by
  cases choice with
  | ok a => exact h a rfl
  | error fault => rfl

/-- Safe moves without a refusal, for which there are enough labels and in which depths cannot
differ, come to their end. -/
lemma Leads.exists_ok {floor : Nat} {Q : Session σ → Prop}
    (h : Leads (Safe floor) Q (Halts True) ms s) (hrefusal : Move.refusal? ms = none)
    (hlabels : s.labels.size + Move.creations ms ≤ LabelTable.limit) :
    ∃ s', (follow ms).run s = .ok () s' ∧ Q s' := by
  have hfault := h.fault?_follow trivial hlabels
  rw [hrefusal, Lowering.fault?] at hfault
  cases hrun : (follow ms).run s with
  | ok u s' => exact ⟨s', rfl, h.of_ok hrun⟩
  | error fault s' =>
      rw [hrun] at hfault
      cases hfault

/-- A branch to a new label, after which lowering goes on. -/
lemma Lowering.fault?_branchNew (rise' : Nat) {rise count : Nat} {condition : Condition}
    (h : Advance rise count s₀ s) (hrise : rise = rise' + condition.operands)
    (hlabels : s₀.labels.size + count < LabelTable.limit)
    (hnext : ∀ s₁, Advance rise' (count + 1) s₀ s₁ →
      s₁.state? ⟨s₀.labels.size + count⟩ = some (.pending (some s₁.depth)) →
      fault? (follow ns) s₁ = rest) :
    fault? (follow (.create :: .branch condition ⟨s₀.labels.size + count⟩ :: ns)) s = rest := by
  have hsize := h.size
  have hlead : Leads (Safe 0) (fun s₁ => Advance rise' (count + 1) s₀ s₁ ∧
      s₁.state? ⟨s₀.labels.size + count⟩ = some (.pending (some s₁.depth))) (Halts True)
      [.create, .branch condition ⟨s₀.labels.size + count⟩] s :=
    .branchNew rise' h (Nat.zero_le _) hrise fun s₁ h₁ hstate _ => ⟨h₁, hstate⟩
  obtain ⟨s₁, hrun, h₁, hstate⟩ :=
    hlead.exists_ok rfl (show s.labels.size + 1 ≤ LabelTable.limit by omega)
  exact (fault?_append_of_ok hrun).trans (hnext s₁ h₁ hstate)

/-- A jump to a new label, after which lowering goes on where another label is placed. -/
lemma Lowering.fault?_gotoNew (hs : s.reachable = true) (hlabels : s.labels.size < LabelTable.limit)
    (hnext : ∀ s₁ : Session σ, s₁.reachable = false → s₁.labels.size = s.labels.size + 1 →
      s₁.state? ⟨s.labels.size⟩ = some (.pending (some s.depth)) →
      (∀ label : Label, label.id < s.labels.size → s₁.state? label = s.state? label) →
      fault? (follow ns) s₁ = rest) :
    fault? (follow (.create :: .goto ⟨s.labels.size⟩ :: ns)) s = rest := by
  have hlead : Leads (Safe 0) (fun s₁ => s₁.reachable = false ∧
      s₁.labels.size = s.labels.size + 1 ∧
      s₁.state? ⟨s.labels.size⟩ = some (.pending (some s.depth)) ∧
      ∀ label : Label, label.id < s.labels.size → s₁.state? label = s.state? label) (Halts True)
      [.create, .goto ⟨s.labels.size⟩] s :=
    .gotoNew hs (Nat.zero_le _) fun s₁ hhalted hsize hdone hkeep => ⟨hhalted, hsize, hdone, hkeep⟩
  obtain ⟨s₁, hrun, hhalted, hsize, hdone, hkeep⟩ := hlead.exists_ok rfl hlabels
  exact (fault?_append_of_ok hrun).trans (hnext s₁ hhalted hsize hdone hkeep)

/-- A label that a jump has reached is placed where control comes to it too. -/
lemma Lowering.fault?_place {label : Label} {depth : Nat} (hs : s.reachable = true)
    (hstate : s.state? label = some (.pending (some depth)))
    (hnext : depth = s.depth → fault? (follow ns) (s.settled label s.depth) = rest) :
    fault? (follow (.place label :: ns)) s = (Check.first? [.level depth s.depth]).or rest := by
  rw [Check.first?_level, fault?, follow, EStateM.run_bind]
  by_cases heq : depth = s.depth
  · rw [heq] at hstate
    rw [if_pos heq, Move.run_place_of_eq hs hstate]
    exact hnext heq
  · rw [if_neg heq, Move.run_place_of_ne hs hstate heq]
    rfl

end Runs

/-! ### The moves of a tree -/

section Trees

variable (σ : Type) [Sink σ] (config : Config)

/-- From every session that control has reached and that has enough labels, the moves of a tree
stop with its diagnosis, or else they do not stop. -/
def Expr.Reports (e : Expr) : Prop :=
  ∀ s : Session σ, s.reachable = true → s.labels.size + e.labelCount ≤ LabelTable.limit →
    Lowering.fault? (follow (e.moves config s.labels.size)) s = e.diagnosis? false s.depth

variable {σ config} {s s₀ : Session σ} {rise count : Nat} {ns : List Move} {rest : Option Fault}

open Lowering (fault?_append fault?_guarded fault?_branchNew fault?_gotoNew fault?_place)

/-- A tree inside a construct that has begun in `s₀`. -/
lemma Expr.Reports.append {e : Expr} (he : e.Reports σ config) (h : Advance rise count s₀ s)
    (hlabels : s₀.labels.size + count + e.labelCount ≤ LabelTable.limit)
    (hnext : ∀ s₁, Advance (rise + e.stackEffect + e.surplus) (count + e.labelCount) s₀ s₁ →
      Lowering.fault? (follow ns) s₁ = rest) :
    Lowering.fault? (follow (e.moves config (s₀.labels.size + count) ++ ns)) s
      = (e.diagnosis? false (s₀.depth + rise)).or rest := by
  -- what the tree reports is known by `he`, and where it ends by its lead
  have hlead := e.moves_lead σ config 0 s h.live (Nat.zero_le _)
  rw [← h.size] at hlabels ⊢
  rw [← h.depth]
  refine fault?_append (he s h.live hlabels) fun s₁ hrun => hnext s₁ ?_
  rw [Nat.add_assoc]
  exact h.trans (hlead.of_ok hrun).1

/-- A tree whose value is consumed. -/
lemma Expr.Reports.operand {e : Expr} (he : e.Reports σ config) (h : Advance rise count s₀ s)
    (hlabels : s₀.labels.size + count + e.labelCount ≤ LabelTable.limit)
    (hnext : ∀ s₁, Advance (rise + 1 + e.surplus) (count + e.labelCount) s₀ s₁ →
      Lowering.fault? (follow ns) s₁ = rest) :
    Lowering.fault? (follow (Move.consumed e (e.moves config (s₀.labels.size + count)) ++ ns)) s
      = (e.diagnosis? true (s₀.depth + rise)).or rest := by
  rw [e.diagnosis?_true]
  cases hvalue : Selection.value e with
  | error fault =>
      rw [Move.consumed, hvalue]
      rfl
  | ok u =>
      have heffect : e.stackEffect = 1 := by
        rw [stackEffect, Selection.value_eq_ok.mp hvalue]
        rfl
      rw [Move.consumed, hvalue, Selection.fault?, Option.none_or]
      refine he.append h hlabels fun s₁ h₁ => hnext s₁ ?_
      rw [← heffect]
      exact h₁

/-- Two trees whose values are consumed together. -/
lemma Expr.Reports.operands {lhs rhs : Expr} (hlhs : lhs.Reports σ config)
    (hrhs : rhs.Reports σ config) (hs : s.reachable = true)
    (hlabels : s.labels.size + lhs.labelCount + rhs.labelCount ≤ LabelTable.limit)
    (hnext : ∀ s₂, Advance (lhs.surplus + rhs.surplus + 2) (lhs.labelCount + rhs.labelCount) s s₂ →
      Lowering.fault? (follow ns) s₂ = none) :
    Lowering.fault? (follow (Move.consumed lhs (lhs.moves config s.labels.size) ++
        (Move.consumed rhs (rhs.moves config (s.labels.size + lhs.labelCount)) ++ ns))) s
      = (lhs.diagnosis? true s.depth).or (rhs.diagnosis? true (s.depth + (1 + lhs.surplus))) := by
  refine hlhs.operand (.refl hs) (by omega) fun s₁ h₁ => ?_
  simp only [Nat.zero_add] at h₁
  refine (hrhs.operand h₁ hlabels fun s₂ h₂ => hnext s₂ ?_).trans Option.or_none
  have hrise : lhs.surplus + rhs.surplus + 2 = 1 + lhs.surplus + 1 + rhs.surplus := by omega
  rw [hrise]
  exact h₂

/-- Arguments are reported from left to right. -/
lemma Expr.fault?_argumentMoves {arguments : List Expr}
    (ih : ∀ e ∈ arguments, e.Reports σ config) (h : Advance rise count s₀ s)
    (hlabels : s₀.labels.size + count + labelCounts arguments ≤ LabelTable.limit)
    (hns : ∀ s' : Session σ, Lowering.fault? (follow ns) s' = none) :
    Lowering.fault? (follow (argumentMoves config (s₀.labels.size + count) arguments ++ ns)) s
      = diagnoses? 1 (s₀.depth + rise) arguments := by
  induction arguments generalizing s rise count with
  | nil => exact hns s
  | cons e es ihes =>
      obtain ⟨he, hes⟩ := List.forall_mem_cons.mp ih
      rw [labelCounts] at hlabels
      rw [argumentMoves, List.append_assoc, diagnoses?]
      refine he.operand h (by omega) fun s₁ h₁ => ?_
      rw [Nat.add_assoc s₀.labels.size, ihes hes h₁ (by omega)]
      simp only [Nat.add_assoc]

/-- Elements are reported from left to right, each above the array and its index. -/
lemma Expr.fault?_elementMoves {kind : ArrayKind} {elements : List Expr} {index : Nat}
    (ih : ∀ e ∈ elements, e.Reports σ config) (h : Advance (rise + 1) count s₀ s)
    (hlabels : s₀.labels.size + count + labelCounts elements ≤ LabelTable.limit) :
    Lowering.fault? (follow (elementMoves config (.arrayStore kind) (s₀.labels.size + count) index
      elements)) s = diagnoses? 0 (s₀.depth + (rise + 3)) elements := by
  induction elements generalizing s rise count index with
  | nil => rfl
  | cons e es ihes =>
      obtain ⟨he, hes⟩ := List.forall_mem_cons.mp ih
      -- above the array there are its copy and the index when the element is lowered
      have hdup : Advance (rise + 2) count s₀ (s.emitted .dup) :=
        h.emitted rfl (by omega) (by omega)
      have hindex : Advance (rise + 3) count s₀ ((s.emitted .dup).emitted
          (.pushInt config.options.compactConstants (.ofNat index))) :=
        hdup.emitted (Instruction.effect_pushInt _ _) (by omega) (by omega)
      rw [labelCounts] at hlabels
      rw [elementMoves, diagnoses?]
      refine he.operand hindex (by omega) fun s₁ h₁ => ?_
      have hstore : Advance (rise + e.surplus + 1) (count + e.labelCount) s₀
          (s₁.emitted (.arrayStore kind)) := h₁.emitted rfl (by omega) (by omega)
      have hdepth : s₀.depth + (rise + 3) + (0 + e.surplus)
          = s₀.depth + (rise + e.surplus + 3) := by omega
      rw [hdepth, Nat.add_assoc s₀.labels.size]
      exact ihes hes hstore (by omega)

/-- A branch on the topmost values is not reported. -/
lemma Lowering.fault?_truth {rise' : Nat} {condition : Condition} (h : Advance rise count s₀ s)
    (hrise : rise = rise' + condition.operands)
    (hlabels : s₀.labels.size + count + 2 ≤ LabelTable.limit) :
    fault? (follow (Move.truth (s₀.labels.size + count) condition)) s = none := by
  have hsize := h.size
  exact (Leads.truth (V := True) h (Nat.zero_le _) hrise).fault?_follow trivial
    (show s.labels.size + 2 ≤ LabelTable.limit by omega)

/-- Nor is a comparison. -/
lemma Lowering.fault?_decideBy {comparison : Selection.Comparison}
    (h : Advance (rise + 2) count s₀ s) (hbinary : comparison.Binary)
    (hlabels : s₀.labels.size + count + 2 ≤ LabelTable.limit) :
    fault? (follow (Move.decideBy (s₀.labels.size + count) comparison)) s = none := by
  have hsize := h.size
  rw [← Move.refusal?_decideBy (s₀.labels.size + count) comparison]
  refine (Leads.decideBy (V := True) h (Nat.zero_le _) hbinary).fault?_follow trivial ?_
  rw [Move.creations_decideBy]
  omega

lemma Expr.Reports.disjunction {lhs rhs : Expr} (ihl : lhs.Reports σ config)
    (ihr : rhs.Reports σ config) : (or lhs rhs).Reports σ config := by
  intro s hs hlabels
  rw [labelCount] at hlabels
  rw [moves, diagnosis?, faultAt?_false]
  refine ihl.operand (.refl hs) (by omega) fun s₁ h₁ => ?_
  simp only [Nat.zero_add] at h₁
  refine fault?_branchNew lhs.surplus h₁ (Nat.add_comm _ _) (by omega) fun s₂ h₂ honTrue => ?_
  have hdepth₂ := h₂.depth
  have hsize₂ := h₂.size
  rw [Nat.add_assoc s.labels.size, ← hsize₂, ← hdepth₂]
  refine ihr.operand (.refl h₂.live) (by omega) fun s₃ h₃ => ?_
  simp only [Nat.zero_add] at h₃
  refine fault?_branchNew rhs.surplus h₃ (Nat.add_comm _ _) (by omega) fun s₄ h₄ honFalse => ?_
  have hsize₄ := h₄.size
  have honTrue₄ : s₄.state? ⟨s.labels.size + lhs.labelCount⟩
      = some (.pending (some s₂.depth)) := by
    rw [h₄.keeps _ (by simp; omega), honTrue]
  rw [← h₄.depth]
  -- here the depth of the jump meets that of the path through the right side
  refine (fault?_place h₄.live honTrue₄ fun heq => ?_).trans Option.or_none
  set s₅ := s₄.settled ⟨s.labels.size + lhs.labelCount⟩ s₄.depth with hs₅
  have hsize₅ : s₅.labels.size = s₄.labels.size := Session.size_settled _ _
  have honFalse₅ : s₅.state? ⟨s₂.labels.size + rhs.labelCount⟩
      = some (.pending (some s₅.depth)) := by
    rw [hs₅, Session.state?_settled _ _ (by simp; omega), honFalse]
    rfl
  rw [Nat.add_assoc s₂.labels.size, ← hsize₄, ← hsize₅]
  exact (Leads.joinTruth (V := True) rfl (Nat.zero_le _) (by omega) honFalse₅).fault?_follow
    trivial (by rw [Move.creations_joinTruth]; omega)

lemma Expr.Reports.conditional {test onTrue onFalse : Expr} (iht : test.Reports σ config)
    (ihl : onTrue.Reports σ config) (ihr : onFalse.Reports σ config) :
    (Expr.conditional test onTrue onFalse).Reports σ config := by
  intro s hs hlabels
  rw [labelCount] at hlabels
  rw [moves, diagnosis?, faultAt?_false]
  refine (fault?_guarded fun _ _ => ?_).trans
    (congrArg (Option.or · _) (Selection.fault?_arms test onTrue onFalse))
  refine iht.operand (.refl hs) (by omega) fun s₁ h₁ => ?_
  simp only [Nat.zero_add] at h₁
  refine fault?_branchNew test.surplus h₁ (Nat.add_comm _ _) (by omega)
    fun s₂ h₂ hotherwise => ?_
  have hsize₂ := h₂.size
  rw [Nat.add_assoc s.labels.size, ← hsize₂, ← h₂.depth]
  refine ihl.append (.refl h₂.live) (by omega) fun s₃ h₃ => ?_
  simp only [Nat.zero_add] at h₃
  have hsize₃ := h₃.size
  rw [← hsize₃]
  refine fault?_gotoNew h₃.live (by omega) fun s₄ hhalted hsize₄ hdone hkeep₄ => ?_
  have hotherwise₄ : s₄.state? ⟨s.labels.size + test.labelCount⟩
      = some (.pending (some s₂.depth)) := by
    rw [hkeep₄ _ (by simp; omega), h₃.keeps _ (by simp; omega), hotherwise]
  rw [Lowering.fault?, follow, EStateM.run_bind, Move.run_place_of_halted hhalted hotherwise₄]
  set s₅ := s₄.settled ⟨s.labels.size + test.labelCount⟩ s₂.depth with hs₅
  have hsize₅ : s₅.labels.size = s₄.labels.size := Session.size_settled _ _
  have hdepth₅ : s₅.depth = s₂.depth := rfl
  have hkeep₅ : ∀ label : Label, label.id ≠ s.labels.size + test.labelCount →
      s₅.state? label = s₄.state? label := fun label hlabel => Session.state?_settled _ _ hlabel
  rw [← hsize₄, ← hsize₅, ← hdepth₅]
  refine ihr.append (.refl rfl) (by omega) fun s₆ h₆ => ?_
  simp only [Nat.zero_add] at h₆
  have hdone₆ : s₆.state? ⟨s₃.labels.size⟩ = some (.pending (some s₃.depth)) := by
    rw [h₆.keeps _ (by simp; omega), hkeep₅ _ (by simp; omega), hdone]
  rw [← h₆.depth, hdepth₅, ← h₃.depth]
  -- here the depths after the two arms meet
  exact (fault?_place h₆.live hdone₆ fun _ => rfl).trans Option.or_none

/-- A node whose choice makes the checks of the node. -/
lemma Expr.fault?_node {e : Expr} {α : Type} {choice : Except Fault α} {next : α → List Move}
    (hchoice : Selection.fault? choice = Check.first? e.nodeChecks)
    (hnext : ∀ a, choice = .ok a → Lowering.fault? (follow (next a)) s = rest) :
    Lowering.fault? (follow (Move.guarded choice next)) s = (e.faultAt? false []).or rest := by
  rw [faultAt?_false, ← hchoice]
  exact fault?_guarded hnext

lemma Expr.Reports.newArray {element : Ty} {elements : List Expr}
    (ih : ∀ e ∈ elements, e.Reports σ config) : (newArray element elements).Reports σ config := by
  intro s hs hlabels
  rw [diagnosis?, faultAt?_false]
  cases hchecks : Check.first? (Expr.newArray element elements).nodeChecks with
  | some fault =>
      rw [moves_of_refused hchecks]
      rfl
  | none =>
      obtain ⟨allocation, store, hallocation, hstore, hlength⟩ :=
        arrayChoices_of_checks config.naming hchecks
      obtain ⟨kind, -, rfl⟩ := Selection.arrayStore_eq_ok.mp hstore
      have hpush : Advance 1 0 s
          (s.emitted (.pushInt config.options.compactConstants (.ofNat elements.length))) :=
        (Advance.refl hs).emitted (Instruction.effect_pushInt _ _) (by omega) (by omega)
      have halloc := hpush.emitted (Selection.effect_of_newArray hallocation).2 (Nat.le_refl _) rfl
      rw [moves, hallocation, hstore, hlength, Option.none_or]
      exact fault?_elementMoves ih halloc hlabels

variable (σ config)

/-- **The moves of every tree** stop with its diagnosis. -/
theorem Expr.reports (e : Expr) : e.Reports σ config := by
  -- the cases follow the clauses of `diagnosis?`, with the depth that each child starts from
  induction e using Expr.induct with
  | literal value => exact fun s _ _ => rfl
  | load source =>
      intro s _ _
      rw [moves, diagnosis?, ← Option.or_none (o := faultAt? _ _ _)]
      exact fault?_node (Selection.fault?_load source) fun _ _ => rfl
  | receiver => exact fun s _ _ => rfl
  | getField target field ih =>
      intro s hs hlabels
      rw [moves, diagnosis?]
      refine fault?_node (Selection.fault?_getField _ target _) fun access _ => ?_
      exact (ih.operand (.refl hs) hlabels fun _ _ => rfl).trans Option.or_none
  | getStatic field =>
      intro s _ _
      rw [moves, diagnosis?, ← Option.or_none (o := faultAt? _ _ _)]
      exact fault?_node (Selection.fault?_getStatic _ _) fun _ _ => rfl
  | newInstance constructor arguments ih =>
      intro s hs hlabels
      rw [moves, diagnosis?]
      refine fault?_node (Selection.fault?_construction _ _ _) fun call _ => ?_
      have hnew : Advance 1 0 s (s.emitted (.new call.owner)) :=
        (Advance.refl hs).emitted rfl (by omega) (by omega)
      have hdup : Advance 2 0 s ((s.emitted (.new call.owner)).emitted .dup) :=
        hnew.emitted rfl (by omega) (by omega)
      exact fault?_argumentMoves ih hdup hlabels fun _ => rfl
  | invoke target method arguments ih ihs =>
      intro s hs hlabels
      rw [labelCount] at hlabels
      rw [moves, diagnosis?]
      refine fault?_node (Selection.fault?_invoke _ target _ _) fun call _ => ?_
      refine ih.operand (.refl hs) (by omega) fun s₁ h₁ => ?_
      simp only [Nat.zero_add] at h₁
      exact fault?_argumentMoves ihs h₁ (by omega) fun _ => rfl
  | invokeStatic method arguments ih =>
      intro s hs hlabels
      rw [moves, diagnosis?]
      refine fault?_node (Selection.fault?_invokeStatic _ _ _) fun call _ => ?_
      exact fault?_argumentMoves ih (.refl hs) hlabels fun _ => rfl
  | not operand ih =>
      intro s hs hlabels
      rw [labelCount] at hlabels
      rw [moves, diagnosis?, faultAt?_false]
      refine (ih.operand (.refl hs) (by omega) fun s₁ h₁ => ?_).trans Option.or_none
      simp only [Nat.zero_add] at h₁
      exact Lowering.fault?_truth h₁ (Nat.add_comm _ _) hlabels
  | or lhs rhs ihl ihr => exact ihl.disjunction ihr
  | conditional test onTrue onFalse iht ihl ihr => exact iht.conditional ihl ihr
  | eq lhs rhs type ihl ihr =>
      intro s hs hlabels
      rw [labelCount] at hlabels
      rw [moves, diagnosis?]
      refine fault?_node (Selection.fault?_equality lhs rhs _) fun comparison hok => ?_
      refine ihl.operands ihr hs (by omega) fun s₂ h₂ => ?_
      rw [Nat.add_assoc]
      exact Lowering.fault?_decideBy h₂ (Selection.binary_of_equality hok) (by omega)
  | gt lhs rhs type ihl ihr =>
      intro s hs hlabels
      rw [labelCount] at hlabels
      rw [moves, diagnosis?]
      refine fault?_node (Selection.fault?_ordering lhs rhs _) fun comparison hok => ?_
      refine ihl.operands ihr hs (by omega) fun s₂ h₂ => ?_
      rw [Nat.add_assoc]
      exact Lowering.fault?_decideBy h₂ (Selection.binary_of_ordering hok) (by omega)
  | arithmetic op lhs rhs type ihl ihr =>
      intro s hs hlabels
      rw [labelCount] at hlabels
      rw [moves, diagnosis?]
      refine fault?_node (Selection.fault?_arithmetic _ lhs rhs _) fun i _ => ?_
      exact ihl.operands ihr hs (by omega) fun _ _ => rfl
  | widen operand source target ih =>
      intro s hs hlabels
      rw [moves, diagnosis?]
      refine fault?_node (Selection.fault?_widening operand _ _) fun conversion _ => ?_
      refine (ih.operand (.refl hs) hlabels fun _ _ => ?_).trans Option.or_none
      cases conversion <;> rfl
  | cast target operand ih =>
      intro s hs hlabels
      rw [moves, diagnosis?]
      refine fault?_node (Selection.fault?_cast _ _ operand) fun i _ => ?_
      exact (ih.operand (.refl hs) hlabels fun _ _ => rfl).trans Option.or_none
  | newArray element elements ih => exact Reports.newArray ih
  | pop operand ih =>
      intro s hs hlabels
      rw [moves, diagnosis?, faultAt?_false]
      exact (ih.operand (.refl hs) hlabels fun _ _ => rfl).trans Option.or_none

variable {σ}

/-- What lowering a tree reports is its diagnosis. -/
lemma Expr.fault?_lower_eq_diagnosis? (e : Expr) {s : Session σ} (hs : s.reachable = true)
    (hlabels : s.labels.size + e.labelCount ≤ LabelTable.limit) :
    Lowering.fault? (e.lower config) s = e.diagnosis? false s.depth := by
  rw [Lowering.fault?, lower_eq_follow]
  exact e.reports σ config s hs hlabels

end Trees

/-! ### Defects -/

namespace Expr

/-- What compiling a tree reports: its diagnosis, or else a surplus, if that is looked for. -/
def report? (options : Options) (depth : Nat) (e : Expr) : Option Fault :=
  (e.diagnosis? false depth).or (if options.checkBalance then
    Check.first? [.level (depth + e.stackEffect) (depth + (e.stackEffect + e.surplus))] else none)

/-- The checks of a node concern the tree or the limits of the format. -/
lemma isDefect_of_mem_nodeChecks {e : Expr} {check : Check} (h : check ∈ e.nodeChecks) :
    check.fault.isDefect = false := by
  cases e <;> simp only [nodeChecks, checks, List.mem_append, List.mem_cons, List.not_mem_nil,
    or_false, Check.valued, Check.counted] at h <;>
    grind [Fault.isDefect]

lemma isDefect_of_faultAt? {e : Expr} {wanted : Bool} {path : List Nat} {fault : Fault}
    (h : e.faultAt? wanted path = some fault) : fault.isDefect = false := by
  induction path generalizing e wanted with
  | nil =>
      obtain ⟨check, hfind, rfl⟩ := Option.map_eq_some_iff.mp h
      rcases List.mem_cons.mp (List.mem_of_find?_eq_some hfind) with rfl | hmem
      · rfl
      · exact isDefect_of_mem_nodeChecks hmem
  | cons k path ih =>
      obtain ⟨c, -, hc⟩ := Option.bind_eq_some_iff.mp h
      exact ih hc

end Expr

section Defects

variable {σ : Type} [Sink σ] {s s' : Session σ} {config : Config} {e : Expr} {fault : Fault}

/-- Lowering stops for what is wrong with the tree, for want of labels, or because two depths
differ. -/
lemma Expr.imbalance_of_lower_eq_error (hs : s.reachable = true)
    (hrun : (e.lower config).run s = .error fault s') (hdefect : fault.isDefect = true) :
    ∃ expected actual, expected ≠ actual ∧ fault = .stackImbalance expected actual := by
  -- without refusals there is one defect only
  have hclean {ms : List Move} {Q : Session σ → Prop} {R : Fault → Session σ → Prop}
      (hleads : Leads (Safe 0) Q R ms s) (hms : Move.Clean ms)
      (hrun : (follow ms).run s = .error fault s') :
      ∃ expected actual, expected ≠ actual ∧ fault = .stackImbalance expected actual := by
    refine (hleads.fault_of_clean hms hrun).resolve_left ?_
    rintro ⟨rfl, -⟩
    cases hdefect
  have hleads := e.moves_lead σ config 0 s hs (Nat.zero_le _)
  rw [lower_eq_follow] at hrun
  rcases e.faultless_or_failsAt false with hnone | ⟨path, fault', hfails⟩
  · exact hclean hleads (hnone.clean config _) hrun
  · obtain ⟨lead, rest, count, hmoves, hlead, -, -⟩ :=
      hfails.exists_lead (σ := σ) config s.labels.size
    have hmoves : e.moves config s.labels.size = lead ++ .refuse fault' :: rest := hmoves
    rw [hmoves, Leads.append_iff] at hleads
    rw [hmoves, follow_append, EStateM.run_bind] at hrun
    cases hled : (follow lead).run s with
    | error fault'' s₁ =>
        rw [hled] at hrun
        cases hrun
        exact hclean hleads hlead hled
    | ok u s₁ =>
        have hrefuse : (follow (.refuse fault' :: rest)).run s₁ = .error fault' s₁ := rfl
        rw [hled] at hrun
        cases hrefuse.symm.trans hrun
        rw [isDefect_of_faultAt? hfails.fault] at hdefect
        cases hdefect

namespace Session

/-- What compiling a tree reports, whatever its constructors return. -/
lemma compile_eq_report? (config : Config) (e : Expr) (hs : s.reachable = true)
    (hlabels : s.labels.size + e.labelCount ≤ LabelTable.limit) :
    (s.step config (.compile e)).1 = e.report? config.options s.depth := by
  have hlower := e.fault?_lower_eq_diagnosis? config hs hlabels
  rw [Lowering.fault?] at hlower
  rw [step_fault, Lowering.fault?, Step.action, Expr.compile_eq, Expr.report?, ← hlower]
  cases hrun : (e.lower config).run s with
  | error fault s' => rfl
  | ok u s' =>
      have hdepth := (e.advance_of_lower_eq_ok config hs hrun).1.depth
      dsimp only
      rw [Check.first?_level, hdepth]
      -- the check expects the depth without the surplus
      cases config.options.checkBalance with
      | false => simp
      | true => by_cases hzero : e.surplus = 0 <;> simp [hzero]

/-- A defect that compiling a tree reports is that two depths differ, and some constructor returns a
value. -/
lemma imbalance_of_compile (hs : s.reachable = true)
    (hfault : (s.step config (.compile e)).1 = some fault) (hdefect : fault.isDefect = true) :
    ¬ e.VoidConstructors ∧
      ∃ expected actual, expected ≠ actual ∧ fault = .stackImbalance expected actual := by
  rw [step_fault] at hfault
  constructor
  · intro hvoid
    rw [Step.action, e.fault?_compile config hvoid hs, Lowering.fault?] at hfault
    cases hrun : (e.lower config).run s with
    | ok u s' =>
        rw [hrun] at hfault
        cases hfault
    | error fault' s' =>
        rw [hrun] at hfault
        cases hfault
        rw [(e.halts_of_lower_eq_error config hs hrun).2 hvoid] at hdefect
        cases hdefect
  · rw [Lowering.fault?, Step.action, Expr.compile_eq] at hfault
    cases hrun : (e.lower config).run s with
    | error fault' s' =>
        rw [hrun] at hfault
        cases hfault
        exact Expr.imbalance_of_lower_eq_error hs hrun hdefect
    | ok u s' =>
        rw [hrun] at hfault
        dsimp only at hfault
        split_ifs at hfault with hdepth
        cases hfault
        exact ⟨_, _, Ne.symm hdepth.2, rfl⟩

/-- A tree without a fault of its own is compiled, or two depths differ. -/
lemma compile_cases_of_faultless (config : Config) (hs : s.reachable = true)
    (hlabels : s.labels.size + e.labelCount ≤ LabelTable.limit) (hnone : e.Faultless false) :
    (s.step config (.compile e)).1 = none ∨ ∃ expected actual,
      (s.step config (.compile e)).1 = some (.stackImbalance expected actual) := by
  have hleads := e.moves_lead σ config 0 s hs (Nat.zero_le _)
  rw [step_fault, Lowering.fault?, Step.action, Expr.compile_eq]
  cases hrun : (e.lower config).run s with
  | ok u s' =>
      dsimp only
      split_ifs
      · exact .inr ⟨_, _, rfl⟩
      · exact .inl rfl
  | error fault s' =>
      have hcount : Move.creations (e.moves config s.labels.size) ≤ e.labelCount :=
        e.creations_moves_le _
      rw [Expr.lower_eq_follow] at hrun
      rcases hleads.fault_of_clean (hnone.clean config _) hrun with
        ⟨-, hlimit⟩ | ⟨expected, actual, -, rfl⟩
      · omega
      · exact .inr ⟨expected, actual, rfl⟩

/-- **Where defects come from.**  Take any session that has been reached, a new one among them, and
compile any tree, with all names and options.  If a defect is reported, then it is never about a
label but about two depths of the stack, and some constructor of the tree returns a value.  So where
constructors return nothing, what is reported concerns the tree or a limit of the format.

If there are enough labels, then what is reported is the diagnosis of the tree.  Let no node of the
tree have a fault, and let the depth be checked.  Then the tree is compiled exactly if its
constructors return nothing, and otherwise the defect is reported. -/
theorem compile_defect (hs : s.Reached) (config : Config) (e : Expr) :
    (∀ fault, (s.step config (.compile e)).1 = some fault → fault.isDefect = true →
      ¬ e.VoidConstructors ∧
        ∃ expected actual, expected ≠ actual ∧ fault = .stackImbalance expected actual) ∧
    (s.labels.size + e.labelCount ≤ LabelTable.limit →
      (s.step config (.compile e)).1 = e.report? config.options s.depth ∧
      (e.Faultless false → config.options.checkBalance = true →
        ((s.step config (.compile e)).1 = none ↔ e.VoidConstructors) ∧
        ((∃ expected actual,
          (s.step config (.compile e)).1 = some (.stackImbalance expected actual)) ↔
          ¬ e.VoidConstructors))) := by
  have hdefects : ∀ fault, (s.step config (.compile e)).1 = some fault → fault.isDefect = true →
      ¬ e.VoidConstructors ∧
        ∃ expected actual, expected ≠ actual ∧ fault = .stackImbalance expected actual :=
    fun fault hfault hdefect => imbalance_of_compile hs.live hfault hdefect
  refine ⟨hdefects, fun hlabels => ⟨compile_eq_report? config e hs.live hlabels,
    fun hnone hcheck => ?_⟩⟩
  have hcases := compile_cases_of_faultless config hs.live hlabels hnone
  have hvoid : (s.step config (.compile e)).1 = none → e.VoidConstructors := by
    intro hok
    rw [step_fault, Lowering.fault?, Step.action] at hok
    cases hrun : (e.compile config).run s with
    | ok u s' => exact e.voidConstructors_of_compile_eq_ok config hs.live hcheck hrun
    | error fault s' =>
        rw [hrun] at hok
        cases hok
  have hvalue : (∃ expected actual,
      (s.step config (.compile e)).1 = some (.stackImbalance expected actual)) →
      ¬ e.VoidConstructors := by
    rintro ⟨expected, actual, hfault⟩
    exact (hdefects _ hfault rfl).1
  exact ⟨⟨hvoid, fun h => hcases.resolve_right fun hfault => hvalue hfault h⟩,
    ⟨hvalue, fun h => hcases.resolve_left fun hok => h (hvoid hok)⟩⟩

end Session

end Defects

/-- After a step that has failed, a constructor on the right side of a disjunction returns a number,
so that the two ways to its end do not agree. -/
theorem Session.compile_defect_of_or :
    let failing : Expr :=
      .arithmetic .add (.literal (.int 7)) (.pop (.literal .null)) (.ofPrimitive .int)
    let s := ((Session.start ({} : Trace)).step {} (.lower failing)).2
    let point : Method :=
      { Method.ofConstructor (.classOf "geometry" "Point") [] with returns := .ofPrimitive .int }
    let e : Expr := .or (.load ⟨1, .ofPrimitive .boolean⟩) (.newInstance point [])
    (s.Reached ∧ s.labels.size + e.labelCount ≤ LabelTable.limit ∧ e.Faultless false) ∧
      (s.step {} (.compile e)).1 = some (.stackImbalance 1 2) ∧ ¬ e.VoidConstructors := by
  intro failing s point e
  have hs : s.Reached := .step {} _ (.start _)
  have hlabels : s.labels.size + e.labelCount ≤ LabelTable.limit := by decide
  have hnone : e.Faultless false := by
    have hleaf {leaf : Expr} (hnode : leaf.faultAt? true [] = none)
        (hchildren : leaf.children = []) : leaf.Faultless true :=
      Expr.faultless_iff.mpr ⟨hnode, fun k c hc => by simp [hchildren] at hc⟩
    refine Expr.faultless_iff.mpr ⟨rfl, fun k c hc => ?_⟩
    rcases k with - | - | k
    · cases hc
      exact hleaf (by decide +kernel) rfl
    · cases hc
      exact hleaf (by decide +kernel) rfl
    · cases hc
  obtain ⟨-, hreport⟩ := compile_defect hs {} e
  obtain ⟨hfault, hexact⟩ := hreport hlabels
  have himbalance : (s.step {} (.compile e)).1 = some (.stackImbalance 1 2) :=
    hfault.trans (by decide +kernel)
  exact ⟨⟨hs, hlabels, hnone⟩, himbalance, (hexact hnone rfl).2.mp ⟨1, 2, himbalance⟩⟩

/-- A defect can be reported, even by a new session for a tree of a single node: nothing keeps a
constructor from returning a number, and no check of the node looks at that. -/
theorem Session.compile_reports_imbalance :
    let point : Method :=
      { Method.ofConstructor (.classOf "geometry" "Point") [] with returns := .ofPrimitive .int }
    ((Session.start Code.empty).step {} (.compile (.newInstance point []))).1
        = some (.stackImbalance 1 2) ∧
      (Fault.stackImbalance 1 2).isDefect = true ∧
      (Expr.newInstance point []).faultAt? false [] = none := by
  decide +kernel

end StackLowering
