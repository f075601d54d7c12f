import StackLowering.Proofs.Histories
import StackLowering.Proofs.Labels
import StackLowering.Proofs.Reached
import StackLowering.Proofs.Telling

/-!
The labels of a whole session.

* `Expr.labelDemand`: the number of labels of a tree, by the kinds of its nodes.
* `Session.Succeeds`: a sequence of steps none of which fails.
* `Session.Spends`: between two sessions, a row of labels is created, and each of them
  is placed once and jumped to once.
* `Session.Succeeds.labels_spent`: each step spends the labels that its tree demands,
  from the first free one on, and at the end of the session none is left to be placed.
-/

namespace StackLowering

/-! ### The demand of a tree -/

namespace Expr

mutual

/-- The subtrees of a tree, itself included, each as often as it occurs. -/
def nodes : Expr → List Expr
  | e@(literal _) | e@(load _) | e@receiver | e@(getStatic _) => [e]
  | e@(getField operand _) | e@(not operand) | e@(widen operand _ _) | e@(cast _ operand)
  | e@(pop operand) => e :: operand.nodes
  | e@(or lhs rhs) | e@(eq lhs rhs _) | e@(gt lhs rhs _) | e@(arithmetic _ lhs rhs _) =>
      e :: (lhs.nodes ++ rhs.nodes)
  | e@(conditional test onTrue onFalse) => e :: (test.nodes ++ (onTrue.nodes ++ onFalse.nodes))
  | e@(newInstance _ arguments) | e@(invokeStatic _ arguments) => e :: nodesOf arguments
  | e@(invoke target _ arguments) => e :: (target.nodes ++ nodesOf arguments)
  | e@(newArray _ elements) => e :: nodesOf elements

/-- The subtrees of several trees. -/
def nodesOf : List Expr → List Expr
  | [] => []
  | e :: es => e.nodes ++ nodesOf es

end

/-- Negations, comparisons and conditionals, which have two outcomes. -/
def isTwoWay : Expr → Bool
  | not _ | eq .. | gt .. | conditional .. => true
  | _ => false

def isDisjunction : Expr → Bool
  | or .. => true
  | _ => false

/-- The number of labels that a tree demands: two for each negation, comparison and
conditional in it and three for each disjunction. -/
def labelDemand (e : Expr) : Nat :=
  2 * e.nodes.countP isTwoWay + 3 * e.nodes.countP isDisjunction

lemma nodesOf_eq (es : List Expr) : nodesOf es = es.flatMap nodes := by
  induction es with
  | nil => rfl
  | cons e es ih => rw [nodesOf, ih, List.flatMap_cons]

lemma nodes_eq (e : Expr) : e.nodes = e :: e.children.flatMap nodes := by
  cases e <;> simp [nodes, children, nodesOf_eq]

/-- The labels of a node and of the trees below it. -/
lemma labelCount_eq (e : Expr) :
    e.labelCount
      = 2 * [e].countP isTwoWay + 3 * [e].countP isDisjunction + labelCounts e.children := by
  cases e <;> simp [labelCount, labelCounts, children, isTwoWay, isDisjunction] <;> omega

/-- What holds of single trees holds of lists of them. -/
lemma labelCounts_eq {es : List Expr} (h : ∀ e ∈ es, e.labelCount = e.labelDemand) :
    labelCounts es = 2 * (es.flatMap nodes).countP isTwoWay
      + 3 * (es.flatMap nodes).countP isDisjunction := by
  induction es with
  | nil => rfl
  | cons e es ih =>
      obtain ⟨he, hes⟩ := List.forall_mem_cons.mp h
      rw [labelCounts, he, ih hes, labelDemand, List.flatMap_cons, List.countP_append,
        List.countP_append]
      omega

/-- A tree creates as many labels as its nodes demand. -/
lemma labelCount_eq_labelDemand (e : Expr) : e.labelCount = e.labelDemand := by
  induction e using inductChildren with
  | node e ih =>
      have hnode (p : Expr → Bool) :
          e.nodes.countP p = [e].countP p + (e.children.flatMap nodes).countP p := by
        rw [nodes_eq, ← List.countP_append, List.singleton_append]
      rw [labelCount_eq, labelCounts_eq ih, labelDemand, hnode, hnode]
      omega

end Expr

/-! ### Labels between two sessions -/

variable {σ : Type} [Sink σ]

namespace Session

/-- From one session to another, `count` labels are created with the next free numbers.
The sink is told the events, which place each of these labels once and no other, and jump
to each of them once and to no other. -/
structure Spends (count : Nat) (items : List Event) (s s' : Session σ) : Prop where
  sink : s'.sink = Sink.tell s.sink items
  size : s'.labels.size = s.labels.size + count
  placed : (items.filterMap Event.placed?).Perm (Label.row s.labels.size count)
  targets : (items.filterMap Event.target?).Perm (Label.row s.labels.size count)

namespace Spends

variable {count count' : Nat} {items items' : List Event} {s s₁ s' : Session σ}

lemma refl (s : Session σ) : Spends 0 [] s s :=
  ⟨rfl, rfl, .nil, .nil⟩

lemma trans (h : Spends count items s s₁) (h' : Spends count' items' s₁ s') :
    Spends (count + count') (items ++ items') s s' := by
  refine ⟨?_, ?_, ?_, ?_⟩
  · rw [h'.sink, h.sink, Sink.tell_append]
  · rw [h'.size, h.size, Nat.add_assoc]
  · rw [List.filterMap_append, Label.row_append, ← h.size]
    exact h.placed.append h'.placed
  · rw [List.filterMap_append, Label.row_append, ← h.size]
    exact h.targets.append h'.targets

lemma nodup_placed (h : Spends count items s s') : (items.filterMap Event.placed?).Nodup :=
  h.placed.nodup_iff.mpr (Label.nodup_row _ _)

/-- A label that is placed has had no position before. -/
lemma labelPosition?_eq_none {before after : List Event} {label : Label}
    (h : Spends count (before ++ .placed label :: after) s s') :
    (Sink.tell Code.empty before).labelPosition? label = none := by
  have hnodup := h.nodup_placed
  rw [List.filterMap_append] at hnodup
  have hnot : .placed label ∉ before := fun hmem => (List.nodup_append.mp hnodup).2.2 label
    (List.mem_filterMap.mpr ⟨_, hmem, rfl⟩) label List.mem_cons_self rfl
  rw [Code.labelPosition?_tell_empty, Event.position?_eq_none_iff.mpr hnot]

end Spends

/-- Control is at the end of the code, and every label has been placed. -/
structure Settled (s : Session σ) : Prop where
  live : s.reachable = true
  placed : ∀ label : Label, label.id < s.labels.size →
    ∃ depth, s.state? label = some (.placed depth)

omit [Sink σ] in
lemma Settled.start (sink : σ) : (Session.start sink).Settled :=
  ⟨rfl, fun _ hlt => absurd hlt (Nat.not_lt_zero _)⟩

omit [Sink σ] in
/-- A session in which all labels are placed can end. -/
lemma Settled.finish {s : Session σ} (h : s.Settled) : s.finish = .ok (s.sink, s.maxDepth) := by
  have hverify : s.labels.verify = .ok () := LabelTable.verify_eq_ok_iff.mpr h.placed
  rw [Session.finish, hverify]
  rfl

end Session

/-! ### Steps that succeed -/

namespace Session

/-- A sequence of steps, each with its options, that all succeed. -/
inductive Succeeds : Session σ → List (Config × Step) → Session σ → Prop
  | nil (s : Session σ) : Succeeds s [] s
  | cons {s s₁ s' : Session σ} {config : Config} {step : Step} {steps : List (Config × Step)}
      (hstep : s.step config step = (none, s₁)) (h : Succeeds s₁ steps s') :
      Succeeds s ((config, step) :: steps) s'

/-- What the steps of a session tell the sink, if labels are numbered from `first` on. -/
def stepEvents (first : Nat) : List (Config × Step) → List Event
  | [] => []
  | (config, step) :: steps =>
      Move.events (step.expr.moves config first) ++ stepEvents (first + step.expr.labelDemand) steps

/-- The number of labels that steps demand. -/
def demand : List (Config × Step) → Nat
  | [] => 0
  | (_, step) :: steps => step.expr.labelDemand + demand steps

lemma stepEvents_append (first : Nat) (steps steps' : List (Config × Step)) :
    stepEvents first (steps ++ steps')
      = stepEvents first steps ++ stepEvents (first + demand steps) steps' := by
  induction steps generalizing first with
  | nil => rfl
  | cons step steps ih =>
      obtain ⟨config, step⟩ := step
      rw [List.cons_append, stepEvents, stepEvents, ih, List.append_assoc, demand,
        Nat.add_assoc]

/-- **One step.**  Where every label is placed, a step that succeeds spends the labels of its
tree, and every label is placed again. -/
lemma Settled.step {s s' : Session σ} {config : Config} {step : Step} (hs : s.Settled)
    (hstep : s.step config step = (none, s')) :
    Spends step.expr.labelDemand (Move.events (step.expr.moves config s.labels.size)) s s' ∧
      s'.Settled := by
  have hrun := lower_of_step hstep
  have hcourse := step.expr.course_of_lower_eq_ok config hs.live hrun
  obtain ⟨hadvance, -⟩ := step.expr.advance_of_lower_eq_ok config hs.live hrun
  have huses := step.expr.uses_moves _ hcourse.clean
  rw [← Expr.labelCount_eq_labelDemand]
  refine ⟨⟨hcourse.sink, hadvance.size, huses.placed_row, hcourse.target_row huses⟩,
    hadvance.live, fun label hlabel => ?_⟩
  -- labels from before stay placed, and the new ones are those of the row
  by_cases hold : label.id < s.labels.size
  · obtain ⟨depth, hdepth⟩ := hs.placed label hold
    exact ⟨depth, hcourse.placed hdepth⟩
  · have hrow : label ∈ Label.row s.labels.size step.expr.labelCount := by
      rw [hadvance.size] at hlabel
      exact Label.mem_row.mpr ⟨Nat.not_lt.mp hold, hlabel⟩
    exact hcourse.placed_of_row huses hrow

namespace Succeeds

variable {s s' : Session σ} {steps earlier later : List (Config × Step)}

/-- **All steps.** -/
lemma spends (h : s.Succeeds steps s') (hs : s.Settled) :
    Spends (demand steps) (stepEvents s.labels.size steps) s s' ∧ s'.Settled := by
  induction h with
  | nil s => exact ⟨.refl s, hs⟩
  | cons hstep h ih =>
      obtain ⟨hfirst, hs₁⟩ := hs.step hstep
      obtain ⟨hrest, hs'⟩ := ih hs₁
      rw [hfirst.size] at hrest
      rw [demand]
      exact ⟨hfirst.trans hrest, hs'⟩

lemma exists_of_append (h : s.Succeeds (earlier ++ later) s') :
    ∃ s₁, s.Succeeds earlier s₁ ∧ s₁.Succeeds later s' := by
  induction earlier generalizing s with
  | nil => exact ⟨s, .nil s, h⟩
  | cons step earlier ih =>
      cases h with
      | cons hstep h =>
          obtain ⟨s₁, hearlier, hlater⟩ := ih h
          exact ⟨s₁, .cons hstep hearlier, hlater⟩

/-- **The labels of a session.**  Let any number of steps succeed in a session that starts
with no labels.  In each of them the labels that its tree demands are created, with the
numbers that follow those of the steps before, and during that step each of them is placed
once and is the target of one jump, while no other label is placed or jumped to.  So no label is
placed twice, in code none is ever moved, and the session can end. -/
theorem labels_spent {sink : σ} (h : (Session.start sink).Succeeds steps s) :
    ∃ told : List Event, Spends (demand steps) told (Session.start sink) s ∧
      (∀ earlier config step later, steps = earlier ++ (config, step) :: later →
        ∃ (s₁ s₂ : Session σ) (before items after : List Event), told = before ++ items ++ after ∧
          (Session.start sink).Succeeds earlier s₁ ∧
          Spends (demand earlier) before (Session.start sink) s₁ ∧
          s₁.step config step = (none, s₂) ∧ Spends step.expr.labelDemand items s₁ s₂ ∧
          s₂.Succeeds later s ∧ Spends (demand later) after s₂ s) ∧
      (told.filterMap Event.placed?).Nodup ∧
      (∀ before label after, told = before ++ .placed label :: after →
        (Sink.tell Code.empty before).labelPosition? label = none) ∧
      s.finish = .ok (s.sink, s.maxDepth) := by
  obtain ⟨hspends, hs⟩ := h.spends (.start sink)
  refine ⟨stepEvents (Session.start sink).labels.size steps, hspends, ?_, hspends.nodup_placed,
    ?_, hs.finish⟩
  · rintro earlier config step later rfl
    obtain ⟨s₁, hearlier, hrest⟩ := h.exists_of_append
    cases hrest with
    | @cons _ s₂ _ _ _ _ hstep hlater =>
        obtain ⟨hspends₁, hs₁⟩ := hearlier.spends (.start sink)
        obtain ⟨hspends₂, hs₂⟩ := hs₁.step hstep
        obtain ⟨hspends', -⟩ := hlater.spends hs₂
        refine ⟨s₁, s₂, _, _, _, ?_, hearlier, hspends₁, hstep, hspends₂, hlater, hspends'⟩
        rw [stepEvents_append, stepEvents, hspends₂.size, hspends₁.size, List.append_assoc]
  · intro before label after htold
    rw [htold] at hspends
    exact hspends.labelPosition?_eq_none

/-- A disjunction with a negation in it takes the labels 0 to 4, and a conditional after it
takes 5 and 6. -/
theorem labels_spent_of_two :
    let e : Expr := .or (.load ⟨1, .ofPrimitive .int⟩) (.not (.load ⟨2, .ofPrimitive .boolean⟩))
    let e' : Expr := .conditional (.load ⟨1, .ofPrimitive .int⟩) .receiver (.literal .null)
    let steps : List (Config × Step) := [({}, .compile e), ({}, .lower e')]
    ∃ s, (Session.start ({} : Trace)).Succeeds steps s ∧ s.finish = .ok (s.sink, s.maxDepth) ∧
      ∃ s₁ items, s₁.labels.size = 5 ∧ Spends 2 items s₁ s ∧
        (items.filterMap Event.placed?).Perm [⟨5⟩, ⟨6⟩] := by
  intro e e' steps
  have hok : ((Session.start ({} : Trace)).step {} (.compile e)).1 = none ∧
      (((Session.start ({} : Trace)).step {} (.compile e)).2.step {} (.lower e')).1 = none := by
    simp only [e, e']
    decide +kernel
  have hdemand : e.labelDemand = 5 := rfl
  have hdemand' : e'.labelDemand = 2 := rfl
  clear_value e e'
  generalize hfirst : (Session.start ({} : Trace)).step {} (.compile e) = r at hok
  obtain ⟨fault, s₁⟩ := r
  obtain ⟨rfl, hok'⟩ := hok
  have hsteps : (Session.start ({} : Trace)).Succeeds steps (s₁.step {} (.lower e')).2 :=
    .cons hfirst (.cons (Prod.ext hok' rfl) (.nil _))
  obtain ⟨told, -, hsplit, -, -, hfinish⟩ := labels_spent hsteps
  obtain ⟨s₂, s₃, before, items, after, -, -, hearlier, -, hspends, hlater, -⟩ :=
    hsplit [({}, .compile e)] {} (.lower e') [] rfl
  have hsize : s₂.labels.size = 5 := by
    rw [hearlier.size, demand, Step.expr, hdemand]
    rfl
  rw [Step.expr, hdemand'] at hspends
  generalize (s₁.step {} (.lower e')).2 = s at hsteps hlater hfinish
  cases hlater
  have hplaced := hspends.placed
  rw [hsize] at hplaced
  exact ⟨s₃, hsteps, hfinish, s₂, items, hsize, hspends, hplaced⟩

end Succeeds

end Session

end StackLowering
