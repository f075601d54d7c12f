import StackLowering.Proofs.Acceptance

/-!
Nodes that are refused.

* `Expr.nodeChecks`: all checks of a single node, the length of an array included.
* `Expr.moves_of_refused`: a node that fails one of them makes no move, but stops.
* `Session.step_refused`: a step with such a node leaves the session as it was.
-/

namespace StackLowering

/-! ### Choices that fail -/

namespace Selection

variable {α : Type} {choice : Except Fault α}

lemma exists_ok_of_fault? (h : fault? choice = none) : ∃ a, choice = .ok a := by
  cases choice with
  | ok a => exact ⟨a, rfl⟩
  | error fault => cases h

lemma eq_error_of_fault? {fault : Fault} (h : fault? choice = some fault) :
    choice = .error fault := by
  cases choice with
  | ok a => cases h
  | error fault' =>
      cases h
      rfl

end Selection

lemma Move.guarded_of_fault? {α : Type} {choice : Except Fault α} {next : α → List Move}
    {fault : Fault} (h : Selection.fault? choice = some fault) :
    guarded choice next = [refuse fault] := by
  rw [Selection.eq_error_of_fault? h, guarded]

/-! ### The checks of a node -/

lemma Check.first?_append (cs ds : List Check) :
    first? (cs ++ ds) = (first? cs).or (first? ds) := by
  rw [first?, List.find?_append, Option.map_or, first?, first?]

namespace Expr

/-- All checks of a node: after the others, an array has to have a length that fits the format. -/
def nodeChecks : Expr → List Check
  | e@(newArray _ elements) =>
      e.checks ++
        [⟨decide (Selection.lengthLimit ≤ elements.length), .arrayTooLarge elements.length⟩]
  | e => e.checks

lemma checks_of_nodeChecks {e : Expr} (h : Check.first? e.nodeChecks = none) :
    Check.first? e.checks = none := by
  cases e with
  | newArray element elements =>
      rw [nodeChecks, Check.first?_append, Option.or_eq_none_iff] at h
      exact h.1
  | _ => exact h

lemma fault?_arrayLength (elements : List Expr) :
    Selection.fault? (Selection.arrayLength elements) = Check.first?
      [⟨decide (Selection.lengthLimit ≤ elements.length), .arrayTooLarge elements.length⟩] := by
  rw [Selection.arrayLength, Check.first?_cons]
  by_cases h : elements.length < Selection.lengthLimit
  · simp [h, Selection.fault?]
  · simp [Nat.not_lt.mp h, h, Selection.fault?]

variable {config : Config} {e : Expr} {fault : Fault}

/-- An array that is not refused can be allocated and filled. -/
lemma arrayChoices_of_checks (naming : Naming) {element : Ty} {elements : List Expr}
    (h : Check.first? (newArray element elements).nodeChecks = none) :
    ∃ allocation store, Selection.newArray naming element = .ok allocation ∧
      Selection.arrayStore element = .ok store ∧
      Selection.arrayLength elements = .ok elements.length := by
  rw [nodeChecks, Check.first?_append, Option.or_eq_none_iff, ← Selection.fault?_newArray naming,
    ← fault?_arrayLength] at h
  obtain ⟨allocation, hallocation⟩ := Selection.exists_ok_of_fault? h.1
  obtain ⟨store, hstore⟩ := Selection.exists_arrayStore hallocation
  obtain ⟨length, hlength⟩ := Selection.exists_ok_of_fault? h.2
  obtain ⟨-, rfl⟩ := Selection.arrayLength_eq_ok.mp hlength
  exact ⟨allocation, store, hallocation, hstore, hlength⟩

/-- **A node that is refused** does nothing else, whatever the trees below it are. -/
theorem moves_of_refused (h : Check.first? e.nodeChecks = some fault) (first : Nat) :
    e.moves config first = [.refuse fault] := by
  cases e with
  | literal value => cases h
  | receiver => cases h
  | not operand => cases h
  | or lhs rhs => cases h
  | pop operand => cases h
  | load source => exact Move.guarded_of_fault? ((Selection.fault?_load source).trans h)
  | getField target field =>
      exact Move.guarded_of_fault? ((Selection.fault?_getField _ target field).trans h)
  | getStatic field =>
      exact Move.guarded_of_fault? ((Selection.fault?_getStatic _ field).trans h)
  | newInstance constructor arguments =>
      exact Move.guarded_of_fault? ((Selection.fault?_construction _ _ _).trans h)
  | invoke target method arguments =>
      exact Move.guarded_of_fault? ((Selection.fault?_invoke _ target _ _).trans h)
  | invokeStatic method arguments =>
      exact Move.guarded_of_fault? ((Selection.fault?_invokeStatic _ _ _).trans h)
  | conditional test onTrue onFalse =>
      exact Move.guarded_of_fault? ((Selection.fault?_arms test _ _).trans h)
  | eq lhs rhs type => exact Move.guarded_of_fault? ((Selection.fault?_equality lhs rhs _).trans h)
  | gt lhs rhs type => exact Move.guarded_of_fault? ((Selection.fault?_ordering lhs rhs _).trans h)
  | arithmetic op lhs rhs type =>
      exact Move.guarded_of_fault? ((Selection.fault?_arithmetic _ lhs rhs _).trans h)
  | widen operand source target =>
      exact Move.guarded_of_fault? ((Selection.fault?_widening operand _ _).trans h)
  | cast target operand =>
      exact Move.guarded_of_fault? ((Selection.fault?_cast _ _ operand).trans h)
  | newArray element elements =>
      -- of the three choices, the second one succeeds if the first one does
      rw [nodeChecks, Check.first?_append, ← Selection.fault?_newArray config.naming] at h
      rw [moves]
      cases hchoice : Selection.newArray config.naming element with
      | error fault' =>
          rw [hchoice] at h
          exact congrArg (fun fault => [Move.refuse fault]) (Option.some.inj h)
      | ok allocation =>
          obtain ⟨store, hstore⟩ := Selection.exists_arrayStore hchoice
          rw [hchoice, Selection.fault?, Option.none_or, ← fault?_arrayLength] at h
          rw [Move.guarded, hstore, Move.guarded, Move.guarded_of_fault? h]

end Expr

/-! ### Steps -/

namespace Session

variable {σ : Type} [Sink σ]

lemma lower_of_refused (config : Config) {e : Expr} {fault : Fault}
    (h : Check.first? e.nodeChecks = some fault) (s : Session σ) :
    (e.lower config).run s = .error fault s := by
  rw [Expr.lower_eq_follow, Expr.moves_of_refused h]
  rfl

/-- **A node that is refused leaves no trace.**  Let one of the checks of a node fail, in any
session, and let the trees below the node be as they may, in order or not.  Lowering the node stops
with the fault of the first of its checks that fails.  The sink, the labels, the depth of the stack,
its largest depth and whether control reaches the end of the code are as before.  So it is for
every step with the node. -/
theorem step_refused (config : Config) (s : Session σ) {e : Expr}
    (h : ∃ check ∈ e.nodeChecks, check.fails = true) :
    ∃ fault, Check.first? e.nodeChecks = some fault ∧
      (e.lower config).run s = .error fault s ∧
      ∀ step : Step, step.expr = e → s.step config step = (some fault, s) := by
  obtain ⟨check, hfind⟩ := Option.isSome_iff_exists.mp (List.find?_isSome.mpr h)
  have hfirst : Check.first? e.nodeChecks = some check.fault := by
    rw [Check.first?, hfind, Option.map_some]
  have hlower := lower_of_refused config hfirst s
  refine ⟨check.fault, hfirst, hlower, ?_⟩
  rintro (e | e) rfl
  · have hcompile : (e.compile config).run s = .error check.fault s := by
      rw [Expr.compile_eq, show (e.lower config).run s = _ from hlower]
    rw [step, Step.action, hcompile]
  · rw [step, Step.action, show (e.lower config).run s = _ from hlower]

/-- After a step that has failed, a static method is called on an object, with an argument too few.
That the object is a variable without a type of values is not even looked at. -/
theorem step_refused_of_invoke :
    let int : Ty := .ofPrimitive .int
    let failing : Expr := .arithmetic .add (.literal (.int 7)) (.pop (.literal .null)) int
    let s := ((Session.start ({} : Trace)).step {} (.lower failing)).2
    let method : Method := .ofStatic (.classOf "geometry" "Point") int "between" [int, int]
    let e : Expr := .invoke (.load ⟨1, .void⟩) method [.cast int .receiver]
    s.depth = 1 ∧ e.nodeChecks.countP Check.fails = 2 ∧
      s.step {} (.compile e) = (some (.receiverMismatch method), s) := by
  intro int failing s method e
  have hfails : e.nodeChecks.countP Check.fails = 2 := by
    simp only [e, method, int]
    decide +kernel
  have hfirst : Check.first? e.nodeChecks = some (.receiverMismatch method) := by
    simp only [e, method, int]
    decide +kernel
  have hdepth : s.depth = 1 := rfl
  clear_value s e
  have hexists : ∃ check ∈ e.nodeChecks, check.fails = true := by
    rw [← List.countP_pos_iff, hfails]
    decide
  obtain ⟨fault, hfault, -, hstep⟩ := step_refused {} s hexists
  rw [hfirst] at hfault
  cases hfault
  exact ⟨hdepth, hfails, hstep (.compile e) rfl⟩

end Session

end StackLowering
