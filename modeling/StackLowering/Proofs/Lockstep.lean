import StackLowering.Proofs.Likeness
import StackLowering.Proofs.Relocation

/-!
Two configurations, or two trees that differ in literals, that lead to the same moves.

* `Coupling`: which instructions may stand for each other in two runs.
* `Parallel`: two sessions that differ only in what their sinks have been told, and there only
  in such instructions.
* `Parallel.perform`, `Parallel.run`, `Parallel.step`: what one move, a run and a step keep
  parallel, whether or not they succeed.
* `Config.Coupled`: the same choices succeed under two configurations, with instructions that
  may stand for each other.
* `Expr.Alike.moves_inStep`: under such configurations the moves of trees that are alike go in
  step.
* `Parallel.after`, `Parallel.agree`: so whole sessions do, and they end with the same labels and
  depths.
-/

namespace StackLowering

/-! ### Instructions that stand for each other -/

/-- A relation between instructions that two runs may differ by.  Related instructions have the
same effect on the stack; an instruction that pushes no integer is related to itself, and so are
the two truth values. -/
structure Coupling (S : Instruction → Instruction → Prop) : Prop where
  effect : ∀ {i j}, S i j → i.effect = j.effect
  self : ∀ {i : Instruction}, i.pushedInt? = none → S i i
  truth : ∀ value : Bool, S (.iconst value.toUInt8) (.iconst value.toUInt8)

variable {S : Instruction → Instruction → Prop}

/-- Two moves that differ at most in the instruction they emit. -/
inductive Move.Coupled (S : Instruction → Instruction → Prop) : Move → Move → Prop
  | refuse (fault : Fault) : Coupled S (.refuse fault) (.refuse fault)
  | create : Coupled S .create .create
  | emit {i j : Instruction} (h : S i j) : Coupled S (.emit i) (.emit j)
  | branch (condition : Condition) (target : Label) :
      Coupled S (.branch condition target) (.branch condition target)
  | goto (target : Label) : Coupled S (.goto target) (.goto target)
  | place (label : Label) : Coupled S (.place label) (.place label)

/-- Two lists of moves that go in step. -/
abbrev Move.InStep (S : Instruction → Instruction → Prop) (ms ns : List Move) : Prop :=
  List.Forall₂ (Coupled S) ms ns

/-- Two events that differ at most in the instruction that is emitted. -/
inductive Event.Coupled (S : Instruction → Instruction → Prop) : Event → Event → Prop
  | emitted {i j : Instruction} (h : S i j) : Coupled S (.emitted i) (.emitted j)
  | placed (label : Label) : Coupled S (.placed label) (.placed label)

namespace Event

variable {items items' : List Event}

lemma instructions_coupled (h : List.Forall₂ (Coupled S) items items') :
    List.Forall₂ S (items.filterMap instruction?) (items'.filterMap instruction?) := by
  induction h with
  | nil => exact .nil
  | cons hitem _ ih =>
      cases hitem with
      | emitted hij => exact .cons hij ih
      | placed label => exact ih

/-- Events that go in step give every label the same position. -/
lemma position?_coupled (h : List.Forall₂ (Coupled S) items items') (label : Label) (pos : Nat) :
    position? label pos items = position? label pos items' := by
  induction h generalizing pos with
  | nil => rfl
  | cons hitem _ ih =>
      cases hitem with
      | emitted hij => exact ih (pos + 1)
      | placed other => rw [position?, position?, ih]

end Event

/-! ### Two runs -/

section Runs

variable {σ τ : Type} {a : σ} {b : τ} {s : Session σ} {t : Session τ}

/-- Computations one after the other end alike if each of them does. -/
lemma Matches.bind {R : Session σ → Session τ → Prop} {F : Fault → Fault}
    {code next : Lowering σ Unit} {code' next' : Lowering τ Unit}
    (h : Matches R F (code.run s) (code'.run t))
    (hnext : ∀ s' t', R s' t' → Matches R F (next.run s') (next'.run t')) :
    Matches R F ((do code; next).run s) ((do code'; next').run t) := by
  rw [EStateM.run_bind, EStateM.run_bind]
  generalize code.run s = r at h ⊢
  generalize code'.run t = r' at h ⊢
  cases h with
  | ok h => exact hnext _ _ h
  | error h => exact .error h

variable [Sink σ] [Sink τ]

/-- Two runs that began with the sinks `a` and `b` are in `s` and `t`.  The sinks have been told
events that go in step, and the sessions agree in all else. -/
structure Parallel (S : Instruction → Instruction → Prop) (a : σ) (b : τ) (s : Session σ)
    (t : Session τ) : Prop where
  told : ∃ items items', s.sink = Sink.tell a items ∧ t.sink = Sink.tell b items' ∧
    List.Forall₂ (Event.Coupled S) items items'
  labels : s.labels = t.labels
  depth : s.depth = t.depth
  maxDepth : s.maxDepth = t.maxDepth
  reachable : s.reachable = t.reachable

namespace Parallel

/-- Both sinks are told one event more. -/
lemma receive {item item' : Event} (h : Parallel S a b s t) (hitem : item.Coupled S item') :
    ∃ items items', Sink.receive s.sink item = Sink.tell a items ∧
      Sink.receive t.sink item' = Sink.tell b items' ∧
      List.Forall₂ (Event.Coupled S) items items' := by
  obtain ⟨items, items', hs, ht, hitems⟩ := h.told
  refine ⟨items ++ [item], items' ++ [item'], ?_, ?_, List.rel_append hitems (.cons hitem .nil)⟩
  · rw [Sink.tell_append, ← hs]
    rfl
  · rw [Sink.tell_append, ← ht]
    rfl

lemma emitted {i j : Instruction} (hS : Coupling S) (h : Parallel S a b s t) (hij : S i j) :
    Parallel S a b (s.emitted i) (t.emitted j) where
  told := h.receive (.emitted hij)
  labels := h.labels
  depth := by rw [Session.depth_emitted, Session.depth_emitted, h.depth, hS.effect hij]
  maxDepth := by
    show max s.maxDepth _ = max t.maxDepth _
    rw [h.maxDepth, h.depth, hS.effect hij]
  reachable := h.reachable

lemma created (h : Parallel S a b s t) : Parallel S a b s.created t.created where
  told := h.told
  labels := by rw [Session.created, Session.created, h.labels]
  depth := h.depth
  maxDepth := h.maxDepth
  reachable := h.reachable

lemma reference (h : Parallel S a b s t) (target : Label) :
    Matches (Parallel S a b) id ((Lowering.reference target).run s)
      ((Lowering.reference target).run t) := by
  -- both sessions ask the same table for the same depth, so one case split serves them
  rw [Lowering.run_reference, Lowering.run_reference, Lowering.run_onLabels, Lowering.run_onLabels,
    h.labels, h.depth]
  cases (LabelTable.reference target t.depth).run t.labels with
  | error fault labels => exact .error ⟨h.told, rfl, rfl, h.maxDepth, h.reachable⟩
  | ok _ labels => exact .ok ⟨h.told, rfl, rfl, h.maxDepth, h.reachable⟩

lemma place (h : Parallel S a b s t) (label : Label) :
    Matches (Parallel S a b) id ((Lowering.place label).run s) ((Lowering.place label).run t) := by
  rw [Lowering.run_place, Lowering.run_place, h.labels, h.depth, h.reachable]
  cases (LabelTable.place label (if t.reachable then some t.depth else none)).run t.labels with
  | error fault labels => exact .error ⟨h.told, rfl, rfl, h.maxDepth, rfl⟩
  | ok depth labels => exact .ok ⟨h.receive (.placed label), rfl, rfl, h.maxDepth, rfl⟩

/-- **One move.** -/
lemma perform {m n : Move} (hS : Coupling S) (h : Parallel S a b s t) (hm : m.Coupled S n) :
    Matches (Parallel S a b) id (m.perform.run s) (n.perform.run t) := by
  cases hm with
  | refuse fault => exact .error h
  | create =>
      by_cases hlt : t.labels.size < LabelTable.limit
      · rw [Move.run_create_of_lt hlt, Move.run_create_of_lt (h.labels ▸ hlt)]
        exact .ok h.created
      · have hle := Nat.not_lt.mp hlt
        rw [Move.run_create_of_le hle, Move.run_create_of_le (h.labels ▸ hle)]
        exact .error h
  | emit hij => exact .ok (h.emitted hS hij)
  | branch condition target =>
      exact .bind (.ok (h.emitted hS (hS.self rfl))) fun s' t' h' => h'.reference target
  | goto target =>
      refine .bind (.ok (h.emitted hS (hS.self rfl))) fun s' t' h' => ?_
      refine .bind (h'.reference target) fun s₁ t₁ h₁ => ?_
      exact .ok ⟨h₁.told, h₁.labels, h₁.depth, h₁.maxDepth, rfl⟩
  | place label => exact h.place label

/-- **All moves.** -/
lemma run {ms ns : List Move} (hS : Coupling S) (h : Parallel S a b s t)
    (hms : Move.InStep S ms ns) :
    Matches (Parallel S a b) id ((follow ms).run s) ((follow ns).run t) := by
  induction hms generalizing s t with
  | nil => exact .ok h
  | cons hm _ ih => exact .bind (h.perform hS hm) fun s' t' h' => ih h'

end Parallel

end Runs

/-! ### Choices -/

/-- Two choices that both succeed, with results that `Q` relates, or both fail with one fault. -/
inductive Selection.Coupled {α β : Type} (Q : α → β → Prop) :
    Except Fault α → Except Fault β → Prop
  | ok {a : α} {b : β} (h : Q a b) : Coupled Q (.ok a) (.ok b)
  | error (fault : Fault) : Coupled Q (.error fault) (.error fault)

lemma Selection.Coupled.refl {α : Type} {Q : α → α → Prop} {choice : Except Fault α}
    (h : ∀ a, choice = .ok a → Q a a) : Coupled Q choice choice := by
  cases choice with
  | ok a => exact .ok (h a rfl)
  | error fault => exact .error fault

lemma Selection.Coupled.imp {α β : Type} {Q Q' : α → β → Prop} {choice : Except Fault α}
    {choice' : Except Fault β} (h : Coupled Q choice choice') (himp : ∀ a b, Q a b → Q' a b) :
    Coupled Q' choice choice' := by
  cases h with
  | ok h => exact .ok (himp _ _ h)
  | error fault => exact .error fault

/-- Under two configurations every literal and every integer is pushed by instructions that `S`
relates, the choices that depend on names succeed together, with such instructions, and the depth
is checked under both or under neither. -/
structure Config.Coupled (S : Instruction → Instruction → Prop) (config config' : Config) :
    Prop where
  checkBalance : config.options.checkBalance = config'.options.checkBalance
  push : ∀ value : Literal, S (value.push config) (value.push config')
  pushInt : ∀ n, S (.pushInt config.options.compactConstants n)
    (.pushInt config'.options.compactConstants n)
  fieldAccess : ∀ field onObject, Selection.Coupled
    (fun a b => S (.getField a) (.getField b) ∧ S (.getStatic a) (.getStatic b))
    (Selection.fieldAccess config.naming field onObject)
    (Selection.fieldAccess config'.naming field onObject)
  construction : ∀ method arguments, Selection.Coupled
    (fun a b => S (.new a.owner) (.new b.owner) ∧ S (.invoke a) (.invoke b))
    (Selection.construction config.naming method arguments)
    (Selection.construction config'.naming method arguments)
  call : ∀ method onObject arguments, Selection.Coupled (fun a b => S (.invoke a) (.invoke b))
    (Selection.call config.naming method onObject arguments)
    (Selection.call config'.naming method onObject arguments)
  cast : ∀ type, Selection.Coupled S (Selection.cast config.naming type)
    (Selection.cast config'.naming type)
  newArray : ∀ type, Selection.Coupled S (Selection.newArray config.naming type)
    (Selection.newArray config'.naming type)

/-! ### The moves of a tree -/

namespace Move.InStep

lemma guarded {α β : Type} {Q : α → β → Prop} {choice : Except Fault α} {choice' : Except Fault β}
    {next : α → List Move} {next' : β → List Move} (h : Selection.Coupled Q choice choice')
    (hnext : ∀ a b, Q a b → InStep S (next a) (next' b)) :
    InStep S (Move.guarded choice next) (Move.guarded choice' next') := by
  cases h with
  | ok h => exact hnext _ _ h
  | error fault => exact .cons (.refuse fault) .nil

/-- A choice that does not depend on the configuration. -/
lemma chosen {α : Type} {choice : Except Fault α} {next next' : α → List Move}
    (hnext : ∀ a, choice = .ok a → InStep S (next a) (next' a)) :
    InStep S (Move.guarded choice next) (Move.guarded choice next') := by
  refine guarded (Q := fun a b => choice = .ok a ∧ a = b) (.refl fun a ha => ⟨ha, rfl⟩) ?_
  rintro a _ ⟨ha, rfl⟩
  exact hnext a ha

lemma consumed {L : Literal → Literal → Prop} {e e' : Expr} {ms ns : List Move}
    (he : e.Alike L e') (h : InStep S ms ns) :
    InStep S (Move.consumed e ms) (Move.consumed e' ns) := by
  rw [Move.consumed, Move.consumed, he.value]
  exact chosen fun _ _ => h

lemma append {ms ms' ns ns' : List Move} (h : InStep S ms ns) (h' : InStep S ms' ns') :
    InStep S (ms ++ ms') (ns ++ ns') :=
  List.rel_append h h'

lemma cons {m n : Move} {ms ns : List Move} (hm : m.Coupled S n) (h : InStep S ms ns) :
    InStep S (m :: ms) (n :: ns) :=
  List.Forall₂.cons hm h

lemma emit {i j : Instruction} {ms ns : List Move} (hij : S i j) (h : InStep S ms ns) :
    InStep S (.emit i :: ms) (.emit j :: ns) :=
  cons (.emit hij) h

variable (hS : Coupling S)

include hS

lemma joinTruth (onFalse done : Nat) :
    InStep S (Move.joinTruth onFalse done) (Move.joinTruth onFalse done) :=
  .cons (.emit (hS.truth true)) <| .cons .create <| .cons (.goto _) <| .cons (.place _) <|
    .cons (.emit (hS.truth false)) <| .cons (.place _) .nil

lemma truth (first : Nat) (condition : Condition) :
    InStep S (Move.truth first condition) (Move.truth first condition) :=
  .cons .create <| .cons (.branch _ _) <| joinTruth hS _ _

lemma decideBy (first : Nat) (comparison : Selection.Comparison) :
    InStep S (Move.decideBy first comparison) (Move.decideBy first comparison) := by
  refine append ?_ (truth hS _ _)
  cases comparison.reduce with
  | none => exact .nil
  | some comparator => exact .cons (.emit (hS.self rfl)) .nil

end Move.InStep

namespace Expr.Alike

open Move (InStep)

variable {L : Literal → Literal → Prop} {config config' : Config}

/-- Trees that are alike, with moves that go in step wherever their labels begin. -/
abbrev InStepAnywhere (S : Instruction → Instruction → Prop) (config config' : Config)
    (e e' : Expr) : Prop :=
  ∀ first, InStep S (e.moves config first) (e'.moves config' first)

lemma argumentMoves_inStep {arguments arguments' : List Expr}
    (h : List.Forall₂ (fun e e' => ∃ _ : Alike L e e', InStepAnywhere S config config' e e')
      arguments arguments') (first : Nat) :
    InStep S (argumentMoves config first arguments) (argumentMoves config' first arguments') := by
  induction h generalizing first with
  | nil => exact .nil
  | cons hhead _ ih =>
      obtain ⟨halike, hmoves⟩ := hhead
      rw [argumentMoves, argumentMoves, ← halike.labelCount]
      exact .append (.consumed halike (hmoves first)) (ih _)

lemma elementMoves_inStep (hS : Coupling S) (hconfig : config.Coupled S config')
    {store : Instruction} (hstore : S store store) {elements elements' : List Expr}
    (h : List.Forall₂ (fun e e' => ∃ _ : Alike L e e', InStepAnywhere S config config' e e')
      elements elements') (first index : Nat) :
    InStep S (elementMoves config store first index elements)
      (elementMoves config' store first index elements') := by
  induction h generalizing first index with
  | nil => exact .nil
  | cons hhead _ ih =>
      obtain ⟨halike, hmoves⟩ := hhead
      rw [elementMoves, elementMoves, ← halike.labelCount]
      refine .emit (hS.self rfl) (.emit (hconfig.pushInt _) ?_)
      exact .append (.consumed halike (hmoves first)) (.emit hstore (ih _ _))

/-- **Under configurations that make the same choices, the moves of trees that are alike go in
step**, if their literals are pushed by instructions that may stand for each other. -/
theorem moves_inStep (hS : Coupling S) (hconfig : config.Coupled S config')
    (hpush : ∀ {a b : Literal}, L a b → S (a.push config) (b.push config')) {e e' : Expr}
    (h : Alike L e e') : InStepAnywhere S config config' e e' := by
  induction h using Alike.induct with
  | literal h => exact fun first => .emit (hpush h) .nil
  | load source =>
      refine fun first => .chosen fun i hi => ?_
      obtain ⟨c, -, rfl⟩ := Selection.load_eq_ok.mp hi
      exact .emit (hS.self rfl) .nil
  | receiver => exact fun first => .emit (hS.self rfl) .nil
  | getField field h ih =>
      refine fun first => .guarded (hconfig.fieldAccess field true) fun access access' hab => ?_
      exact .append (.consumed h (ih first)) (.emit hab.1 .nil)
  | getStatic field =>
      refine fun first => .guarded (hconfig.fieldAccess field false) fun access access' hab => ?_
      exact .emit hab.2 .nil
  | newInstance constructor h ih =>
      intro first
      rw [moves, moves, ← h.length_eq]
      refine .guarded (hconfig.construction constructor _) fun call call' hcall => ?_
      refine .emit hcall.1 (.emit (hS.self rfl) ?_)
      exact .append (argumentMoves_inStep ih first) (.emit hcall.2 .nil)
  | invoke method h hs ih ihs =>
      intro first
      rw [moves, moves, ← hs.length_eq, ← h.labelCount]
      refine .guarded (hconfig.call method true _) fun call call' hcall => ?_
      refine .append (.consumed h (ih first)) ?_
      exact .append (argumentMoves_inStep ihs _) (.emit hcall .nil)
  | invokeStatic method h ih =>
      intro first
      rw [moves, moves, ← h.length_eq]
      refine .guarded (hconfig.call method false _) fun call call' hcall => ?_
      exact .append (argumentMoves_inStep ih first) (.emit hcall .nil)
  | not h ih =>
      intro first
      rw [moves, moves, ← h.labelCount]
      exact .append (.consumed h (ih first)) (.truth hS _ _)
  | or hl hr ihl ihr =>
      intro first
      rw [moves, moves, ← hl.labelCount, ← hr.labelCount]
      refine .append (.consumed hl (ihl first)) (.cons .create (.cons (.branch _ _) ?_))
      refine .append (.consumed hr (ihr _)) (.cons .create (.cons (.branch _ _) ?_))
      exact .cons (.place _) (.joinTruth hS _ _)
  | conditional ht hl hr iht ihl ihr =>
      intro first
      rw [moves, moves, hl.arms hr, ← ht.labelCount, ← hl.labelCount]
      refine .chosen fun _ _ => ?_
      refine .append (.consumed ht (iht first)) (.cons .create (.cons (.branch _ _) ?_))
      refine .append (ihl _) (.cons .create (.cons (.goto _) (.cons (.place _) ?_)))
      exact .append (ihr _) (.cons (.place _) .nil)
  | eq type hl hr ihl ihr =>
      intro first
      rw [moves, moves, ← hl.labelCount, ← hr.labelCount]
      refine .chosen fun comparison _ => .append (.consumed hl (ihl first)) ?_
      exact .append (.consumed hr (ihr _)) (.decideBy hS _ _)
  | gt type hl hr ihl ihr =>
      intro first
      rw [moves, moves, ← hl.labelCount, ← hr.labelCount]
      refine .chosen fun comparison _ => .append (.consumed hl (ihl first)) ?_
      exact .append (.consumed hr (ihr _)) (.decideBy hS _ _)
  | arithmetic op type hl hr ihl ihr =>
      intro first
      rw [moves, moves, ← hl.labelCount]
      refine .chosen fun i hi => ?_
      obtain ⟨n, -, rfl⟩ := Selection.arithmetic_eq_ok.mp hi
      refine .append (.consumed hl (ihl first)) (.append (.consumed hr (ihr _)) ?_)
      exact .emit (hS.self rfl) .nil
  | widen source target h ih =>
      refine fun first => .chosen fun conversion hconversion => ?_
      refine .append (.consumed h (ih first)) ?_
      obtain ⟨n, m, -, -, ⟨-, rfl⟩ | ⟨-, rfl⟩⟩ := Selection.widening_eq_ok.mp hconversion
      · exact .nil
      · exact .emit (hS.self rfl) .nil
  | cast target h ih =>
      refine fun first => .guarded (hconfig.cast target) fun i j hij => ?_
      exact .append (.consumed h (ih first)) (.emit hij .nil)
  | newArray element h ih =>
      intro first
      rw [moves, moves, ← arrayLength h]
      refine .guarded (hconfig.newArray element) fun i j hij => ?_
      refine .chosen fun store hstore => .chosen fun length _ => ?_
      obtain ⟨kind, -, rfl⟩ := Selection.arrayStore_eq_ok.mp hstore
      refine .emit (hconfig.pushInt _) (.emit hij ?_)
      exact elementMoves_inStep hS hconfig (hS.self rfl) ih first 0
  | pop h ih =>
      intro first
      rw [moves, moves]
      exact .append (.consumed h (ih first)) (.emit (hS.self rfl) .nil)

end Expr.Alike

/-! ### Sessions -/

namespace Parallel

section Steps

variable {σ τ : Type} [Sink σ] [Sink τ] {a : σ} {b : τ} {s : Session σ} {t : Session τ}

lemma start (a : σ) (b : τ) : Parallel S a b (.start a) (.start b) :=
  ⟨⟨[], [], rfl, rfl, .nil⟩, rfl, rfl, rfl, rfl⟩

lemma refl (s : Session σ) : Parallel S s.sink s.sink s s :=
  ⟨⟨[], [], rfl, rfl, .nil⟩, rfl, rfl, rfl, rfl⟩

/-- Sessions that agree begin anew with the sinks that they have. -/
lemma anew {S' : Instruction → Instruction → Prop} (h : Parallel S a b s t) :
    Parallel S' s.sink t.sink s t :=
  ⟨⟨[], [], rfl, rfl, .nil⟩, h.labels, h.depth, h.maxDepth, h.reachable⟩

/-- **One step**, on trees that are alike.  It has the same result in both sessions. -/
lemma stepAlike {L : Literal → Literal → Prop} {config config' : Config} (hS : Coupling S)
    (hconfig : config.Coupled S config')
    (hpush : ∀ {a b : Literal}, L a b → S (a.push config) (b.push config'))
    (h : Parallel S a b s t) {step step' : Step} (hstep : step.Coupled (Expr.Alike L) step') :
    (s.step config step).1 = (t.step config' step').1 ∧
      Parallel S a b (s.step config step).2 (t.step config' step').2 := by
  -- the lowering itself; what a step adds is the check of the depth, with no shift between the two
  have hlower : Matches (Parallel S a b) id ((step.expr.lower config).run s)
      ((step'.expr.lower config').run t) := by
    rw [Expr.lower_eq_follow, Expr.lower_eq_follow, h.labels]
    exact h.run hS (hstep.expr.moves_inStep hS hconfig hpush _)
  obtain ⟨hresult, hnext⟩ := hlower.step 0 (hstep.imp fun _ _ h => h.stackEffect)
    hconfig.checkBalance (fun expected actual => by rw [Nat.zero_add, Nat.zero_add, id])
    (by rw [Nat.zero_add, h.depth]) (fun s' t' h' => by rw [Nat.zero_add, h'.depth])
  exact ⟨by rw [hresult, Option.map_id_fun, id], hnext⟩

lemma step {config config' : Config} (hS : Coupling S) (hconfig : config.Coupled S config')
    (h : Parallel S a b s t) (step : Step) :
    (s.step config step).1 = (t.step config' step).1 ∧
      Parallel S a b (s.step config step).2 (t.step config' step).2 := by
  refine h.stepAlike (L := (· = ·)) hS hconfig ?_ (.refl (Expr.Alike.refl fun _ => rfl) step)
  rintro value _ rfl
  exact hconfig.push value

/-- **All steps.** -/
lemma after {steps steps' : List (Config × Step)} (hS : Coupling S)
    (hsteps : List.Forall₂ (fun x y => x.1.Coupled S y.1 ∧ x.2 = y.2) steps steps')
    (h : Parallel S a b s t) : Parallel S a b (s.after steps) (t.after steps') := by
  induction hsteps generalizing s t with
  | nil => exact h
  | @cons x y _ _ hxy _ ih =>
      obtain ⟨config, step⟩ := x
      obtain ⟨config', step'⟩ := y
      obtain ⟨hconfig, rfl : step = step'⟩ := hxy
      exact ih (h.step hS hconfig step).2

end Steps

variable {c c' : Code} {s t : Session Code}

/-- The instructions that have come to code since the two runs began. -/
lemma instructions (h : Parallel S c c' s t) :
    ∃ new new', s.sink.instructions.toList = c.instructions.toList ++ new ∧
      t.sink.instructions.toList = c'.instructions.toList ++ new' ∧ List.Forall₂ S new new' := by
  obtain ⟨items, items', hs, ht, hitems⟩ := h.told
  refine ⟨_, _, ?_, ?_, Event.instructions_coupled hitems⟩
  · rw [hs, Code.instructions_tell]
  · rw [ht, Code.instructions_tell]

end Parallel

/-- Two sessions have the same labels with the same positions, and the same depths. -/
structure Session.Agree (s t : Session Code) : Prop where
  labels : s.labels = t.labels
  position : ∀ label, s.sink.labelPosition? label = t.sink.labelPosition? label
  depth : s.depth = t.depth
  maxDepth : s.maxDepth = t.maxDepth
  reachable : s.reachable = t.reachable

/-- Sessions that have gone in step from one code agree. -/
lemma Parallel.agree {c : Code} {s t : Session Code} (h : Parallel S c c s t) : s.Agree t where
  labels := h.labels
  position label := by
    obtain ⟨items, items', hs, ht, hitems⟩ := h.told
    rw [hs, ht, Code.labelPosition?_tell, Code.labelPosition?_tell,
      Event.position?_coupled hitems]
  depth := h.depth
  maxDepth := h.maxDepth
  reachable := h.reachable

end StackLowering
