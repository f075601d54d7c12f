import StackLowering.Proofs.ControlFlow
import StackLowering.Proofs.Interning

/-!
Lowering does not depend on what came before it.

* `Move.relocate`: a move with the labels numbered and the depths counted from elsewhere.
* `Expr.moves_add`: the moves of a tree that starts at another label.
* `Relocated`: a session in the course of a run, and the session in which the same run from
  the beginning would be.
* `Relocated.perform`, `Relocated.run`, `Relocated.run_ok`: what the two do for one move and for
  a run.
* `Session.step_relocated`: a step in any session does what it does in a new one.
-/

namespace StackLowering

/-! ### Labels and depths from elsewhere -/

/-- The label whose number is larger by `n`. -/
def Label.shift (n : Nat) (label : Label) : Label :=
  ⟨n + label.id⟩

lemma Label.shift_inj {n : Nat} {label other : Label} :
    label.shift n = other.shift n ↔ label = other := by
  refine ⟨fun h => Label.eq_of_id_eq ?_, congrArg _⟩
  exact Nat.add_left_cancel (Label.mk.inj h)

lemma Label.id_shift_ne {label other : Label} (h : other.id ≠ label.id) (n : Nat) :
    (other.shift n).id ≠ (label.shift n).id :=
  fun hid => h (Nat.add_left_cancel hid)

namespace Instruction

/-- An instruction whose target has a number larger by `n`. -/
def shift (n : Nat) : Instruction → Instruction
  | branch condition target => branch condition (target.shift n)
  | goto target => goto (target.shift n)
  | i => i

lemma shift_of_target? {n : Nat} {i : Instruction} (h : i.target? = none) : i.shift n = i := by
  cases i with
  | branch condition target => cases h
  | goto target => cases h
  | _ => rfl

@[simp] lemma effect_shift (n : Nat) (i : Instruction) : (i.shift n).effect = i.effect := by
  cases i <;> rfl

@[simp] lemma constant?_shift (n : Nat) (i : Instruction) :
    (i.shift n).constant? = i.constant? := by
  cases i <;> rfl

end Instruction

namespace Event

/-- An event whose labels have numbers larger by `n`. -/
def shift (n : Nat) : Event → Event
  | emitted i => emitted (i.shift n)
  | placed label => placed (label.shift n)

lemma instructions_shift (n : Nat) (items : List Event) :
    (items.map (shift n)).filterMap instruction?
      = (items.filterMap instruction?).map (Instruction.shift n) := by
  induction items with
  | nil => rfl
  | cons item items ih =>
      cases item with
      | emitted i => exact congrArg (i.shift n :: ·) ih
      | placed label => exact ih

/-- Labels that are shifted have positions that are shifted. -/
lemma position?_shift (n start : Nat) (label : Label) (items : List Event) (pos : Nat) :
    position? (label.shift n) (start + pos) (items.map (shift n))
      = (position? label pos items).map (start + ·) := by
  induction items generalizing pos with
  | nil => rfl
  | cons item items ih =>
      cases item with
      | emitted i => exact ih (pos + 1)
      | placed other =>
          rw [List.map_cons, shift, position?, position?, ih, Option.map_or]
          by_cases heq : other = label
          · rw [if_pos heq, if_pos (Label.shift_inj.mpr heq), Option.map_some]
          · rw [if_neg heq, if_neg (mt Label.shift_inj.mp heq), Option.map_none]

/-- Labels below the shift get no position. -/
lemma position?_shift_of_lt {n : Nat} {label : Label} (h : label.id < n) (items : List Event)
    (pos : Nat) : position? label pos (items.map (shift n)) = none := by
  refine position?_eq_none_iff.mpr fun hmem => ?_
  obtain ⟨original, -, heq⟩ := List.mem_map.mp hmem
  cases original with
  | emitted i => cases heq
  | placed other =>
      cases heq
      exact Nat.not_lt.mpr (Nat.le_add_right n other.id) h

end Event

/-- A fault whose depths are larger by `depth`. -/
def Fault.raise (depth : Nat) : Fault → Fault
  | stackImbalance expected actual => stackImbalance (depth + expected) (depth + actual)
  | fault => fault

lemma Fault.raise_of_isDefect {fault : Fault} (h : fault.isDefect = false) (depth : Nat) :
    fault.raise depth = fault := by
  cases fault with
  | stackImbalance expected actual => cases h
  | _ => rfl

/-- What is known of a label where all depths are larger by `depth`. -/
def LabelState.raise (depth : Nat) : LabelState → LabelState
  | pending recorded => pending (recorded.map (depth + ·))
  | placed found => placed (depth + found)

/-! ### Moves from elsewhere -/

namespace Move

/-- A move whose labels have numbers larger by `n`, with depths larger by `depth`. -/
def relocate (n depth : Nat) : Move → Move
  | refuse fault => refuse (fault.raise depth)
  | create => create
  | emit i => emit i
  | branch condition target => branch condition (target.shift n)
  | goto target => goto (target.shift n)
  | place label => place (label.shift n)

variable {n depth : Nat}

/-- Choices fail for reasons that have nothing to do with labels and depths. -/
lemma guarded_relocate {α : Type} {choice : Except Fault α} {next next' : α → List Move}
    (h : Selection.Ordinary choice) (hnext : ∀ a, next' a = (next a).map (relocate n depth)) :
    guarded choice next' = (guarded choice next).map (relocate n depth) := by
  cases choice with
  | ok a => exact hnext a
  | error fault =>
      have hfault := Fault.raise_of_isDefect (h fault rfl) depth
      simp [guarded, relocate, hfault]

lemma consumed_relocate {e : Expr} {ms ms' : List Move} (h : ms' = ms.map (relocate n depth)) :
    consumed e ms' = (consumed e ms).map (relocate n depth) :=
  guarded_relocate (Selection.ordinary_value e) fun _ => h

lemma decideBy_relocate (first : Nat) (comparison : Selection.Comparison) :
    decideBy (n + first) comparison = (decideBy first comparison).map (relocate n depth) := by
  rw [decideBy, decideBy, List.map_append]
  cases comparison.reduce <;> rfl

end Move

namespace Expr

open Move (relocate consumed_relocate guarded_relocate decideBy_relocate)

variable {config : Config} {n depth : Nat}

lemma argumentMoves_add {arguments : List Expr}
    (ih : ∀ e ∈ arguments, ∀ first,
      e.moves config (n + first) = (e.moves config first).map (relocate n depth)) (first : Nat) :
    argumentMoves config (n + first) arguments
      = (argumentMoves config first arguments).map (relocate n depth) := by
  induction arguments generalizing first with
  | nil => rfl
  | cons e es ihes =>
      obtain ⟨he, hes⟩ := List.forall_mem_cons.mp ih
      rw [argumentMoves, argumentMoves, List.map_append, consumed_relocate (he first),
        Nat.add_assoc, ihes hes]

lemma elementMoves_add {store : Instruction} {elements : List Expr}
    (ih : ∀ e ∈ elements, ∀ first,
      e.moves config (n + first) = (e.moves config first).map (relocate n depth))
    (first index : Nat) :
    elementMoves config store (n + first) index elements
      = (elementMoves config store first index elements).map (relocate n depth) := by
  induction elements generalizing first index with
  | nil => rfl
  | cons e es ihes =>
      obtain ⟨he, hes⟩ := List.forall_mem_cons.mp ih
      simp only [elementMoves, List.map_cons, List.map_append, consumed_relocate (he first),
        Nat.add_assoc, ihes hes]
      rfl

/-- Two operands, and the moves after them. -/
lemma operands_add {lhs rhs : Expr}
    (ihl : ∀ first, lhs.moves config (n + first) = (lhs.moves config first).map (relocate n depth))
    (ihr : ∀ first, rhs.moves config (n + first) = (rhs.moves config first).map (relocate n depth))
    (first : Nat) {ns ns' : List Move} (hns : ns' = ns.map (relocate n depth)) :
    Move.consumed lhs (lhs.moves config (n + first)) ++
        (Move.consumed rhs (rhs.moves config (n + first + lhs.labelCount)) ++ ns')
      = (Move.consumed lhs (lhs.moves config first) ++
        (Move.consumed rhs (rhs.moves config (first + lhs.labelCount)) ++ ns)).map
          (relocate n depth) := by
  rw [List.map_append, List.map_append, consumed_relocate (ihl first), Nat.add_assoc,
    consumed_relocate (ihr _), hns]

/-- **The moves of a tree do not depend on the labels before it.** -/
theorem moves_add (config : Config) (n depth : Nat) (e : Expr) : ∀ first,
    e.moves config (n + first) = (e.moves config first).map (relocate n depth) := by
  -- every node numbers its labels from its own `first` on, which carries the shift to the leaves
  induction e using Expr.induct with
  | literal value => exact fun first => rfl
  | load source =>
      exact fun first => guarded_relocate (Selection.ordinary_load source) fun _ => rfl
  | receiver => exact fun first => rfl
  | getField target field ih =>
      refine fun first => guarded_relocate (Selection.ordinary_fieldAccess _ _ _) fun access => ?_
      rw [List.map_append, consumed_relocate (ih first)]
      rfl
  | getStatic field =>
      exact fun first => guarded_relocate (Selection.ordinary_fieldAccess _ _ _) fun _ => rfl
  | newInstance constructor arguments ih =>
      refine fun first => guarded_relocate (Selection.ordinary_construction _ _ _) fun call => ?_
      rw [argumentMoves_add ih, List.map_cons, List.map_cons, List.map_append]
      rfl
  | invoke target method arguments ih ihs =>
      refine fun first => guarded_relocate (Selection.ordinary_call _ _ _ _) fun call => ?_
      rw [List.map_append, List.map_append, consumed_relocate (ih first), Nat.add_assoc,
        argumentMoves_add ihs]
      rfl
  | invokeStatic method arguments ih =>
      refine fun first => guarded_relocate (Selection.ordinary_call _ _ _ _) fun call => ?_
      rw [argumentMoves_add ih, List.map_append]
      rfl
  | not operand ih =>
      intro first
      rw [moves, moves, List.map_append, consumed_relocate (ih first), Nat.add_assoc]
      rfl
  | or lhs rhs ihl ihr =>
      intro first
      have hrhs := ihr (first + (lhs.labelCount + 1))
      simp only [moves, Move.joinTruth, List.map_append, List.map_cons, List.map_nil, relocate,
        Label.shift, Nat.add_assoc, consumed_relocate (ihl first), consumed_relocate hrhs]
  | conditional test onTrue onFalse iht ihl ihr =>
      refine fun first => guarded_relocate (Selection.ordinary_arms _ _) fun _ => ?_
      have hlhs := ihl (first + (test.labelCount + 1))
      have hrhs := ihr (first + (test.labelCount + (1 + (onTrue.labelCount + 1))))
      simp only [List.map_append, List.map_cons, List.map_nil, relocate, Label.shift, Nat.add_assoc,
        consumed_relocate (iht first), hlhs, hrhs]
  | eq lhs rhs type ihl ihr =>
      refine fun first => guarded_relocate (Selection.ordinary_equality _) fun comparison => ?_
      refine operands_add ihl ihr first ?_
      rw [Nat.add_assoc, Nat.add_assoc, decideBy_relocate, Nat.add_assoc]
  | gt lhs rhs type ihl ihr =>
      refine fun first => guarded_relocate (Selection.ordinary_ordering _) fun comparison => ?_
      refine operands_add ihl ihr first ?_
      rw [Nat.add_assoc, Nat.add_assoc, decideBy_relocate, Nat.add_assoc]
  | arithmetic op lhs rhs type ihl ihr =>
      exact fun first => guarded_relocate (Selection.ordinary_arithmetic _ _) fun i =>
        operands_add ihl ihr first rfl
  | widen operand source target ih =>
      refine fun first => guarded_relocate (Selection.ordinary_widening _ _) fun conversion => ?_
      rw [List.map_append, consumed_relocate (ih first)]
      cases conversion <;> rfl
  | cast target operand ih =>
      refine fun first => guarded_relocate (Selection.ordinary_cast _ _) fun i => ?_
      rw [List.map_append, consumed_relocate (ih first)]
      rfl
  | newArray element elements ih =>
      refine fun first => guarded_relocate (Selection.ordinary_newArray _ _) fun allocation =>
        guarded_relocate (Selection.ordinary_arrayStore _) fun store =>
          guarded_relocate (Selection.ordinary_arrayLength _) fun length => ?_
      rw [elementMoves_add ih, List.map_cons, List.map_cons]
      rfl
  | pop operand ih =>
      intro first
      rw [moves, moves, List.map_append, consumed_relocate (ih first)]
      rfl

end Expr

/-- A run that is relocated tells its sink the same events, with the labels from elsewhere. -/
lemma Course.events_relocate {σ : Type} [Sink σ] {floor : Nat} {s s' : Session σ} {ms : List Move}
    (h : Course floor s ms s') (n depth : Nat) :
    Move.events (ms.map (Move.relocate n depth)) = (Move.events ms).map (Event.shift n) := by
  induction h with
  | nil => rfl
  | @cons s s' m ms hsafe hpass hcourse ih =>
      cases m with
      | emit i =>
          -- jumps are moves of their own, so that this instruction has no label
          have hshift : i.shift n = i := Instruction.shift_of_target? hsafe.2.1
          rw [List.map_cons, Move.relocate, Move.events_emit, Move.events_emit, List.map_cons,
            Event.shift, hshift, ih]
      | branch condition target =>
          exact congrArg (.emitted (.branch condition (target.shift n)) :: ·) ih
      | goto target => exact congrArg (.emitted (.goto (target.shift n)) :: ·) ih
      | place label => exact congrArg (.placed (label.shift n) :: ·) ih
      | _ => exact ih

/-! ### Two runs -/

variable {σ τ : Type} [Sink σ] [Sink τ]

/-- Two computations end alike, in sessions that `R` relates, or with faults that `F`
relates. -/
inductive Matches (R : Session τ → Session σ → Prop) (F : Fault → Fault) :
    EStateM.Result Fault (Session τ) Unit → EStateM.Result Fault (Session σ) Unit → Prop
  | ok {t : Session τ} {s : Session σ} (h : R t s) : Matches R F (.ok () t) (.ok () s)
  | error {fault : Fault} {t : Session τ} {s : Session σ} (h : R t s) :
      Matches R F (.error fault t) (.error (F fault) s)

/-- A run that started in the session `base` is in `s`, and from the beginning it would be in
`t`.  The sinks have been told the same, up to the numbers of the labels. -/
structure Relocated (origin : τ) (base : Session σ) (t : Session τ) (s : Session σ) : Prop where
  told : ∃ items, t.sink = Sink.tell origin items ∧
    s.sink = Sink.tell base.sink (items.map (Event.shift base.labels.size))
  size : s.labels.size = base.labels.size + t.labels.size
  state : ∀ label, s.state? (label.shift base.labels.size)
    = (t.state? label).map (LabelState.raise base.depth)
  depth : s.depth = base.depth + t.depth
  maxDepth : s.maxDepth = max base.maxDepth (base.depth + t.maxDepth)
  reachable : s.reachable = t.reachable

namespace Relocated

variable {origin : τ} {base s : Session σ} {t : Session τ} {label : Label}

lemma start (origin : τ) (hbounded : base.Bounded) (hlive : base.reachable = true) :
    Relocated origin base (Session.start origin) base where
  told := ⟨[], rfl, rfl⟩
  size := rfl
  state label := by
    have hnone : base.state? (label.shift base.labels.size) = none :=
      Array.getElem?_eq_none (Nat.le_add_right _ _)
    rw [hnone]
    rfl
  depth := rfl
  maxDepth := (Nat.max_eq_left hbounded.depth).symm
  reachable := hlive

/-- Both sinks are told one event more. -/
lemma receive (h : Relocated origin base t s) (item : Event) :
    ∃ items, Sink.receive t.sink item = Sink.tell origin items ∧
      Sink.receive s.sink (item.shift base.labels.size)
        = Sink.tell base.sink (items.map (Event.shift base.labels.size)) := by
  obtain ⟨items, ht, hs⟩ := h.told
  refine ⟨items ++ [item], ?_, ?_⟩
  · rw [Sink.tell_append, ← ht]
    rfl
  · rw [List.map_append, Sink.tell_append, ← hs]
    rfl

lemma lt_size (h : Relocated origin base t s) (hlt : label.id < t.labels.size) :
    (label.shift base.labels.size).id < s.labels.size := by
  rw [h.size]
  exact Nat.add_lt_add_left hlt _

lemma created (h : Relocated origin base t s) : Relocated origin base t.created s.created where
  told := h.told
  size := by rw [Session.size_created, Session.size_created, h.size, Nat.add_assoc]
  state label := by
    -- a label of before, the new one, or one that neither table has
    rcases Nat.lt_trichotomy label.id t.labels.size with hlt | heq | hgt
    · rw [t.state?_created hlt, s.state?_created (h.lt_size hlt), h.state]
    · obtain rfl : label = ⟨t.labels.size⟩ := Label.eq_of_id_eq heq
      have hnew : Label.shift base.labels.size ⟨t.labels.size⟩ = ⟨s.labels.size⟩ := by
        rw [Label.shift, h.size]
      rw [hnew, s.state?_created_new, t.state?_created_new]
      rfl
    · have hnone : t.created.state? label = none :=
        Array.getElem?_eq_none (Nat.le_trans (Nat.le_of_eq t.size_created) hgt)
      have hnone' : s.created.state? (label.shift base.labels.size) = none := by
        refine Array.getElem?_eq_none (Nat.le_trans (Nat.le_of_eq s.size_created) ?_)
        rw [h.size, Nat.add_assoc]
        exact Nat.add_le_add_left hgt _
      rw [hnone, hnone']
      rfl
  depth := h.depth
  maxDepth := h.maxDepth
  reachable := h.reachable

/-- An instruction that takes its operands from what the run has put on the stack. -/
lemma emitted (h : Relocated origin base t s) {i : Instruction} (hpops : i.effect.pops ≤ t.depth) :
    Relocated origin base (t.emitted i) (s.emitted (i.shift base.labels.size)) where
  told := h.receive (.emitted i)
  size := h.size
  state := h.state
  depth := by
    have hdepth := h.depth
    rw [Session.depth_emitted, Session.depth_emitted, Instruction.effect_shift]
    omega
  maxDepth := by
    have hdepth := h.depth
    have hmax := h.maxDepth
    -- both stacks hold the operands, so that the subtractions agree
    show max s.maxDepth (s.depth - _ + _) = max _ (_ + max t.maxDepth (t.depth - _ + _))
    rw [Instruction.effect_shift]
    omega
  reachable := h.reachable

lemma recorded (h : Relocated origin base t s) (hlt : label.id < t.labels.size) :
    Relocated origin base (t.recorded label) (s.recorded (label.shift base.labels.size)) where
  told := h.told
  size := by rw [Session.size_recorded, Session.size_recorded, h.size]
  state other := by
    by_cases heq : other = label
    · rw [heq, t.state?_recorded_self hlt, s.state?_recorded_self (h.lt_size hlt), h.depth]
      rfl
    · have hne : other.id ≠ label.id := fun hid => heq (Label.eq_of_id_eq hid)
      rw [t.state?_recorded hne, s.state?_recorded (Label.id_shift_ne hne _), h.state]
  depth := h.depth
  maxDepth := h.maxDepth
  reachable := h.reachable

lemma halted (h : Relocated origin base t s) : Relocated origin base t.halted s.halted :=
  ⟨h.told, h.size, h.state, h.depth, h.maxDepth, rfl⟩

lemma settled (h : Relocated origin base t s) (hlt : label.id < t.labels.size) (depth : Nat) :
    Relocated origin base (t.settled label depth)
      (s.settled (label.shift base.labels.size) (base.depth + depth)) where
  told := h.receive (.placed label)
  size := by rw [Session.size_settled, Session.size_settled, h.size]
  state other := by
    by_cases heq : other = label
    · rw [heq, t.state?_settled_self _ hlt, s.state?_settled_self _ (h.lt_size hlt)]
      rfl
    · have hne : other.id ≠ label.id := fun hid => heq (Label.eq_of_id_eq hid)
      rw [t.state?_settled _ hne, s.state?_settled _ (Label.id_shift_ne hne _), h.state]
  depth := rfl
  maxDepth := h.maxDepth
  reachable := rfl

/-- **One move.**  What it does in the one session, it does in the other, if there are enough
numbers for the labels. -/
lemma perform {m : Move} (h : Relocated origin base t s) (hsafe : Safe 0 m t)
    (hlimit : m = .create →
      (t.labels.size < LabelTable.limit ↔ s.labels.size < LabelTable.limit)) :
    Matches (Relocated origin base) (Fault.raise base.depth) (m.perform.run t)
      ((m.relocate base.labels.size base.depth).perform.run s) := by
  have hnew {target : Label} (hstate : t.state? target = some (.pending none)) :
      s.state? (target.shift base.labels.size) = some (.pending none) := by
    rw [h.state, hstate]
    rfl
  cases m with
  | refuse fault => exact .error h
  | create =>
      by_cases hlt : t.labels.size < LabelTable.limit
      · have hrun : Move.create.perform.run s = .ok () s.created :=
          Move.run_create_of_lt ((hlimit rfl).mp hlt)
        rw [Move.run_create_of_lt hlt, Move.relocate, hrun]
        exact .ok h.created
      · have hrun : Move.create.perform.run s = .error .tooManyLabels s :=
          Move.run_create_of_le (Nat.not_lt.mp (mt (hlimit rfl).mpr hlt))
        rw [Move.run_create_of_le (Nat.not_lt.mp hlt), Move.relocate, hrun]
        exact .error h
  | emit i =>
      obtain ⟨-, htarget, hpops⟩ := hsafe
      rw [Nat.zero_add] at hpops
      have hnext := h.emitted hpops
      rw [Instruction.shift_of_target? htarget] at hnext
      exact .ok hnext
  | branch condition target =>
      obtain ⟨-, hpops, hstate⟩ := hsafe
      rw [Nat.zero_add] at hpops
      rw [Move.run_branch hstate, Move.relocate, Move.run_branch (hnew hstate)]
      have hjump := h.emitted (i := .branch condition target) hpops
      exact .ok (hjump.recorded (Session.lt_size_of_state? hstate))
  | goto target =>
      obtain ⟨-, -, hstate⟩ := hsafe
      rw [Move.run_goto hstate, Move.relocate, Move.run_goto (hnew hstate)]
      exact .ok ((h.emitted (Nat.zero_le _)).recorded (Session.lt_size_of_state? hstate)).halted
  | place label =>
      obtain ⟨depth, -, hstate⟩ := hsafe
      have hstate' : s.state? (label.shift base.labels.size)
          = some (.pending (some (base.depth + depth))) := by
        rw [h.state, hstate]
        rfl
      have hsettled := h.settled (Session.lt_size_of_state? hstate) depth
      cases hlive : t.reachable with
      | false =>
          rw [Move.run_place_of_halted hlive hstate, Move.relocate,
            Move.run_place_of_halted (h.reachable.trans hlive) hstate']
          exact .ok hsettled
      | true =>
          -- the depths differ here exactly if they differ there
          have hlive' := h.reachable.trans hlive
          by_cases heq : depth = t.depth
          · subst heq
            rw [← h.depth] at hstate' hsettled
            rw [Move.run_place_of_eq hlive hstate, Move.relocate,
              Move.run_place_of_eq hlive' hstate']
            exact .ok hsettled
          · have hne : base.depth + depth ≠ s.depth := by
              rw [h.depth]
              omega
            rw [Move.run_place_of_ne hlive hstate heq, Move.relocate,
              Move.run_place_of_ne hlive' hstate' hne, h.depth]
            exact .error h

end Relocated

/-- The session in which a computation ends, also if it fails. -/
def Lowering.last (code : Lowering σ Unit) (s : Session σ) : Session σ :=
  match code.run s with
  | .ok _ s' | .error _ s' => s'

/-- No run takes a label away. -/
lemma Leads.size_le_last {floor : Nat} {Q : Session σ → Prop} {R : Fault → Session σ → Prop}
    {ms : List Move} {s : Session σ} (h : Leads (Safe floor) Q R ms s) :
    s.labels.size ≤ (Lowering.last (follow ms) s).labels.size := by
  -- every session of the run has at least the labels of the first one
  have hkeeps := h.keeps (I := fun s' => s.labels.size ≤ s'.labels.size)
    (fun m s' _ hle => Nat.le_trans hle (by rw [s'.size_moved]; exact Nat.le_add_right _ _))
    (Nat.le_refl _)
  rw [Lowering.last]
  cases hrun : (follow ms).run s with
  | ok u s' =>
      rw [hrun] at hkeeps
      exact hkeeps
  | error fault s' =>
      rw [hrun] at hkeeps
      exact hkeeps

/-- **All moves.** -/
lemma Relocated.run {origin : τ} {base s : Session σ} {t : Session τ} {ms : List Move}
    {Q : Session τ → Prop} {R : Fault → Session τ → Prop} (h : Relocated origin base t s)
    (hleads : Leads (Safe 0) Q R ms t)
    (hlimit : base.labels.size + (Lowering.last (follow ms) t).labels.size
      ≤ LabelTable.limit) :
    Matches (Relocated origin base) (Fault.raise base.depth) ((follow ms).run t)
      ((follow (ms.map (Move.relocate base.labels.size base.depth))).run s) := by
  induction ms generalizing t s with
  | nil => exact .ok h
  | cons m ms ih =>
      obtain ⟨hsafe, hnext⟩ := hleads
      rw [List.map_cons, follow, follow, EStateM.run_bind,
        EStateM.run_bind]
      rw [Lowering.last, follow, EStateM.run_bind] at hlimit
      rcases hsafe.run_cases with ⟨hrun, -⟩ | ⟨fault, hrun⟩
      · rw [hrun] at hnext hlimit ⊢
        have hm := h.perform hsafe fun hcreate => by
          subst hcreate
          -- the last session of the run has the label, and there is room for all of its labels
          have hle := hnext.size_le_last
          rw [Session.moved, Session.size_created] at hle
          have hroom := Nat.le_trans (Nat.add_le_add_left hle base.labels.size) hlimit
          have hsize := h.size
          exact iff_of_true (by omega) (by omega)
        rw [hrun] at hm
        generalize (m.relocate base.labels.size base.depth).perform.run s = r at hm ⊢
        cases hm with
        | ok h' => exact ih h' hnext hlimit
      · have hm := h.perform hsafe fun hcreate => by
          subst hcreate
          -- the table of the new session is full, and the other one has still more labels
          have hfull : ¬t.labels.size < LabelTable.limit := fun hlt => by
            rw [Move.run_create_of_lt hlt] at hrun
            cases hrun
          have hsize := h.size
          exact iff_of_false hfull (by omega)
        rw [hrun] at hm ⊢
        generalize (m.relocate base.labels.size base.depth).perform.run s = r at hm ⊢
        cases hm with
        | error h' => exact .error h'

/-- If all moves succeed in the session, then they do from the beginning, whatever the numbers that
are left for labels. -/
lemma Relocated.run_ok {origin : τ} {base s s' : Session σ} {t : Session τ} {ms : List Move}
    {Q : Session τ → Prop} {R : Fault → Session τ → Prop} (h : Relocated origin base t s)
    (hleads : Leads (Safe 0) Q R ms t)
    (hrun : (follow (ms.map (Move.relocate base.labels.size base.depth))).run s = .ok () s') :
    ∃ t', (follow ms).run t = .ok () t' ∧ Relocated origin base t' s' := by
  induction ms generalizing t s with
  | nil =>
      cases hrun
      exact ⟨t, rfl, h⟩
  | cons m ms ih =>
      obtain ⟨hsafe, hnext⟩ := hleads
      rw [List.map_cons, follow, EStateM.run_bind] at hrun
      have hm := h.perform hsafe fun hcreate => by
        subst hcreate
        have hfree : s.labels.size < LabelTable.limit := by
          by_contra hfull
          rw [Move.relocate, Move.run_create_of_le (Nat.not_lt.mp hfull)] at hrun
          cases hrun
        have hsize := h.size
        exact iff_of_true (by omega) hfree
      rw [follow, EStateM.run_bind]
      generalize m.perform.run t = r at hm hnext ⊢
      generalize (m.relocate base.labels.size base.depth).perform.run s = r' at hm hrun
      cases hm with
      | ok h' => exact ih h' hnext hrun
      | error h' => cases hrun

/-! ### Steps -/

/-- Two steps that do the same with trees that `T` relates. -/
inductive Step.Coupled (T : Expr → Expr → Prop) : Step → Step → Prop
  | compile {e e' : Expr} (h : T e e') : Coupled T (.compile e) (.compile e')
  | lower {e e' : Expr} (h : T e e') : Coupled T (.lower e) (.lower e')

lemma Step.Coupled.refl {T : Expr → Expr → Prop} (hT : ∀ e, T e e) (step : Step) :
    step.Coupled T step := by
  cases step with
  | compile e => exact .compile (hT e)
  | lower e => exact .lower (hT e)

lemma Step.Coupled.imp {T T' : Expr → Expr → Prop} {step step' : Step} (h : step.Coupled T step')
    (himp : ∀ e e', T e e' → T' e e') : step.Coupled T' step' := by
  cases h with
  | compile h => exact .compile (himp _ _ h)
  | lower h => exact .lower (himp _ _ h)

lemma Step.Coupled.expr {T : Expr → Expr → Prop} {step step' : Step} (h : step.Coupled T step') :
    T step.expr step'.expr := by
  cases h with
  | compile h => exact h
  | lower h => exact h

/-- Two steps on trees with as many values end alike if the lowering of these does.  The check of
the depth has one answer in both, since all depths in the second are larger by `depth`. -/
lemma Matches.step {R : Session τ → Session σ → Prop} {F : Fault → Fault} {config config' : Config}
    {step step' : Step} {t : Session τ} {s : Session σ} (depth : Nat)
    (hstep : step.Coupled (fun e e' => e.stackEffect = e'.stackEffect) step')
    (hlower : Matches R F ((step.expr.lower config).run t) ((step'.expr.lower config').run s))
    (hcheck : config.options.checkBalance = config'.options.checkBalance)
    (hfault : ∀ expected actual, F (.stackImbalance expected actual)
      = .stackImbalance (depth + expected) (depth + actual))
    (hs : s.depth = depth + t.depth) (hR : ∀ t' s', R t' s' → s'.depth = depth + t'.depth) :
    (s.step config' step').1 = (t.step config step).1.map F ∧
      R (t.step config step).2 (s.step config' step').2 := by
  have haction : Matches R F ((step.action config).run t) ((step'.action config').run s) := by
    cases hstep with
    | lower heffect => exact hlower
    | @compile e e' heffect =>
        show Matches _ _ ((e.compile config).run t) ((e'.compile config').run s)
        rw [Expr.compile_eq, Expr.compile_eq, ← hcheck, ← heffect]
        rw [Step.expr, Step.expr] at hlower
        generalize (e.lower config).run t = r at hlower ⊢
        generalize (e'.lower config').run s = r' at hlower ⊢
        cases hlower with
        | error h => exact .error h
        | @ok t' s' h =>
            have hdepth := hR t' s' h
            dsimp only
            by_cases hdiffer : config.options.checkBalance = true ∧
                t'.depth ≠ t.depth + e.stackEffect
            · have hraised : Fault.stackImbalance (s.depth + e.stackEffect) s'.depth
                  = F (.stackImbalance (t.depth + e.stackEffect) t'.depth) := by
                rw [hfault, hdepth, hs, Nat.add_assoc]
              rw [if_pos hdiffer, if_pos ⟨hdiffer.1, by omega⟩, hraised]
              exact .error h
            · rw [if_neg hdiffer, if_neg fun hdiffer' => hdiffer ⟨hdiffer'.1, by omega⟩]
              exact .ok h
  rw [Session.step, Session.step]
  generalize (step.action config).run t = r at haction ⊢
  generalize (step'.action config').run s = r' at haction ⊢
  cases haction with
  | ok h => exact ⟨rfl, h⟩
  | error h => exact ⟨rfl, h⟩

section Steps

variable {origin : τ} {s : Session σ}

omit [Sink σ] [Sink τ] in
/-- In a session a tree makes the moves that it makes from the beginning, with labels and depths
from elsewhere. -/
lemma Expr.moves_eq_relocate (origin : τ) (s : Session σ) (config : Config) (e : Expr) :
    e.moves config s.labels.size
      = (e.moves config (Session.start origin).labels.size).map
        (Move.relocate s.labels.size s.depth) :=
  e.moves_add config s.labels.size s.depth 0

/-- The same tree, lowered from the beginning and in a session. -/
lemma Expr.lower_matches (config : Config) (e : Expr) (hs : s.Reached)
    (hlimit : s.labels.size
      + (Lowering.last (e.lower config) (Session.start origin)).labels.size ≤ LabelTable.limit) :
    Matches (Relocated origin s) (Fault.raise s.depth) ((e.lower config).run (Session.start origin))
      ((e.lower config).run s) := by
  have hleads := e.moves_lead τ config 0 (Session.start origin) rfl (Nat.zero_le _)
  rw [Lowering.last, lower_eq_follow] at hlimit
  rw [lower_eq_follow, lower_eq_follow, moves_eq_relocate origin s]
  exact (Relocated.start origin hs.bounded hs.live).run hleads hlimit

/-- A tree that is lowered in a session can be lowered from the beginning. -/
lemma Expr.relocated_of_lower {config : Config} {e : Expr} {s' : Session σ} (hbounded : s.Bounded)
    (hlive : s.reachable = true) (hrun : (e.lower config).run s = .ok () s') :
    ∃ t, (e.lower config).run (Session.start origin) = .ok () t ∧ Relocated origin s t s' := by
  have hleads := e.moves_lead τ config 0 (Session.start origin) rfl (Nat.zero_le _)
  rw [lower_eq_follow, moves_eq_relocate origin s] at hrun
  rw [lower_eq_follow]
  exact (Relocated.start origin hbounded hlive).run_ok hleads hrun

namespace Session

lemma step_eq_last (config : Config) (s : Session σ) (step : Step) :
    (s.step config step).2 = Lowering.last (step.expr.lower config) s := by
  refine step_keeps (I := fun s' => s' = Lowering.last (step.expr.lower config) s) config step ?_
  rw [Lowering.last]
  cases (step.expr.lower config).run s <;> rfl

/-- A step from the beginning and in a session. -/
lemma step_matches (config : Config) (step : Step) (hs : s.Reached)
    (hlimit : s.labels.size + ((Session.start origin).step config step).2.labels.size
      ≤ LabelTable.limit) :
    (s.step config step).1 = ((Session.start origin).step config step).1.map (Fault.raise s.depth) ∧
      Relocated origin s ((Session.start origin).step config step).2 (s.step config step).2 := by
  rw [step_eq_last] at hlimit
  have hlower := step.expr.lower_matches config hs hlimit
  have hstep : step.Coupled (fun e e' => e.stackEffect = e'.stackEffect) step :=
    .refl (fun e => Eq.refl e.stackEffect) step
  exact hlower.step s.depth hstep rfl (fun _ _ => rfl) rfl fun t' s' h => h.depth

end Session

end Steps

namespace Relocated

variable {s s' t : Session Code}

/-- The code from the beginning has the instructions that the two sinks have been told. -/
lemma exists_items (h : Relocated Code.empty s t s') :
    ∃ items, t.sink = Sink.tell Code.empty items ∧
      t.sink.instructions.toList = items.filterMap Event.instruction? ∧
      s'.sink = Sink.tell s.sink (items.map (Event.shift s.labels.size)) := by
  obtain ⟨items, ht, hs⟩ := h.told
  refine ⟨items, ht, ?_, hs⟩
  rw [ht, Code.instructions_tell]
  rfl

lemma instructions (h : Relocated Code.empty s t s') :
    s'.sink.instructions.toList = s.sink.instructions.toList
      ++ t.sink.instructions.toList.map (Instruction.shift s.labels.size) := by
  obtain ⟨items, -, hinstructions, hs⟩ := h.exists_items
  calc s'.sink.instructions.toList
      = s.sink.instructions.toList
          ++ (items.map (Event.shift s.labels.size)).filterMap Event.instruction? := by
        rw [hs, Code.instructions_tell]
    _ = s.sink.instructions.toList
          ++ (items.filterMap Event.instruction?).map (Instruction.shift s.labels.size) := by
        rw [Event.instructions_shift]
    _ = s.sink.instructions.toList
          ++ t.sink.instructions.toList.map (Instruction.shift s.labels.size) := by
        rw [hinstructions]

lemma pool (h : Relocated Code.empty s t s') :
    s'.sink.pool = (t.sink.instructions.toList.filterMap Instruction.constant?).foldl
      (fun pool c => (pool.intern c).2) s.sink.pool := by
  obtain ⟨items, -, hinstructions, hs⟩ := h.exists_items
  -- jumps load nothing
  have hconstants (is : List Instruction) :
      (is.map (Instruction.shift s.labels.size)).filterMap Instruction.constant?
        = is.filterMap Instruction.constant? := by
    rw [List.filterMap_map]
    exact congrArg (is.filterMap ·) (funext (Instruction.constant?_shift _))
  rw [hs, hinstructions, Code.pool_tell, Event.instructions_shift, hconstants]

/-- Labels from before keep their positions, and new ones have the positions that they have from
the beginning, counted from the end of the code. -/
lemma labelPosition? (h : Relocated Code.empty s t s') (hs : s.Forward) (label : Label) :
    s'.sink.labelPosition? label
      = if label.id < s.labels.size then s.sink.labelPosition? label
        else (t.sink.labelPosition? ⟨label.id - s.labels.size⟩).map (s.sink.size + ·) := by
  obtain ⟨items, ht, -, hs'⟩ := h.exists_items
  rw [hs', Code.labelPosition?_tell]
  by_cases hlt : label.id < s.labels.size
  · rw [if_pos hlt, Event.position?_shift_of_lt hlt, Option.none_or]
  · -- a label of the run has no position in the code of before
    have hnone : s.sink.labelPosition? label = none := by
      refine Option.eq_none_iff_forall_ne_some.mpr fun q hq => hlt ?_
      obtain ⟨-, depth, hstate⟩ := hs.position label q hq
      exact Session.lt_size_of_state? hstate
    have hlabel : label = Label.shift s.labels.size ⟨label.id - s.labels.size⟩ :=
      Label.eq_of_id_eq (Nat.add_sub_of_le (Nat.not_lt.mp hlt)).symm
    have hposition := Event.position?_shift s.labels.size s.sink.size
      ⟨label.id - s.labels.size⟩ items 0
    rw [← hlabel, Nat.add_zero] at hposition
    rw [if_neg hlt, hnone, Option.or_none, hposition, ht, Code.labelPosition?_tell_empty]

end Relocated

/-- **Steps do not depend on what came before them.**  Take any session that steps have led to
from empty code, failed steps included, and a step that is made in it and also in a new session,
with enough numbers for its labels.  In both it has the same result, except that two depths
which differ are counted from the depth of the session.  The code gets the instructions of the new
session with labels that follow those of the session, and these labels get the positions
of the new session, counted from the end of the code.  What the code held before stays in it, and
constants are interned as they come.  The depth and the largest depth are those of the new session,
counted from the depth of the session. -/
theorem Session.step_relocated (config : Config) (step : Step) (earlier : List (Config × Step))
    {s : Session Code} (hs : s = (Session.start Code.empty).after earlier)
    (hlabels : s.labels.size + ((Session.start Code.empty).step config step).2.labels.size
      ≤ LabelTable.limit) :
    let fresh := (Session.start Code.empty).step config step
    let next := s.step config step
    next.1 = fresh.1.map (Fault.raise s.depth) ∧
      next.2.sink.instructions.toList = s.sink.instructions.toList
        ++ fresh.2.sink.instructions.toList.map (Instruction.shift s.labels.size) ∧
      (∀ label, next.2.sink.labelPosition? label
        = if label.id < s.labels.size then s.sink.labelPosition? label
          else (fresh.2.sink.labelPosition? ⟨label.id - s.labels.size⟩).map (s.sink.size + ·)) ∧
      next.2.sink.pool = (fresh.2.sink.instructions.toList.filterMap Instruction.constant?).foldl
        (fun pool c => (pool.intern c).2) s.sink.pool ∧
      s.sink.pool.toList <+: next.2.sink.pool.toList ∧
      next.2.labels.size = s.labels.size + fresh.2.labels.size ∧
      next.2.depth = s.depth + fresh.2.depth ∧
      next.2.maxDepth = max s.maxDepth (s.depth + fresh.2.maxDepth) := by
  intro fresh next
  have hreached : s.Reached := by
    rw [hs]
    exact (Reached.start _).after earlier
  have hforward : s.Forward := by
    rw [hs]
    exact .after earlier
  obtain ⟨hresult, h⟩ := step_matches config step hreached hlabels
  refine ⟨hresult, h.instructions, h.labelPosition? hforward, h.pool, ?_, h.size, h.depth,
    h.maxDepth⟩
  rw [h.pool]
  exact s.sink.pool.prefix_foldl_intern _

/-- After a step that has failed and has left a value and two labels behind, a conditional whose
arms leave different numbers of values. -/
theorem Session.step_relocated_of_conditional :
    let failing : Expr := .arithmetic .add (.not (.load ⟨1, .ofPrimitive .int⟩))
      (.pop (.literal .null)) (.ofPrimitive .int)
    let s := (Session.start Code.empty).after [({}, .lower failing)]
    let constructor : Method := { Method.ofConstructor (.classOf "geometry" "Point") [] with
      returns := .ofPrimitive .int }
    let e : Expr := .conditional (.load ⟨1, .ofPrimitive .int⟩) (.newInstance constructor [])
      (.literal .null)
    let fresh := (Session.start Code.empty).step {} (.lower e)
    let next := s.step {} (.lower e)
    fresh.1 = some (.stackImbalance 2 1) ∧ s.depth = 1 ∧ s.labels.size = 2 ∧
      next.1 = some (.stackImbalance 3 2) ∧ next.2.labels.size = 4 ∧
      next.2.sink.instructions.toList = s.sink.instructions.toList
        ++ fresh.2.sink.instructions.toList.map (Instruction.shift 2) := by
  intro failing s constructor e fresh next
  have hs : s = (Session.start Code.empty).after [({}, .lower failing)] := rfl
  have hdepth : s.depth = 1 ∧ s.labels.size = 2 := by
    simp only [s, failing]
    decide +kernel
  have hfresh : fresh.1 = some (.stackImbalance 2 1) ∧ fresh.2.labels.size = 2 := by
    simp only [fresh, e, constructor]
    decide +kernel
  have hlabels : s.labels.size + fresh.2.labels.size ≤ LabelTable.limit := by
    rw [hdepth.2, hfresh.2]
    decide
  obtain ⟨hresult, hinstructions, -, -, -, hsize, -, -⟩ :=
    step_relocated {} (.lower e) _ hs hlabels
  change next.1 = fresh.1.map (Fault.raise s.depth) at hresult
  change next.2.labels.size = s.labels.size + fresh.2.labels.size at hsize
  rw [hfresh.1, hdepth.1] at hresult
  rw [hdepth.2, hfresh.2] at hsize
  rw [hdepth.2] at hinstructions
  exact ⟨hfresh.1, hdepth.1, hdepth.2, hresult, hsize, hinstructions⟩

end StackLowering
