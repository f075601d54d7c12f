import StackLowering.Proofs.Choice
import StackLowering.Proofs.Layout

/-!
The labels of a tree.

* `Move.Clean`: no choice of a run has failed.
* `Move.Uses`: moves jump once to each of a row of labels and place each of them
  once.
* `Expr.uses_moves`: the moves of an accepted tree do so with the labels that they
  create.
* `Course.placed_of_target`: in a run that does so, every jump goes to a label that
  the run places.
-/

namespace StackLowering

namespace Move

/-! ### Moves that are all made -/

/-- No move stops the run. -/
def Clean (ms : List Move) : Prop :=
  ∀ fault, refuse fault ∉ ms

@[simp] lemma clean_nil : Clean [] :=
  fun _ => List.not_mem_nil

@[simp] lemma clean_append {ms ns : List Move} : Clean (ms ++ ns) ↔ Clean ms ∧ Clean ns := by
  simp only [Clean, List.mem_append, not_or, forall_and]

@[simp] lemma clean_cons {m : Move} {ms : List Move} :
    Clean (m :: ms) ↔ (∀ fault, m ≠ refuse fault) ∧ Clean ms := by
  simp only [Clean, List.mem_cons, not_or, forall_and, ne_comm, ne_eq]

/-- A choice that did not stop the run has succeeded. -/
@[simp] lemma clean_guarded {α : Type} {choice : Except Fault α} {next : α → List Move} :
    Clean (guarded choice next) ↔ ∃ a, choice = .ok a ∧ Clean (next a) := by
  cases choice with
  | ok a => simp [guarded]
  | error fault => simp [guarded]

@[simp] lemma clean_consumed {e : Expr} {ms : List Move} :
    Clean (consumed e ms) ↔ e.hasValue = true ∧ Clean ms := by
  simp only [consumed, clean_guarded, Selection.value_eq_ok]
  simp

lemma consumed_of_hasValue {e : Expr} (h : e.hasValue = true) (ms : List Move) :
    consumed e ms = ms := by
  rw [consumed, Selection.value, if_pos h, guarded]

/-! ### Rows of labels -/

/-- The number of the label that a move places. -/
def placedId? : Move → Option Nat
  | place label => some label.id
  | _ => none

/-- The number of the label that a move jumps to. -/
def targetId? : Move → Option Nat
  | branch _ target | goto target => some target.id
  | _ => none

/-- The numbers of the labels that moves place. -/
def placedIds (ms : List Move) : List Nat :=
  ms.filterMap placedId?

/-- The numbers of the labels that moves jump to. -/
def targetIds (ms : List Move) : List Nat :=
  ms.filterMap targetId?

lemma placedIds_append (ms ns : List Move) : placedIds (ms ++ ns) = placedIds ms ++ placedIds ns :=
  List.filterMap_append

lemma targetIds_append (ms ns : List Move) : targetIds (ms ++ ns) = targetIds ms ++ targetIds ns :=
  List.filterMap_append

/-- The moves place each of `count` labels from `first` on once, and jump to each
of them once. -/
structure Uses (first count : Nat) (ms : List Move) : Prop where
  placed : (placedIds ms).Perm (List.range' first count)
  targets : (targetIds ms).Perm (List.range' first count)

namespace Uses

variable {first count count' : Nat} {ms ns : List Move}

lemma nil : Uses first 0 [] :=
  ⟨.nil, .nil⟩

lemma emit (h : Uses first count ms) (i : Instruction) : Uses first count (.emit i :: ms) :=
  ⟨h.placed, h.targets⟩

lemma append (h : Uses first count ms) (h' : Uses (first + count) count' ns) :
    Uses first (count + count') (ms ++ ns) := by
  have hrange := List.range'_append_1 (s := first) (m := count) (n := count')
  refine ⟨?_, ?_⟩
  · rw [placedIds_append, ← hrange]
    exact h.placed.append h'.placed
  · rw [targetIds_append, ← hrange]
    exact h.targets.append h'.targets

lemma truth (first : Nat) (condition : Condition) : Uses first 2 (Move.truth first condition) :=
  ⟨.refl _, .refl _⟩

lemma decideBy (first : Nat) (comparison : Selection.Comparison) :
    Uses first 2 (Move.decideBy first comparison) := by
  rw [Move.decideBy]
  cases comparison.reduce with
  | none => exact truth first _
  | some comparator => exact (truth first _).emit _

lemma guarded {α : Type} {choice : Except Fault α} {next : α → List Move}
    (h : Clean (Move.guarded choice next))
    (hnext : ∀ a, Clean (next a) → Uses first count (next a)) :
    Uses first count (Move.guarded choice next) := by
  obtain ⟨a, rfl, ha⟩ := clean_guarded.mp h
  exact hnext a ha

lemma consumed {e : Expr} (h : Clean (Move.consumed e ms)) (hms : Clean ms → Uses first count ms) :
    Uses first count (Move.consumed e ms) := by
  obtain ⟨hvalue, hclean⟩ := clean_consumed.mp h
  rw [consumed_of_hasValue hvalue]
  exact hms hclean

end Uses

end Move

open Move (Clean Uses)

namespace Expr

variable {config : Config}

/-- Arguments use the labels that they create. -/
lemma uses_argumentMoves {arguments : List Expr}
    (ih : ∀ e ∈ arguments, ∀ first, Clean (e.moves config first) →
      Uses first e.labelCount (e.moves config first)) {first : Nat}
    (h : Clean (argumentMoves config first arguments)) :
    Uses first (labelCounts arguments) (argumentMoves config first arguments) := by
  induction arguments generalizing first with
  | nil => exact .nil
  | cons e es ihes =>
      simp only [argumentMoves] at h ⊢
      obtain ⟨he, hes⟩ := Move.clean_append.mp h
      have hhead := Uses.consumed he (ih e List.mem_cons_self first)
      have htail := ihes (fun e' he' => ih e' (List.mem_cons_of_mem _ he')) hes
      exact hhead.append htail

lemma uses_elementMoves {store : Instruction} {elements : List Expr}
    (ih : ∀ e ∈ elements, ∀ first, Clean (e.moves config first) →
      Uses first e.labelCount (e.moves config first)) {first index : Nat}
    (h : Clean (elementMoves config store first index elements)) :
    Uses first (labelCounts elements) (elementMoves config store first index elements) := by
  induction elements generalizing first index with
  | nil => exact .nil
  | cons e es ihes =>
      simp only [elementMoves, Move.clean_cons, Move.clean_append] at h ⊢
      obtain ⟨-, -, he, -, hes⟩ := h
      have hhead := Uses.consumed he (ih e List.mem_cons_self first)
      have htail := ihes (fun e' he' => ih e' (List.mem_cons_of_mem _ he')) hes
      exact ((hhead.append (htail.emit store)).emit _).emit _

/-- Two operands, and the moves after them. -/
lemma uses_operands {lhs rhs : Expr} {first count : Nat} {ns : List Move}
    (ihl : ∀ first, Clean (lhs.moves config first) →
      Uses first lhs.labelCount (lhs.moves config first))
    (ihr : ∀ first, Clean (rhs.moves config first) →
      Uses first rhs.labelCount (rhs.moves config first))
    (h : Clean (Move.consumed lhs (lhs.moves config first) ++
      (Move.consumed rhs (rhs.moves config (first + lhs.labelCount)) ++ ns)))
    (hns : Uses (first + lhs.labelCount + rhs.labelCount) count ns) :
    Uses first (lhs.labelCount + rhs.labelCount + count)
      (Move.consumed lhs (lhs.moves config first) ++
        (Move.consumed rhs (rhs.moves config (first + lhs.labelCount)) ++ ns)) := by
  obtain ⟨hl, h⟩ := Move.clean_append.mp h
  obtain ⟨hr, -⟩ := Move.clean_append.mp h
  have hlhs := Uses.consumed hl (ihl first)
  have hrhs := Uses.consumed hr (ihr _)
  rw [Nat.add_assoc]
  exact hlhs.append (hrhs.append hns)

/-- **The labels of a tree.**  An accepted tree places each label that it creates
once, and jumps to it once. -/
theorem uses_moves (e : Expr) : ∀ first, Clean (e.moves config first) →
    Uses first e.labelCount (e.moves config first) := by
  induction e using Expr.induct with
  | literal value => exact fun first _ => Uses.nil.emit _
  | load source => exact fun first h => .guarded h fun i _ => Uses.nil.emit i
  | receiver => exact fun first _ => Uses.nil.emit _
  | getField target field ih =>
      refine fun first h => .guarded h fun access h => ?_
      obtain ⟨ht, -⟩ := Move.clean_append.mp h
      exact (Uses.consumed ht (ih first)).append (Uses.nil.emit _)
  | getStatic field => exact fun first h => .guarded h fun access _ => Uses.nil.emit _
  | newInstance constructor arguments ih =>
      refine fun first h => .guarded h fun call h => ?_
      simp only [Move.clean_cons, Move.clean_append] at h
      have harguments := uses_argumentMoves ih h.2.2.1
      exact ((harguments.append (Uses.nil.emit _)).emit _).emit _
  | invoke target method arguments ih ihs =>
      refine fun first h => .guarded h fun call h => ?_
      simp only [Move.clean_append] at h
      have htarget := Uses.consumed h.1 (ih first)
      have harguments := uses_argumentMoves ihs h.2.1
      exact htarget.append (harguments.append (Uses.nil.emit _))
  | invokeStatic method arguments ih =>
      refine fun first h => .guarded h fun call h => ?_
      simp only [Move.clean_append] at h
      exact (uses_argumentMoves ih h.1).append (Uses.nil.emit _)
  | not operand ih =>
      intro first h
      simp only [moves] at h ⊢
      obtain ⟨ho, -⟩ := Move.clean_append.mp h
      exact (Uses.consumed ho (ih first)).append (.truth _ _)
  | or lhs rhs ihl ihr =>
      intro first h
      simp only [moves, labelCount] at h ⊢
      obtain ⟨hl, h⟩ := Move.clean_append.mp h
      simp only [Move.clean_cons] at h
      obtain ⟨hr, -⟩ := Move.clean_append.mp h.2.2
      have hlhs := Uses.consumed hl (ihl first)
      have hrhs := Uses.consumed hr (ihr _)
      -- the row in the order in which the labels are created: those of the left side, the one for
      -- the true outcome, those of the right side and the two of the join
      have hrow : List.range' first (lhs.labelCount + rhs.labelCount + 3)
          = List.range' first lhs.labelCount ++ (first + lhs.labelCount) ::
            (List.range' (first + lhs.labelCount + 1) rhs.labelCount ++
              List.range' (first + lhs.labelCount + 1 + rhs.labelCount) 2) := by
        have hcount : lhs.labelCount + rhs.labelCount + 3
            = lhs.labelCount + (rhs.labelCount + 2 + 1) := by omega
        rw [hcount, ← List.range'_append_1, List.range'_succ, ← List.range'_append_1]
      refine ⟨?_, ?_⟩
      · rw [Move.placedIds_append, hrow]
        refine hlhs.placed.append ?_
        -- the label for the true outcome stands after the right side
        change (Move.placedIds (_ ++ _)).Perm _
        rw [Move.placedIds_append]
        exact (hrhs.placed.append_right _).trans List.perm_middle
      · rw [Move.targetIds_append, hrow]
        refine hlhs.targets.append (.cons _ ?_)
        change (Move.targetIds (_ ++ _)).Perm _
        rw [Move.targetIds_append]
        exact hrhs.targets.append_right _
  | conditional test onTrue onFalse iht ihl ihr =>
      refine fun first h => .guarded h fun _ h => ?_
      simp only [labelCount]
      obtain ⟨ht, h⟩ := Move.clean_append.mp h
      simp only [Move.clean_cons] at h
      obtain ⟨hl, h⟩ := Move.clean_append.mp h.2.2
      simp only [Move.clean_cons] at h
      obtain ⟨hr, -⟩ := Move.clean_append.mp h.2.2.2
      have htest := Uses.consumed ht (iht first)
      have hlhs := ihl _ hl
      have hrhs := ihr _ hr
      have hrow : List.range' first
            (test.labelCount + onTrue.labelCount + onFalse.labelCount + 2)
          = List.range' first test.labelCount ++ (first + test.labelCount) ::
            (List.range' (first + test.labelCount + 1) onTrue.labelCount ++
              (first + test.labelCount + 1 + onTrue.labelCount) ::
                List.range' (first + test.labelCount + 1 + onTrue.labelCount + 1)
                  onFalse.labelCount) := by
        have hcount : test.labelCount + onTrue.labelCount + onFalse.labelCount + 2
            = test.labelCount + (onTrue.labelCount + (onFalse.labelCount + 1) + 1) := by omega
        rw [hcount, ← List.range'_append_1, List.range'_succ, ← List.range'_append_1,
          List.range'_succ]
      refine ⟨?_, ?_⟩
      · rw [Move.placedIds_append, hrow]
        refine htest.placed.append ?_
        change (Move.placedIds (_ ++ _)).Perm _
        rw [Move.placedIds_append]
        -- each arm is followed by the label that its end jumps over
        refine (hlhs.placed.append (.cons _ ?_)).trans List.perm_middle
        change (Move.placedIds (_ ++ _)).Perm _
        rw [Move.placedIds_append]
        exact (hrhs.placed.append_right _).trans List.perm_append_comm
      · rw [Move.targetIds_append, hrow]
        refine htest.targets.append (.cons _ ?_)
        change (Move.targetIds (_ ++ _)).Perm _
        rw [Move.targetIds_append]
        refine hlhs.targets.append (.cons _ ?_)
        change (Move.targetIds (_ ++ _)).Perm _
        rw [Move.targetIds_append]
        exact (hrhs.targets.append_right _).trans (.of_eq (List.append_nil _))
  | eq lhs rhs type ihl ihr =>
      exact fun first h => .guarded h fun comparison h => uses_operands ihl ihr h (.decideBy _ _)
  | gt lhs rhs type ihl ihr =>
      exact fun first h => .guarded h fun comparison h => uses_operands ihl ihr h (.decideBy _ _)
  | arithmetic op lhs rhs type ihl ihr =>
      exact fun first h => .guarded h fun i h => uses_operands ihl ihr h (Uses.nil.emit i)
  | widen operand source target ih =>
      refine fun first h => .guarded h fun conversion h => ?_
      obtain ⟨ho, -⟩ := Move.clean_append.mp h
      have hoperand := Uses.consumed ho (ih first)
      cases conversion with
      | none => exact hoperand.append .nil
      | some i => exact hoperand.append (Uses.nil.emit i)
  | cast target operand ih =>
      refine fun first h => .guarded h fun i h => ?_
      obtain ⟨ho, -⟩ := Move.clean_append.mp h
      exact (Uses.consumed ho (ih first)).append (Uses.nil.emit i)
  | newArray element elements ih =>
      refine fun first h => .guarded h fun allocation h => .guarded h fun store h =>
        .guarded h fun length h => ?_
      simp only [Move.clean_cons] at h
      exact ((uses_elementMoves ih h.2.2).emit _).emit _
  | pop operand ih =>
      intro first h
      simp only [moves] at h ⊢
      obtain ⟨ho, -⟩ := Move.clean_append.mp h
      exact (Uses.consumed ho (ih first)).append (Uses.nil.emit _)

end Expr

/-! ### Labels of a run -/

/-- Labels with consecutive numbers. -/
def Label.row (first count : Nat) : List Label :=
  (List.range' first count).map Label.mk

lemma Label.nodup_row (first count : Nat) : (row first count).Nodup :=
  List.Pairwise.map Label.mk (fun _ _ hne heq => hne (Label.mk.inj heq)) List.nodup_range'

lemma Label.mem_row {first count : Nat} {label : Label} :
    label ∈ row first count ↔ first ≤ label.id ∧ label.id < first + count := by
  rw [row, List.mem_map, ← List.mem_range'_1]
  refine ⟨?_, fun h => ⟨label.id, h, rfl⟩⟩
  rintro ⟨id, hid, rfl⟩
  exact hid

lemma Label.row_append (first count count' : Nat) :
    row first (count + count') = row first count ++ row (first + count) count' := by
  rw [row, ← List.range'_append_1, List.map_append, row, row]

lemma Move.placed_events (ms : List Move) :
    (events ms).filterMap Event.placed? = (placedIds ms).map Label.mk := by
  induction ms with
  | nil => rfl
  | cons m ms ih =>
      cases m with
      | place label => exact congrArg (label :: ·) ih
      | _ => exact ih

lemma Move.Uses.placed_row {first count : Nat} {ms : List Move} (h : Uses first count ms) :
    ((events ms).filterMap Event.placed?).Perm (Label.row first count) := by
  rw [placed_events]
  exact h.placed.map Label.mk

/-- No label is placed twice. -/
lemma Move.Uses.nodup_placed {first count : Nat} {ms : List Move} (h : Uses first count ms) :
    ((events ms).filterMap Event.placed?).Nodup :=
  h.placed_row.nodup_iff.mpr (Label.nodup_row first count)

lemma Move.mem_events {item : Event} {ms : List Move} :
    item ∈ Move.events ms ↔ ∃ m ∈ ms, m.event? = some item :=
  List.mem_filterMap

namespace Course

variable {σ : Type} [Sink σ] {floor : Nat} {s s' : Session σ} {ms : List Move}

/-- A run that succeeds makes all its moves. -/
lemma clean (h : Course floor s ms s') : Clean ms := by
  induction h with
  | nil => exact Move.clean_nil
  | @cons s s' m ms hsafe hpass hcourse ih =>
      refine Move.clean_cons.mpr ⟨fun fault heq => ?_, ih⟩
      rw [heq] at hpass
      exact hpass

lemma target_events (h : Course floor s ms s') :
    (Move.events ms).filterMap Event.target? = (Move.targetIds ms).map Label.mk := by
  induction h with
  | nil => rfl
  | @cons s s' m ms hsafe hpass hcourse ih =>
      cases m with
      | refuse fault => exact hpass.elim
      | create => exact ih
      | emit i =>
          refine (List.filterMap_cons_none ?_).trans ih
          exact hsafe.2.1
      | branch condition target => exact congrArg (target :: ·) ih
      | goto target => exact congrArg (target :: ·) ih
      | place label => exact ih

lemma target_row {first count : Nat} (h : Course floor s ms s') (huses : Uses first count ms) :
    ((Move.events ms).filterMap Event.target?).Perm (Label.row first count) := by
  rw [h.target_events]
  exact huses.targets.map Label.mk

lemma placed_of_target {first count : Nat} {i : Instruction} {label : Label}
    (h : Course floor s ms s') (huses : Uses first count ms) (hi : .emitted i ∈ Move.events ms)
    (hlabel : i.target? = some label) : .placed label ∈ Move.events ms := by
  have htarget : label ∈ (Move.events ms).filterMap Event.target? :=
    List.mem_filterMap.mpr ⟨_, hi, hlabel⟩
  have hplaced : label ∈ (Move.events ms).filterMap Event.placed? :=
    huses.placed_row.mem_iff.mpr ((h.target_row huses).mem_iff.mp htarget)
  obtain ⟨item, hitem, hlabel'⟩ := List.mem_filterMap.mp hplaced
  cases item with
  | emitted j => cases hlabel'
  | placed other =>
      cases hlabel'
      exact hitem

/-- Each label of the row has been placed in the end. -/
lemma placed_of_row {first count : Nat} {label : Label} (h : Course floor s ms s')
    (huses : Uses first count ms) (hrow : label ∈ Label.row first count) :
    ∃ depth, s'.state? label = some (.placed depth) := by
  obtain ⟨item, hitem, hlabel⟩ := List.mem_filterMap.mp (huses.placed_row.mem_iff.mpr hrow)
  obtain ⟨m, hm, hevent⟩ := Move.mem_events.mp hitem
  cases m with
  | place other =>
      cases hevent
      cases hlabel
      exact h.placed_of_mem hm
  | _ => cases hevent <;> cases hlabel

end Course

end StackLowering
