import StackLowering.Proofs.Runs

/-!
Where the code of a run lies.

* `Move.events`: what a run tells its sink.
* `Code.Holds`: the instructions of a list of events stand in code one after the
  other from a position on, and the labels have the positions in between.
* `Course.holds`: after a safe run, the code holds what the run told it.
-/

namespace StackLowering

/-! ### Events -/

namespace Move

/-- What a move tells the sink. -/
def event? : Move → Option Event
  | refuse _ | create => none
  | emit i => some (.emitted i)
  | branch condition target => some (.emitted (.branch condition target))
  | goto target => some (.emitted (.goto target))
  | place label => some (.placed label)

/-- What moves tell the sink, in order. -/
def events (ms : List Move) : List Event :=
  ms.filterMap event?

@[simp] lemma events_nil : events [] = [] := rfl

@[simp] lemma events_append (ms ns : List Move) : events (ms ++ ns) = events ms ++ events ns :=
  List.filterMap_append

@[simp] lemma events_create (ms : List Move) : events (create :: ms) = events ms := rfl

@[simp] lemma events_emit (i : Instruction) (ms : List Move) :
    events (emit i :: ms) = .emitted i :: events ms := rfl

@[simp] lemma events_branch (condition : Condition) (target : Label) (ms : List Move) :
    events (branch condition target :: ms)
      = .emitted (.branch condition target) :: events ms := rfl

@[simp] lemma events_goto (target : Label) (ms : List Move) :
    events (goto target :: ms) = .emitted (.goto target) :: events ms := rfl

@[simp] lemma events_place (label : Label) (ms : List Move) :
    events (place label :: ms) = .placed label :: events ms := rfl

end Move

namespace Event

/-- The label that an event places. -/
def placed? : Event → Option Label
  | placed label => some label
  | emitted _ => none

/-- The label that the instruction of an event jumps to. -/
def target? : Event → Option Label
  | emitted i => i.target?
  | placed _ => none

/-- The number of instructions among events. -/
def extent : List Event → Nat
  | [] => 0
  | emitted _ :: items => extent items + 1
  | placed _ :: items => extent items

@[simp] lemma extent_append (items items' : List Event) :
    extent (items ++ items') = extent items + extent items' := by
  induction items with
  | nil => simp [extent]
  | cons item items ih =>
      cases item with
      | emitted i =>
          simp only [List.cons_append, extent, ih]
          omega
      | placed label => simp only [List.cons_append, extent, ih]

end Event

open Event (extent)

/-! ### Code that holds events -/

namespace Code

/-- From a position on, code has the instructions of the events, with the labels
between them where the events say. -/
def Holds (c : Code) : Nat → List Event → Prop
  | _, [] => True
  | pos, .emitted i :: items => c.instructions[pos]? = some i ∧ c.Holds (pos + 1) items
  | pos, .placed label :: items => c.labelPosition? label = some pos ∧ c.Holds pos items

lemma holds_append {c : Code} {pos : Nat} {items items' : List Event} :
    c.Holds pos (items ++ items') ↔
      c.Holds pos items ∧ c.Holds (pos + extent items) items' := by
  induction items generalizing pos with
  | nil => simp [Holds, extent]
  | cons item items ih =>
      cases item with
      | emitted i =>
          have hpos : pos + 1 + extent items = pos + (extent items + 1) := by omega
          simp only [List.cons_append, Holds, extent, ih, hpos, and_assoc]
      | placed label => simp only [List.cons_append, Holds, extent, ih, and_assoc]

end Code

namespace Code.Holds

variable {c : Code} {pos : Nat} {items : List Event}

/-- The instructions of a segment are those of the events. -/
lemma mem_of_instruction {p : Nat} {i : Instruction} (h : c.Holds pos items) (hp : pos ≤ p)
    (hlt : p < pos + extent items) (hi : c.instructions[p]? = some i) : .emitted i ∈ items := by
  induction items generalizing pos with
  | nil =>
      rw [extent] at hlt
      omega
  | cons item items ih =>
      cases item with
      | placed label => exact List.mem_cons_of_mem _ (ih h.2 hp hlt)
      | emitted j =>
          rw [extent] at hlt
          rcases Nat.eq_or_lt_of_le hp with rfl | hp
          · cases h.1.symm.trans hi
            exact List.mem_cons_self
          · exact List.mem_cons_of_mem _ (ih h.2 hp (by omega))

/-- A label that is placed has a position in the segment or at its end. -/
lemma exists_position {label : Label} (h : c.Holds pos items) (hlabel : .placed label ∈ items) :
    ∃ q, c.labelPosition? label = some q ∧ q ≤ pos + extent items := by
  induction items generalizing pos with
  | nil => exact absurd hlabel List.not_mem_nil
  | cons item items ih =>
      cases item with
      | emitted i =>
          obtain ⟨q, hq, hle⟩ := ih h.2 ((List.mem_cons.mp hlabel).resolve_left nofun)
          exact ⟨q, hq, by rw [extent]; omega⟩
      | placed other =>
          rcases List.mem_cons.mp hlabel with heq | hlabel
          · cases heq
            exact ⟨pos, h.1, Nat.le_add_right _ _⟩
          · exact ih h.2 hlabel

end Code.Holds

/-! ### The code of a run -/

namespace Session

variable {s : Session Code} {m : Move} {label : Label}

lemma instructions_moved (s : Session Code) (m : Move) :
    (s.moved m).sink.instructions = match m.event? with
      | some (.emitted i) => s.sink.instructions.push i
      | _ => s.sink.instructions := by
  cases m <;> rfl

/-- No move takes an instruction back. -/
lemma instruction_moved {pos : Nat} {i : Instruction}
    (h : s.sink.instructions[pos]? = some i) : (s.moved m).sink.instructions[pos]? = some i := by
  have hlt : pos < s.sink.instructions.size := (Array.getElem?_eq_some_iff.mp h).1
  rw [instructions_moved]
  split
  · rw [Array.getElem?_push, if_neg (Nat.ne_of_lt hlt)]
    exact h
  · exact h

/-- A safe move leaves a label that has been placed as it is. -/
lemma placed_moved {σ : Type} [Sink σ] {s : Session σ} {floor depth : Nat} (hsafe : Safe floor m s)
    (h : s.state? label = some (.placed depth)) :
    (s.moved m).state? label = some (.placed depth) := by
  cases m with
  | refuse fault => exact h
  | create => exact (s.state?_created (lt_size_of_state? h)).trans h
  | emit i => exact h
  | branch condition target =>
      have hne := ne_of_state? h hsafe.2.2 (by simp)
      rw [moved, state?_recorded _ hne, state?_emitted, h]
  | goto target =>
      have hne := ne_of_state? h hsafe.2.2 (by simp)
      rw [moved, state?_halted, state?_recorded _ hne, state?_emitted, h]
  | place other =>
      obtain ⟨depth', -, hstate⟩ := hsafe
      have hne := ne_of_state? h hstate (by simp)
      rw [moved, state?_settled _ _ hne, h]

/-- A safe move leaves a label that has been placed where it is. -/
lemma labelPosition?_moved {floor depth : Nat} (hsafe : Safe floor m s)
    (h : s.state? label = some (.placed depth)) :
    (s.moved m).sink.labelPosition? label = s.sink.labelPosition? label := by
  cases m with
  | place other =>
      obtain ⟨depth', -, hstate⟩ := hsafe
      have hne : other ≠ label := by
        rintro rfl
        exact ne_of_state? h hstate (by simp) rfl
      exact (Code.labelPosition?_placeLabel _ _ _).trans (if_neg hne)
  | _ => rfl

end Session

/-! ### The labels of a run -/

namespace Course

variable {σ : Type} [Sink σ] {floor depth : Nat} {s s' : Session σ} {ms : List Move} {label : Label}

lemma placed (h : Course floor s ms s') (hlabel : s.state? label = some (.placed depth)) :
    s'.state? label = some (.placed depth) := by
  induction h with
  | nil => exact hlabel
  | cons hsafe _ _ ih => exact ih (Session.placed_moved hsafe hlabel)

/-- A label that a run places stays placed. -/
lemma placed_of_mem (h : Course floor s ms s') (hmem : .place label ∈ ms) :
    ∃ depth, s'.state? label = some (.placed depth) := by
  induction h with
  | nil => exact absurd hmem List.not_mem_nil
  | cons hsafe hpass hcourse ih =>
      rcases List.mem_cons.mp hmem with rfl | hmem
      · obtain ⟨depth, -, hstate⟩ := hsafe
        have hlt := Session.lt_size_of_state? hstate
        exact ⟨_, hcourse.placed (Session.state?_settled_self _ _ hlt)⟩
      · exact ih hmem

end Course

namespace Course

variable {floor : Nat} {s s' : Session Code} {ms : List Move}

lemma instruction {pos : Nat} {i : Instruction} (h : Course floor s ms s')
    (hi : s.sink.instructions[pos]? = some i) : s'.sink.instructions[pos]? = some i := by
  induction h with
  | nil => exact hi
  | cons _ _ _ ih => exact ih (Session.instruction_moved hi)

lemma labelPosition? {label : Label} {depth : Nat} (h : Course floor s ms s')
    (hlabel : s.state? label = some (.placed depth)) :
    s'.sink.labelPosition? label = s.sink.labelPosition? label := by
  induction h with
  | nil => rfl
  | cons hsafe _ _ ih =>
      have hposition := Session.labelPosition?_moved hsafe hlabel
      exact (ih (Session.placed_moved hsafe hlabel)).trans hposition

/-- **The layout of a run.**  After a safe run, code holds what the run told it
where it ended before. -/
theorem holds (h : Course floor s ms s') :
    s'.sink.Holds s.sink.size (Move.events ms) ∧
      s'.sink.size = s.sink.size + extent (Move.events ms) := by
  induction h with
  | nil => exact ⟨trivial, rfl⟩
  | @cons s s' m ms hsafe hpass hcourse ih =>
      obtain ⟨hholds, hsize⟩ := ih
      -- three moves push an instruction; it stands at the old end, and no later move takes it back
      have hemitted : ∀ i, (s.moved m).sink.instructions = s.sink.instructions.push i →
          s'.sink.Holds s.sink.size (.emitted i :: Move.events ms) ∧
            s'.sink.size = s.sink.size + extent (.emitted i :: Move.events ms) := by
        intro i hi
        have hnext : (s.moved m).sink.size = s.sink.size + 1 := by
          rw [Code.size, hi, Array.size_push, Code.size]
        rw [hnext] at hholds hsize
        refine ⟨⟨hcourse.instruction ?_, hholds⟩, ?_⟩
        · rw [hi]
          exact Array.getElem?_push_size
        · rw [hsize, extent]
          omega
      cases m with
      | refuse fault => exact hpass.elim
      | create => exact ⟨hholds, hsize⟩
      | emit i => exact hemitted i rfl
      | branch condition target => exact hemitted _ rfl
      | goto target => exact hemitted _ rfl
      | place label =>
          obtain ⟨depth, -, hstate⟩ := hsafe
          have hlt := Session.lt_size_of_state? hstate
          refine ⟨⟨?_, hholds⟩, hsize⟩
          rw [hcourse.labelPosition? (s.state?_settled_self _ hlt)]
          exact (Code.labelPosition?_placeLabel _ _ _).trans (if_pos rfl)

end Course

end StackLowering
