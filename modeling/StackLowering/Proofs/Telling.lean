import StackLowering.Proofs.Layout

/-!
What a sink has been told.

* `Sink.tell`: a sink after it has been told events.
* `Course.sink`: a safe run tells its sink the events of its moves and nothing else.
* `Code.instructions_tell`, `Code.pool_tell`, `Code.labelPosition?_tell`: what code
  makes of events.
-/

namespace StackLowering

variable {σ : Type} [Sink σ]

namespace Sink

/-- A sink that is told one event. -/
def receive (sink : σ) : Event → σ
  | .emitted i => emit sink i
  | .placed label => placeLabel sink label

/-- A sink that is told events in order. -/
def tell (sink : σ) (items : List Event) : σ :=
  items.foldl receive sink

@[simp] lemma tell_nil (sink : σ) : tell sink [] = sink := rfl

@[simp] lemma tell_cons (sink : σ) (item : Event) (items : List Event) :
    tell sink (item :: items) = tell (receive sink item) items := rfl

lemma tell_append (sink : σ) (items items' : List Event) :
    tell sink (items ++ items') = tell (tell sink items) items' :=
  List.foldl_append

end Sink

/-- A move tells the sink at most one event. -/
lemma Session.sink_moved (s : Session σ) (m : Move) :
    (s.moved m).sink = Sink.tell s.sink m.event?.toList := by
  cases m <;> rfl

/-- **A run tells its sink the events of its moves.** -/
theorem Course.sink {floor : Nat} {s s' : Session σ} {ms : List Move} (h : Course floor s ms s') :
    s'.sink = Sink.tell s.sink (Move.events ms) := by
  induction h with
  | nil => rfl
  | @cons s s' m ms hsafe hpass hcourse ih =>
      rw [ih, s.sink_moved, ← Sink.tell_append]
      cases m <;> rfl

/-! ### Code -/

/-- The constant that an instruction loads from the pool. -/
def Instruction.constant? : Instruction → Option Constant
  | ldc constant => some constant
  | _ => none

namespace Event

/-- The instruction of an event. -/
def instruction? : Event → Option Instruction
  | emitted i => some i
  | placed _ => none

/-- The events of instructions take up the room. -/
lemma extent_eq_length (items : List Event) :
    extent items = (items.filterMap instruction?).length := by
  induction items with
  | nil => rfl
  | cons item items ih =>
      cases item with
      | emitted i => exact congrArg (· + 1) ih
      | placed label => exact ih

/-- The position that events give to a label, from a position on.  Of several
placements the last one counts. -/
def position? (label : Label) : Nat → List Event → Option Nat
  | _, [] => none
  | pos, emitted _ :: items => position? label (pos + 1) items
  | pos, placed other :: items =>
      (position? label pos items).or (if other = label then some pos else none)

variable {label : Label} {items : List Event} {pos q : Nat}

/-- Exactly a label that is never placed gets no position. -/
lemma position?_eq_none_iff : position? label pos items = none ↔ placed label ∉ items := by
  induction items generalizing pos with
  | nil => simp [position?]
  | cons item items ih =>
      cases item with
      | emitted i => simp [position?, ih]
      | placed other =>
          rw [position?, Option.or_eq_none_iff, ih, List.mem_cons, not_or, and_comm]
          simp [eq_comm]

/-- Later events decide on the position of a label, and earlier ones only if it is not placed
again. -/
lemma position?_append (items items' : List Event) :
    position? label pos (items ++ items')
      = (position? label (pos + extent items) items').or (position? label pos items) := by
  induction items generalizing pos with
  | nil => simp [position?, extent]
  | cons item items ih =>
      cases item with
      | emitted i =>
          rw [List.cons_append, position?, ih, position?, extent, Nat.add_right_comm, Nat.add_assoc]
      | placed other => rw [List.cons_append, position?, ih, position?, extent, Option.or_assoc]

/-- Of several placements of a label, the last one counts. -/
lemma position?_eq_some_iff :
    position? label pos items = some q ↔ ∃ before after, items = before ++ placed label :: after ∧
      placed label ∉ after ∧ q = pos + extent before := by
  constructor
  · intro h
    induction items generalizing pos with
    | nil => cases h
    | cons item items ih =>
        cases item with
        | emitted i =>
            obtain ⟨before, after, rfl, hnot, rfl⟩ := ih h
            exact ⟨emitted i :: before, after, rfl, hnot, by rw [extent]; omega⟩
        | placed other =>
            rw [position?, Option.or_eq_some_iff] at h
            -- a later placement wins; without one, this is the last
            rcases h with h | ⟨hnone, h⟩
            · obtain ⟨before, after, rfl, hnot, rfl⟩ := ih h
              exact ⟨placed other :: before, after, rfl, hnot, rfl⟩
            · split_ifs at h with heq
              cases h
              exact ⟨[], items, by rw [heq, List.nil_append], position?_eq_none_iff.mp hnone, rfl⟩
  · rintro ⟨before, after, rfl, hnot, rfl⟩
    rw [position?_append, position?, position?_eq_none_iff.mpr hnot, if_pos rfl, Option.none_or,
      Option.some_or]

/-- A position that events give to a label is one that they come to. -/
lemma le_of_position? (h : position? label pos items = some q) : pos ≤ q := by
  obtain ⟨before, after, -, -, rfl⟩ := position?_eq_some_iff.mp h
  exact Nat.le_add_right _ _

end Event

namespace Code

variable (c : Code) (items : List Event)

/-- Code appends the instructions that it is told. -/
lemma instructions_tell :
    (Sink.tell c items).instructions.toList
      = c.instructions.toList ++ items.filterMap Event.instruction? := by
  induction items generalizing c with
  | nil => exact (List.append_nil _).symm
  | cons item items ih =>
      rw [Sink.tell_cons, ih]
      cases item with
      | emitted i =>
          show (c.instructions.push i).toList ++ _ = _ ++ i :: _
          rw [Array.toList_push, List.append_assoc, List.singleton_append]
      | placed label => rfl

lemma size_tell : (Sink.tell c items).size = c.size + Event.extent items := by
  rw [size, ← Array.length_toList, instructions_tell, List.length_append, Array.length_toList,
    Event.extent_eq_length, size]

/-- Code puts the constants of its instructions into the pool in order. -/
lemma pool_tell :
    (Sink.tell c items).pool
      = ((items.filterMap Event.instruction?).filterMap Instruction.constant?).foldl
          (fun pool constant => (pool.intern constant).2) c.pool := by
  induction items generalizing c with
  | nil => rfl
  | cons item items ih =>
      rw [Sink.tell_cons, ih]
      cases item with
      | emitted i => cases i <;> rfl
      | placed label => rfl

/-- A label has the position that the events give to it, and else the one it had. -/
lemma labelPosition?_tell (label : Label) :
    (Sink.tell c items).labelPosition? label
      = (Event.position? label c.size items).or (c.labelPosition? label) := by
  induction items generalizing c with
  | nil => rfl
  | cons item items ih =>
      rw [Sink.tell_cons, ih]
      cases item with
      | emitted i =>
          have hsize : (c.emit i).size = c.size + 1 := Array.size_push _
          show (Event.position? label (c.emit i).size items).or _ = _
          rw [hsize]
          rfl
      | placed other =>
          show (Event.position? label c.size items).or
            ((c.placeLabel other).labelPosition? label) = _
          rw [labelPosition?_placeLabel, Event.position?, Option.or_assoc]
          by_cases heq : other = label
          · rw [if_pos heq, if_pos heq, Option.some_or]
          · rw [if_neg heq, if_neg heq, Option.none_or]

variable {items} in
lemma labelPosition?_tell_empty {label : Label} :
    (Sink.tell empty items).labelPosition? label = Event.position? label 0 items := by
  rw [labelPosition?_tell, labelPosition?_empty, Option.or_none]
  rfl

end Code

namespace Course

variable {floor : Nat} {s s' : Session Code} {ms : List Move}

lemma instructions_prefix (h : Course floor s ms s') :
    s.sink.instructions.toList <+: s'.sink.instructions.toList := by
  rw [h.sink, Code.instructions_tell]
  exact List.prefix_append _ _

lemma size_le (h : Course floor s ms s') : s.sink.size ≤ s'.sink.size :=
  h.instructions_prefix.length_le

lemma instruction_eq {p : Nat} (h : Course floor s ms s') (hp : p < s.sink.size) :
    s'.sink.instructions[p]? = s.sink.instructions[p]? := by
  have hi : s.sink.instructions[p]? = some s.sink.instructions[p] := Array.getElem?_eq_getElem hp
  rw [hi]
  exact h.instruction hi

/-- A label gets its position where the run has come to. -/
lemma position_or_le {label : Label} {q : Nat} (h : Course floor s ms s')
    (hq : s'.sink.labelPosition? label = some q) :
    s.sink.labelPosition? label = some q ∨ s.sink.size ≤ q := by
  rw [h.sink, Code.labelPosition?_tell, Option.or_eq_some_iff] at hq
  rcases hq with hq | ⟨-, hq⟩
  · exact .inr (Event.le_of_position? hq)
  · exact .inl hq

end Course

end StackLowering
