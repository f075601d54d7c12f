import Mathlib.Tactic.SplitIfs
import StackLowering.Proofs.Moves

/-!
Runs of moves, one move after the other.

* `Session.created`, `Session.recorded`, `Session.halted`, `Session.emitted`,
  `Session.settled`: what each kind of move makes of a session.
* `Leads`: all moves of a run meet a condition when they are made, and the run
  ends in a session, or stops with a fault, as described.
* `Safe`: the condition that all moves of a tree meet.  Control reaches every
  instruction; no instruction takes a value from below a given depth; a label is
  jumped to once, and it is placed after that.
-/

namespace StackLowering

variable {σ : Type}

/-! ### Sessions after a move -/

lemma Label.eq_of_id_eq {label other : Label} (h : label.id = other.id) : label = other := by
  cases label
  cases other
  exact congrArg Label.mk h

/-- In a table with another state for one label, each state is that one or is as
before. -/
lemma LabelTable.eq_or_of_set {t : LabelTable} {label other : Label} {x y : LabelState}
    (h : (t.set label x).states[other.id]? = some y) :
    (other = label ∧ y = x) ∨ t.states[other.id]? = some y := by
  rw [set, Array.getElem?_setIfInBounds] at h
  split_ifs at h with hid
  · exact .inl ⟨Label.eq_of_id_eq hid.symm, (Option.some.inj h).symm⟩
  · exact .inr h

namespace Session

variable (s : Session σ) (i : Instruction) {label other : Label} (depth : Nat)

/-- The state of a label. -/
def state? (s : Session σ) (label : Label) : Option LabelState :=
  s.labels.states[label.id]?

lemma lt_size_of_state? {s : Session σ} {x : LabelState} (h : s.state? label = some x) :
    label.id < s.labels.size :=
  (Array.getElem?_eq_some_iff.mp h).1

/-- Labels in different states differ. -/
lemma ne_of_state? {s : Session σ} {x y : LabelState} (h : s.state? label = some x)
    (h' : s.state? other = some y) (hne : x ≠ y) : label.id ≠ other.id := by
  intro heq
  rw [state?, heq] at h
  exact hne (Option.some.inj (h.symm.trans h'))

/-- The session with one more label. -/
def created (s : Session σ) : Session σ :=
  { s with labels := ⟨s.labels.states.push (.pending none)⟩ }

@[simp] lemma depth_created : s.created.depth = s.depth := rfl

@[simp] lemma reachable_created : s.created.reachable = s.reachable := rfl

@[simp] lemma size_created : s.created.labels.size = s.labels.size + 1 := by
  simp [created, LabelTable.size]

/-- A label that is new has seen no jump. -/
@[simp] lemma state?_created_new : s.created.state? ⟨s.labels.size⟩ = some (.pending none) := by
  simp [state?, created, LabelTable.size]

lemma state?_created (h : other.id < s.labels.size) : s.created.state? other = s.state? other := by
  rw [LabelTable.size] at h
  simp [state?, created, Array.getElem?_push, Nat.ne_of_lt h]

/-- A label that is not new is in the state it was in. -/
lemma eq_or_of_created {s : Session σ} {x : LabelState} (h : s.created.state? label = some x) :
    x = .pending none ∨ s.state? label = some x := by
  rw [state?, created, Array.getElem?_push] at h
  split_ifs at h
  · exact .inl (Option.some.inj h).symm
  · exact .inr h

/-- The session after a jump to a label has been recorded. -/
def recorded (s : Session σ) (label : Label) : Session σ :=
  { s with labels := s.labels.set label (.pending (some s.depth)) }

@[simp] lemma depth_recorded : (s.recorded label).depth = s.depth := rfl

@[simp] lemma reachable_recorded : (s.recorded label).reachable = s.reachable := rfl

@[simp] lemma size_recorded : (s.recorded label).labels.size = s.labels.size := by
  simp [recorded, LabelTable.size, LabelTable.set]

lemma state?_recorded_self (h : label.id < s.labels.size) :
    (s.recorded label).state? label = some (.pending (some s.depth)) := by
  rw [LabelTable.size] at h
  simp [state?, recorded, LabelTable.set, h]

lemma state?_recorded (h : other.id ≠ label.id) :
    (s.recorded label).state? other = s.state? other := by
  simp [state?, recorded, LabelTable.set, Ne.symm h]

/-- The session in which control does not go on. -/
def halted (s : Session σ) : Session σ :=
  { s with reachable := false }

@[simp] lemma depth_halted : s.halted.depth = s.depth := rfl

@[simp] lemma reachable_halted : s.halted.reachable = false := rfl

@[simp] lemma labels_halted : s.halted.labels = s.labels := rfl

@[simp] lemma state?_halted : s.halted.state? label = s.state? label := rfl

variable [Sink σ]

/-- The session after an instruction. -/
def emitted (s : Session σ) (i : Instruction) : Session σ :=
  { s with
    sink := Sink.emit s.sink i
    depth := s.depth - i.effect.pops + i.effect.pushes
    maxDepth := max s.maxDepth (s.depth - i.effect.pops + i.effect.pushes) }

@[simp] lemma depth_emitted :
    (s.emitted i).depth = s.depth - i.effect.pops + i.effect.pushes := rfl

@[simp] lemma reachable_emitted : (s.emitted i).reachable = s.reachable := rfl

@[simp] lemma labels_emitted : (s.emitted i).labels = s.labels := rfl

@[simp] lemma state?_emitted : (s.emitted i).state? label = s.state? label := rfl

/-- The session after a label has been placed, with `depth` values on the stack. -/
def settled (s : Session σ) (label : Label) (depth : Nat) : Session σ :=
  { s with
    sink := Sink.placeLabel s.sink label
    labels := s.labels.set label (.placed depth)
    depth := depth
    reachable := true }

@[simp] lemma depth_settled : (s.settled label depth).depth = depth := rfl

@[simp] lemma reachable_settled : (s.settled label depth).reachable = true := rfl

@[simp] lemma size_settled : (s.settled label depth).labels.size = s.labels.size := by
  simp [settled, LabelTable.size, LabelTable.set]

lemma state?_settled_self (h : label.id < s.labels.size) :
    (s.settled label depth).state? label = some (.placed depth) := by
  rw [LabelTable.size] at h
  simp [state?, settled, LabelTable.set, h]

lemma state?_settled (h : other.id ≠ label.id) :
    (s.settled label depth).state? other = s.state? other := by
  simp [state?, settled, LabelTable.set, Ne.symm h]

end Session

variable [Sink σ]

/-! ### Single moves -/

namespace Move

variable {s : Session σ} {label : Label} {depth : Nat}

lemma run_create_of_lt (h : s.labels.size < LabelTable.limit) :
    create.perform.run s = .ok () s.created := by
  rw [perform, EStateM.run_bind, Lowering.newLabel, Lowering.run_onLabels, LabelTable.run_create,
    if_pos h]
  rfl

lemma run_create_of_le (h : LabelTable.limit ≤ s.labels.size) :
    create.perform.run s = .error .tooManyLabels s := by
  rw [perform, EStateM.run_bind, Lowering.newLabel, Lowering.run_onLabels, LabelTable.run_create,
    if_neg (Nat.not_lt.mpr h)]

omit [Sink σ] in
/-- The first jump to a label is recorded with its depth. -/
lemma run_reference (h : s.state? label = some (.pending none)) :
    (Lowering.reference label).run s = .ok () (s.recorded label) := by
  rw [Session.state?] at h
  rw [Lowering.run_reference, Lowering.run_onLabels, LabelTable.run_reference, h]
  rfl

lemma run_branch {condition : Condition} (h : s.state? label = some (.pending none)) :
    (branch condition label).perform.run s
      = .ok () ((s.emitted (.branch condition label)).recorded label) := by
  rw [perform, Lowering.branch, EStateM.run_bind, Lowering.run_emit]
  exact run_reference h

lemma run_goto (h : s.state? label = some (.pending none)) :
    (goto label).perform.run s
      = .ok () ((s.emitted (.goto label)).recorded label).halted := by
  have href : (Lowering.reference label).run (s.emitted (.goto label))
      = .ok () ((s.emitted (.goto label)).recorded label) := run_reference h
  rw [perform, Lowering.goto, EStateM.run_bind, Lowering.run_emit]
  change (Lowering.reference label >>= fun _ => _).run (s.emitted (.goto label)) = _
  rw [EStateM.run_bind, href]
  rfl

/-- A label that control reaches only by its jump has the depth of that jump. -/
lemma run_place_of_halted (hs : s.reachable = false)
    (h : s.state? label = some (.pending (some depth))) :
    (place label).perform.run s = .ok () (s.settled label depth) := by
  rw [Session.state?] at h
  rw [perform, Lowering.run_place, LabelTable.run_place, h, hs]
  rfl

/-- Where control also comes from the code before a label, the depths agree. -/
lemma run_place_of_eq (hs : s.reachable = true)
    (h : s.state? label = some (.pending (some s.depth))) :
    (place label).perform.run s = .ok () (s.settled label s.depth) := by
  rw [Session.state?] at h
  rw [perform, Lowering.run_place, LabelTable.run_place, h, if_pos hs]
  simp [LabelTable.run_depthAt, Session.settled]

lemma run_place_of_ne (hs : s.reachable = true)
    (h : s.state? label = some (.pending (some depth))) (hne : depth ≠ s.depth) :
    (place label).perform.run s = .error (.stackImbalance depth s.depth) s := by
  rw [Session.state?] at h
  rw [perform, Lowering.run_place, LabelTable.run_place, h, if_pos hs]
  simp [LabelTable.run_depthAt, hne]

end Move

/-! ### Runs -/

/-- Every move meets `P` in the session in which it is made; if the run succeeds
it ends in a session with `Q`, and if it stops it does so with `R`. -/
def Leads (P : Move → Session σ → Prop) (Q : Session σ → Prop) (R : Fault → Session σ → Prop) :
    List Move → Session σ → Prop
  | [], s => Q s
  | m :: ms, s => P m s ∧
      match m.perform.run s with
      | .ok _ s' => Leads P Q R ms s'
      | .error fault s' => R fault s'

namespace Leads

variable {P P' : Move → Session σ → Prop} {Q Q' : Session σ → Prop}
  {R R' : Fault → Session σ → Prop} {ms ns : List Move} {s s' : Session σ}

lemma cons_ok {m : Move} (hP : P m s) (hrun : m.perform.run s = .ok () s')
    (h : Leads P Q R ms s') : Leads P Q R (m :: ms) s := by
  refine ⟨hP, ?_⟩
  rw [hrun]
  exact h

lemma cons_error {m : Move} {fault : Fault} (hP : P m s)
    (hrun : m.perform.run s = .error fault s') (h : R fault s') : Leads P Q R (m :: ms) s := by
  refine ⟨hP, ?_⟩
  rw [hrun]
  exact h

lemma mono (h : Leads P Q R ms s) (hP : ∀ m s, P m s → P' m s) (hQ : ∀ s, Q s → Q' s)
    (hR : ∀ fault s, R fault s → R' fault s) : Leads P' Q' R' ms s := by
  induction ms generalizing s with
  | nil => exact hQ s h
  | cons m ms ih =>
      obtain ⟨hm, hnext⟩ := h
      refine ⟨hP m s hm, ?_⟩
      cases hrun : m.perform.run s with
      | ok u s₁ =>
          rw [hrun] at hnext
          exact ih hnext
      | error fault s₁ =>
          rw [hrun] at hnext
          exact hR fault s₁ hnext

lemma imp (h : Leads P Q R ms s) (hQ : ∀ s, Q s → Q' s) : Leads P Q' R ms s :=
  h.mono (fun _ _ hm => hm) hQ (fun _ _ hR => hR)

/-- A run of two parts, cut at the session in which the first one ends. -/
lemma append_iff : Leads P Q R (ms ++ ns) s ↔ Leads P (Leads P Q R ns) R ms s := by
  induction ms generalizing s with
  | nil => rfl
  | cons m ms ih =>
      show (P m s ∧ _) ↔ (P m s ∧ _)
      cases m.perform.run s with
      | ok u s₁ => exact and_congr_right fun _ => ih
      | error fault s₁ => rfl

/-- Runs are put together at the session in which the first one ends. -/
lemma append (h : Leads P Q R ms s) (h' : ∀ s', Q s' → Leads P Q' R ns s') :
    Leads P Q' R (ms ++ ns) s :=
  append_iff.mpr (h.imp h')

/-- A run that succeeds ends as described. -/
lemma of_ok (h : Leads P Q R ms s) (hrun : (follow ms).run s = .ok () s') : Q s' := by
  induction ms generalizing s with
  | nil =>
      cases hrun
      exact h
  | cons m ms ih =>
      obtain ⟨-, hnext⟩ := h
      rw [follow, EStateM.run_bind] at hrun
      cases hm : m.perform.run s with
      | ok u s₁ =>
          rw [hm] at hnext hrun
          exact ih hnext hrun
      | error fault s₁ =>
          rw [hm] at hrun
          cases hrun

/-- A run that stops does so as described. -/
lemma of_error {fault : Fault} (h : Leads P Q R ms s)
    (hrun : (follow ms).run s = .error fault s') : R fault s' := by
  induction ms generalizing s with
  | nil => cases hrun
  | cons m ms ih =>
      obtain ⟨-, hnext⟩ := h
      rw [follow, EStateM.run_bind] at hrun
      cases hm : m.perform.run s with
      | ok u s₁ =>
          rw [hm] at hnext hrun
          exact ih hnext hrun
      | error fault' s₁ =>
          rw [hm] at hnext hrun
          cases hrun
          exact hnext

end Leads

/-! ### Safe moves -/

/-- Control reaches an instruction, and the values it takes lie above `floor`.  A
label is new when it is jumped to and has been jumped to when it is placed. -/
def Safe (floor : Nat) : Move → Session σ → Prop
  | .refuse _, _ | .create, _ => True
  | .emit i, s => s.reachable = true ∧ i.target? = none ∧ floor + i.effect.pops ≤ s.depth
  | .branch condition target, s =>
      s.reachable = true ∧ floor + condition.operands ≤ s.depth ∧
        s.state? target = some (.pending none)
  | .goto target, s =>
      s.reachable = true ∧ floor ≤ s.depth ∧ s.state? target = some (.pending none)
  | .place label, s => ∃ depth, floor ≤ depth ∧ s.state? label = some (.pending (some depth))

/-! ### What safe moves do -/

namespace Session

/-- The depth at a label when it is placed: that of the jump to it. -/
def depthAt (s : Session σ) (label : Label) : Nat :=
  match s.state? label with
  | some (.pending (some depth)) => depth
  | _ => s.depth

omit [Sink σ] in
lemma depthAt_of_pending {s : Session σ} {label : Label} {depth : Nat}
    (h : s.state? label = some (.pending (some depth))) : s.depthAt label = depth := by
  rw [depthAt, h]

/-- The session after a safe move that succeeds. -/
def moved (s : Session σ) : Move → Session σ
  | .refuse _ => s
  | .create => s.created
  | .emit i => s.emitted i
  | .branch condition target => (s.emitted (.branch condition target)).recorded target
  | .goto target => ((s.emitted (.goto target)).recorded target).halted
  | .place label => s.settled label (s.depthAt label)

lemma size_moved (s : Session σ) (m : Move) :
    (s.moved m).labels.size = s.labels.size + if m.isCreate then 1 else 0 := by
  cases m with
  | create => exact s.size_created
  | branch condition target => exact size_recorded _
  | goto target => exact size_recorded _
  | place label => exact size_settled _ _
  | _ => rfl

end Session

/-- What has to hold beyond safety for a move to succeed: the depths from the two
sides of a label agree. -/
def Passes : Move → Session σ → Prop
  | .refuse _, _ => False
  | .place label, s => s.reachable = true → s.depthAt label = s.depth
  | _, _ => True

/-- A safe move succeeds or leaves the session as it was. -/
lemma Safe.run_cases {floor : Nat} {m : Move} {s : Session σ} (h : Safe floor m s) :
    (m.perform.run s = .ok () (s.moved m) ∧ Passes m s) ∨
      ∃ fault, m.perform.run s = .error fault s := by
  cases m with
  | refuse fault => exact .inr ⟨fault, rfl⟩
  | create =>
      by_cases hlt : s.labels.size < LabelTable.limit
      · exact .inl ⟨Move.run_create_of_lt hlt, trivial⟩
      · exact .inr ⟨_, Move.run_create_of_le (Nat.not_lt.mp hlt)⟩
  | emit i => exact .inl ⟨rfl, trivial⟩
  | branch condition target => exact .inl ⟨Move.run_branch h.2.2, trivial⟩
  | goto target => exact .inl ⟨Move.run_goto h.2.2, trivial⟩
  -- the only safe move that can fail for its depth: control comes to the label from two sides
  | place label =>
      obtain ⟨depth, -, hstate⟩ := h
      have hdepth := Session.depthAt_of_pending hstate
      cases hs : s.reachable with
      | false =>
          have hrun := Move.run_place_of_halted hs hstate
          rw [← hdepth] at hrun
          exact .inl ⟨hrun, fun hs' => absurd (hs.symm.trans hs') Bool.false_ne_true⟩
      | true =>
          by_cases heq : depth = s.depth
          · rw [heq] at hstate hdepth
            have hrun := Move.run_place_of_eq hs hstate
            rw [Session.moved, hdepth]
            exact .inl ⟨hrun, fun _ => hdepth⟩
          · exact .inr ⟨_, Move.run_place_of_ne hs hstate heq⟩

/-- A safe run that succeeds, move by move. -/
inductive Course (floor : Nat) : Session σ → List Move → Session σ → Prop
  | nil (s : Session σ) : Course floor s [] s
  | cons {s s' : Session σ} {m : Move} {ms : List Move} (hsafe : Safe floor m s)
      (hpass : Passes m s) (h : Course floor (s.moved m) ms s') : Course floor s (m :: ms) s'

lemma Course.append {floor : Nat} {s s₁ s' : Session σ} {ms ns : List Move}
    (h : Course floor s ms s₁) (h' : Course floor s₁ ns s') : Course floor s (ms ++ ns) s' := by
  induction h with
  | nil => exact h'
  | cons hsafe hpass _ ih => exact .cons hsafe hpass (ih h')

namespace Leads

variable {floor : Nat} {Q : Session σ → Prop} {R : Fault → Session σ → Prop} {ms : List Move}
  {s s' : Session σ}

/-- What every safe move keeps holds at the end of a run, also if it fails. -/
lemma keeps {I : Session σ → Prop} (hstep : ∀ m s, Safe floor m s → I s → I (s.moved m))
    (h : Leads (Safe floor) Q R ms s) (hs : I s) :
    match (follow ms).run s with
    | .ok _ s' | .error _ s' => I s' := by
  induction ms generalizing s with
  | nil => exact hs
  | cons m ms ih =>
      obtain ⟨hsafe, hnext⟩ := h
      rw [follow, EStateM.run_bind]
      -- a move that fails leaves the session alone, so the invariant holds there as well
      rcases hsafe.run_cases with ⟨hrun, -⟩ | ⟨fault, hrun⟩
      · rw [hrun] at hnext ⊢
        exact ih hnext (hstep m s hsafe hs)
      · rw [hrun]
        exact hs

lemma course (h : Leads (Safe floor) Q R ms s) (hrun : (follow ms).run s = .ok () s') :
    Course floor s ms s' := by
  induction ms generalizing s with
  | nil =>
      cases hrun
      exact .nil _
  | cons m ms ih =>
      obtain ⟨hsafe, hnext⟩ := h
      rw [follow, EStateM.run_bind] at hrun
      rcases hsafe.run_cases with ⟨hm, hpass⟩ | ⟨fault, hm⟩
      · rw [hm] at hnext hrun
        exact .cons hsafe hpass (ih hnext hrun)
      · rw [hm] at hrun
        cases hrun

end Leads

/-! ### Rules for safe runs -/

namespace Leads

variable {floor : Nat} {Q : Session σ → Prop} {R : Fault → Session σ → Prop} {ms : List Move}
  {s : Session σ} {label : Label}

lemma refuse {fault : Fault} (h : R fault s) : Leads (Safe floor) Q R (.refuse fault :: ms) s :=
  cons_error trivial rfl h

lemma create (hR : R .tooManyLabels s) (h : Leads (Safe floor) Q R ms s.created) :
    Leads (Safe floor) Q R (.create :: ms) s := by
  by_cases hlt : s.labels.size < LabelTable.limit
  · exact cons_ok trivial (Move.run_create_of_lt hlt) h
  · exact cons_error trivial (Move.run_create_of_le (Nat.not_lt.mp hlt)) hR

lemma emit {i : Instruction} (hs : s.reachable = true) (htarget : i.target? = none)
    (hdepth : floor + i.effect.pops ≤ s.depth) (h : Leads (Safe floor) Q R ms (s.emitted i)) :
    Leads (Safe floor) Q R (.emit i :: ms) s :=
  cons_ok ⟨hs, htarget, hdepth⟩ rfl h

lemma branch {condition : Condition} (hs : s.reachable = true)
    (hdepth : floor + condition.operands ≤ s.depth) (hstate : s.state? label = some (.pending none))
    (h : Leads (Safe floor) Q R ms ((s.emitted (.branch condition label)).recorded label)) :
    Leads (Safe floor) Q R (.branch condition label :: ms) s :=
  cons_ok ⟨hs, hdepth, hstate⟩ (Move.run_branch hstate) h

lemma goto (hs : s.reachable = true) (hdepth : floor ≤ s.depth)
    (hstate : s.state? label = some (.pending none))
    (h : Leads (Safe floor) Q R ms ((s.emitted (.goto label)).recorded label).halted) :
    Leads (Safe floor) Q R (.goto label :: ms) s :=
  cons_ok ⟨hs, hdepth, hstate⟩ (Move.run_goto hstate) h

lemma place_of_halted {depth : Nat} (hs : s.reachable = false) (hdepth : floor ≤ depth)
    (hstate : s.state? label = some (.pending (some depth)))
    (h : Leads (Safe floor) Q R ms (s.settled label depth)) :
    Leads (Safe floor) Q R (.place label :: ms) s :=
  cons_ok ⟨depth, hdepth, hstate⟩ (Move.run_place_of_halted hs hstate) h

/-- Where control comes to a label from two sides, the two depths agree or the
run stops. -/
lemma place {depth : Nat} (hs : s.reachable = true) (hdepth : floor ≤ depth)
    (hstate : s.state? label = some (.pending (some depth)))
    (hR : depth ≠ s.depth → R (.stackImbalance depth s.depth) s)
    (h : depth = s.depth → Leads (Safe floor) Q R ms (s.settled label depth)) :
    Leads (Safe floor) Q R (.place label :: ms) s := by
  by_cases heq : depth = s.depth
  · subst heq
    exact cons_ok ⟨s.depth, hdepth, hstate⟩ (Move.run_place_of_eq hs hstate) (h rfl)
  · exact cons_error ⟨depth, hdepth, hstate⟩ (Move.run_place_of_ne hs hstate heq) (hR heq)

/-- The moves after a choice are made if the choice succeeds. -/
lemma guarded {α : Type} {choice : Except Fault α} {next : α → List Move}
    (hR : ∀ fault, choice = .error fault → R fault s)
    (h : ∀ a, choice = .ok a → Leads (Safe floor) Q R (next a) s) :
    Leads (Safe floor) Q R (Move.guarded choice next) s := by
  cases choice with
  | ok a => exact h a rfl
  | error fault => exact refuse (hR fault rfl)

end Leads

end StackLowering
