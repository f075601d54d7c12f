import StackLowering.Proofs.Machine
import StackLowering.Proofs.Telling
import StackLowering.Proofs.Visits

/-!
Where control goes in emitted code.

* `Session.Forward`: no jump goes back, whatever steps have been made and whether or not
  they have failed.
* `Code.Enclosed`: control enters a segment of code at its first position and leaves it to
  the position after it.
* `Code.Forward.steps_lt`, `Code.Forward.ends`: in code without jumps back, no instruction
  runs twice, and the machine comes to the end of the code or to an instruction that fails.
* `Expr.single_entry_single_exit`: the code of every occurrence in a tree is such a segment.
-/

namespace StackLowering

open Event (extent)

/-! ### Code without jumps back -/

/-- Every jump to a label that has a position goes forward. -/
def Code.Forward (c : Code) : Prop :=
  ∀ p i label q, c.instructions[p]? = some i → i.target? = some label →
    c.labelPosition? label = some q → p < q ∧ q ≤ c.size

namespace Session

/-- A label that has a position has been placed; a jump goes to a label that has been
created, and forward if that label has a position. -/
structure Forward (s : Session Code) : Prop where
  position : ∀ label q, s.sink.labelPosition? label = some q →
    q ≤ s.sink.size ∧ ∃ depth, s.state? label = some (.placed depth)
  jump : ∀ p i label, s.sink.instructions[p]? = some i → i.target? = some label →
    label.id < s.labels.size ∧ ∀ q, s.sink.labelPosition? label = some q → p < q

namespace Forward

variable {s : Session Code} {label : Label} {floor : Nat}

lemma start : (Session.start Code.empty).Forward where
  position label q hq := by
    rw [Session.start, Code.labelPosition?_empty] at hq
    cases hq
  jump p i label hi := by cases hi

lemma code (h : s.Forward) : s.sink.Forward :=
  fun p i label q hi hlabel hq =>
    ⟨(h.jump p i label hi hlabel).2 q hq, (h.position label q hq).1⟩

/-- A label that has yet to be placed has no position. -/
lemma labelPosition?_eq_none {depth : Option Nat} (h : s.Forward)
    (hstate : s.state? label = some (.pending depth)) : s.sink.labelPosition? label = none := by
  refine Option.eq_none_iff_forall_ne_some.mpr fun q hq => ?_
  obtain ⟨-, depth', hplaced⟩ := h.position label q hq
  cases hstate.symm.trans hplaced

lemma created (h : s.Forward) : s.created.Forward where
  position label q hq := by
    obtain ⟨hle, depth, hstate⟩ := h.position label q hq
    exact ⟨hle, depth, (s.state?_created (lt_size_of_state? hstate)).trans hstate⟩
  jump p i label hi hlabel := by
    obtain ⟨hlt, hjump⟩ := h.jump p i label hi hlabel
    exact ⟨by rw [size_created]; omega, hjump⟩

/-- An instruction may jump to a label that has yet to be placed. -/
lemma emitted {i : Instruction} (h : s.Forward)
    (hi : ∀ label, i.target? = some label → s.state? label = some (.pending none)) :
    (s.emitted i).Forward where
  position label q hq := by
    obtain ⟨hle, hstate⟩ := h.position label q hq
    have hsize : (s.emitted i).sink.size = s.sink.size + 1 := Array.size_push _
    exact ⟨by omega, hstate⟩
  jump p j label hj hlabel := by
    have hpush : (s.sink.instructions.push i)[p]? = some j := hj
    rw [Array.getElem?_push] at hpush
    split_ifs at hpush with hp
    · cases hpush
      have hstate := hi label hlabel
      refine ⟨lt_size_of_state? hstate, fun q hq => ?_⟩
      cases (h.labelPosition?_eq_none hstate).symm.trans hq
    · exact h.jump p j label hpush hlabel

lemma recorded (h : s.Forward) (hlabel : s.state? label = some (.pending none)) :
    (s.recorded label).Forward where
  position other q hq := by
    obtain ⟨hle, depth, hstate⟩ := h.position other q hq
    have hne := ne_of_state? hstate hlabel (by simp)
    exact ⟨hle, depth, (s.state?_recorded hne).trans hstate⟩
  jump p i other hi hother := by
    rw [size_recorded]
    exact h.jump p i other hi hother

lemma halted (h : s.Forward) : s.halted.Forward :=
  ⟨h.position, h.jump⟩

/-- A label is placed after all jumps to it. -/
lemma settled {depth depth' : Nat} (h : s.Forward)
    (hlabel : s.state? label = some (.pending (some depth'))) :
    (s.settled label depth).Forward where
  position other q hq := by
    have hq' : (s.sink.placeLabel label).labelPosition? other = some q := hq
    rw [Code.labelPosition?_placeLabel] at hq'
    split_ifs at hq' with heq
    · cases hq'
      subst heq
      exact ⟨Nat.le_refl _, depth, s.state?_settled_self depth (lt_size_of_state? hlabel)⟩
    · obtain ⟨hle, depth', hstate⟩ := h.position other q hq'
      have hne := ne_of_state? hstate hlabel (by simp)
      exact ⟨hle, depth', (s.state?_settled depth hne).trans hstate⟩
  -- the position of the label is the end of the code, behind all jumps that there are
  jump p i other hi hother := by
    obtain ⟨hlt, hjump⟩ := h.jump p i other hi hother
    refine ⟨by rw [size_settled]; exact hlt, fun q hq => ?_⟩
    have hq' : (s.sink.placeLabel label).labelPosition? other = some q := hq
    rw [Code.labelPosition?_placeLabel] at hq'
    split_ifs at hq'
    · cases hq'
      exact (Array.getElem?_eq_some_iff.mp hi).1
    · exact hjump q hq'

/-- **One move** adds no jump back. -/
lemma moved {m : Move} (h : s.Forward) (hsafe : Safe floor m s) : (s.moved m).Forward := by
  cases m with
  | refuse fault => exact h
  | create => exact h.created
  | emit i =>
      refine h.emitted fun label hlabel => ?_
      rw [hsafe.2.1] at hlabel
      cases hlabel
  | branch condition target =>
      refine (h.emitted ?_).recorded hsafe.2.2
      rintro label ⟨⟩
      exact hsafe.2.2
  | goto target =>
      refine ((h.emitted ?_).recorded hsafe.2.2).halted
      rintro label ⟨⟩
      exact hsafe.2.2
  | place label =>
      obtain ⟨depth, -, hstate⟩ := hsafe
      exact h.settled hstate

lemma course {s' : Session Code} {ms : List Move} (hcourse : Course floor s ms s')
    (h : s.Forward) : s'.Forward := by
  induction hcourse with
  | nil => exact h
  | cons hsafe _ _ ih => exact ih (h.moved hsafe)

/-- **All steps**, also those that fail, add no jump back. -/
theorem after (steps : List (Config × Step)) :
    ((Session.start Code.empty).after steps).Forward := by
  have hstart : (Session.start Code.empty).Reached ∧ (Session.start Code.empty).Forward :=
    ⟨.start _, start⟩
  refine (after_keeps (I := fun s => s.Reached ∧ s.Forward) ?_ hstart steps).2
  intro s config step hs
  refine ⟨hs.1.step config step, step_keeps config step ?_⟩
  rw [Expr.lower_eq_follow]
  have hleads := step.expr.moves_lead Code config 0 s hs.1.live (Nat.zero_le _)
  exact hleads.keeps (fun m s hsafe h => h.moved hsafe) hs.2

end Forward

end Session

/-! ### Segments -/

/-- The jumps between `first` and `last` go forward and at most to `last`, and the jumps from
elsewhere do not go to positions that lie strictly between the two. -/
structure Code.Enclosed (c : Code) (first last : Nat) : Prop where
  exit : ∀ p i label, first ≤ p → p < last → c.instructions[p]? = some i →
    i.target? = some label → ∃ q, c.labelPosition? label = some q ∧ p < q ∧ q ≤ last
  entry : ∀ p i label q, p < first ∨ last ≤ p → c.instructions[p]? = some i →
    i.target? = some label → c.labelPosition? label = some q → q ≤ first ∨ last ≤ q

/-- **The code of a tree is enclosed**, also in the code that comes to stand after it. -/
lemma Expr.enclosed {config : Config} {e : Expr} {s₁ s₂ s' : Session Code} {floor : Nat}
    {rest : List Move} (h₁ : s₁.Forward) (hs₁ : s₁.reachable = true)
    (hrun : (e.lower config).run s₁ = .ok () s₂) (hrest : Course floor s₂ rest s') :
    s'.sink.Enclosed s₁.sink.size s₂.sink.size := by
  have hcourse := e.course_of_lower_eq_ok config hs₁ hrun
  obtain ⟨hadvance, -⟩ := e.advance_of_lower_eq_ok config hs₁ hrun
  obtain ⟨hholds, hsize⟩ := hcourse.holds
  have huses := e.uses_moves _ hcourse.clean
  have h₂ : s₂.Forward := .course hcourse h₁
  have h' : s'.Forward := .course hrest h₂
  refine ⟨fun p i label hp hlt hi hlabel => ?_, fun p i label q hp hi hlabel hq => ?_⟩
  · -- the label of a jump in the segment is placed in the segment
    rw [hrest.instruction_eq hlt] at hi
    have hitem := hholds.mem_of_instruction hp (by omega) hi
    obtain ⟨q, hq, hle⟩ := hholds.exists_position (hcourse.placed_of_target huses hitem hlabel)
    obtain ⟨-, depth, hstate⟩ := h₂.position label q hq
    have hq' := (hrest.labelPosition? hstate).trans hq
    have hi' := (hrest.instruction_eq hlt).trans hi
    exact ⟨q, hq', (h'.jump p i label hi' hlabel).2 q hq', by omega⟩
  · rcases hp with hp | hp
    · -- a label from before the segment stays as it is until the segment ends
      have hlt : p < s₂.sink.size := Nat.lt_of_lt_of_le hp hcourse.size_le
      rw [hrest.instruction_eq hlt, hcourse.instruction_eq hp] at hi
      rcases hrest.position_or_le hq with hq | hle
      · obtain ⟨-, depth, hstate⟩ := h₂.position label q hq
        rw [hadvance.keeps label (h₁.jump p i label hi hlabel).1] at hstate
        rw [hcourse.labelPosition? hstate] at hq
        exact .inl (h₁.position label q hq).1
      · exact .inr hle
    · exact .inr (Nat.le_of_lt (Nat.lt_of_le_of_lt hp ((h'.jump p i label hi hlabel).2 q hq)))

/-! ### Executions -/

namespace Code.Forward

variable {V W E : Type} {I : Interpretation V W E} {c : Code} {frame frame' : Frame V} {w w' : W}

/-- A jump of the machine goes forward. -/
lemma lt_of_jump {i : Instruction} {label : Label} {stack : List V} {p : Nat} (hc : c.Forward)
    (hi : c.instructions[p]? = some i) (hlabel : i.target? = some label)
    (h : (I.jump c label stack).run w = .ok frame' w') : p < frame'.pos ∧ frame'.pos ≤ c.size := by
  rw [Interpretation.jump] at h
  cases hq : c.labelPosition? label with
  | none =>
      rw [hq] at h
      cases h
  | some q =>
      rw [hq] at h
      cases h
      exact hc p i label q hi hlabel hq

/-- **One step** of the machine goes forward. -/
lemma lt_of_step (hc : c.Forward) (h : (I.step c frame).run w = .ok frame' w') :
    frame.pos < frame'.pos ∧ frame'.pos ≤ c.size := by
  cases hi : c.instructions[frame.pos]? with
  | none =>
      rw [Interpretation.step, hi] at h
      cases h
  | some i =>
      have hlt : frame.pos < c.size := (Array.getElem?_eq_some_iff.mp hi).1
      cases i with
      | goto target =>
          rw [Interpretation.step, hi] at h
          exact hc.lt_of_jump hi rfl h
      | branch condition target =>
          rw [Interpretation.step, hi] at h
          dsimp only at h
          rw [EStateM.run_bind] at h
          cases hholds : (I.holds condition frame.stack).run w with
          | error error w₁ =>
              rw [hholds] at h
              cases h
          | ok r w₁ =>
              rw [hholds] at h
              obtain ⟨taken, stack⟩ := r
              cases taken with
              | true => exact hc.lt_of_jump hi rfl h
              | false =>
                  cases h
                  exact ⟨Nat.lt_succ_self _, hlt⟩
      | _ =>
          rw [I.step_of_exec hi rfl, EStateM.run_bind] at h
          split at h
          · cases h
            exact ⟨Nat.lt_succ_self _, hlt⟩
          · cases h

/-- Steps go forward by at least one position each. -/
lemma le_of_steps {n : Nat} (hc : c.Forward) (h : (I.steps c n frame).run w = .ok frame' w') :
    frame.pos + n ≤ frame'.pos := by
  induction n generalizing frame w with
  | zero =>
      cases h
      exact Nat.le_refl _
  | succ n ih =>
      rw [Interpretation.steps, EStateM.run_bind] at h
      cases hstep : (I.step c frame).run w with
      | error error w₁ =>
          rw [hstep] at h
          cases h
      | ok frame₁ w₁ =>
          rw [hstep] at h
          have hlt := (hc.lt_of_step hstep).1
          have hle := ih h
          omega

/-- **No instruction runs twice**: at different times the machine is at different positions. -/
theorem steps_lt {m n : Nat} {frame₁ frame₂ : Frame V} {w₁ w₂ : W} (hc : c.Forward) (hmn : m < n)
    (h₁ : (I.steps c m frame).run w = .ok frame₁ w₁)
    (h₂ : (I.steps c n frame).run w = .ok frame₂ w₂) : frame₁.pos < frame₂.pos := by
  induction m generalizing n frame w with
  | zero =>
      cases h₁
      have hle := hc.le_of_steps h₂
      omega
  | succ m ih =>
      obtain ⟨n, rfl⟩ := Nat.exists_eq_succ_of_ne_zero (Nat.ne_of_gt (Nat.zero_lt_of_lt hmn))
      rw [Interpretation.steps, EStateM.run_bind] at h₁ h₂
      cases hstep : (I.step c frame).run w with
      | error error w' =>
          rw [hstep] at h₁
          cases h₁
      | ok frame' w' =>
          rw [hstep] at h₁ h₂
          exact ih (Nat.lt_of_succ_lt_succ hmn) h₁ h₂

/-- **The machine ends**: it comes to the end of the code, or to an instruction that fails. -/
theorem ends (hc : c.Forward) (hle : frame.pos ≤ c.size) (w : W) :
    ∃ n frame' w', n ≤ c.size - frame.pos ∧ (I.steps c n frame).run w = .ok frame' w' ∧
      (frame'.pos = c.size ∨
        frame'.pos < c.size ∧ ∃ error w'', (I.step c frame').run w' = .error error w'') := by
  -- the number of instructions ahead falls with each step, since no step goes back
  generalize hleft : c.size - frame.pos = left
  induction left using Nat.strongRecOn generalizing frame w with
  | ind left ih =>
      by_cases hend : frame.pos = c.size
      · exact ⟨0, frame, w, Nat.zero_le _, rfl, .inl hend⟩
      · cases hstep : (I.step c frame).run w with
        | error error w₁ =>
            exact ⟨0, frame, w, Nat.zero_le _, rfl, .inr ⟨by omega, error, w₁, hstep⟩⟩
        | ok frame₁ w₁ =>
            obtain ⟨hlt, hle₁⟩ := hc.lt_of_step hstep
            obtain ⟨n, frame', w', hn, hsteps, hfinal⟩ := ih _ (by omega) hle₁ w₁ rfl
            refine ⟨n + 1, frame', w', by omega, ?_, hfinal⟩
            rw [Interpretation.steps, EStateM.run_bind, hstep]
            exact hsteps

end Code.Forward

/-! ### Trees -/

/-- **Single entry and single exit.**  Let a tree be accepted after any steps in a session, failed
ones included.  Each occurrence of a tree in it is visited, and what is emitted meanwhile is
a segment of the code with at least one instruction.  The jumps in it go forward and at most to
its end, and no other jump goes into it beyond its first position.  So in every execution no
instruction runs twice, and after at most as many steps as there are instructions from where it
starts to the end, the machine is at the end of the code or an instruction has failed. -/
theorem Expr.single_entry_single_exit (config : Config) (e : Expr)
    (earlier : List (Config × Step)) {s s' : Session Code}
    (hs : s = (Session.start Code.empty).after earlier)
    (hrun : (e.lower config).run s = .ok () s') :
    (∀ path f, e.at? path = some f → ∃ (s₁ s₂ : Session Code) (rest : List Move),
      e.visited? config path s = some s₁ ∧ (f.lower config).run s₁ = .ok () s₂ ∧
        (follow rest).run s₂ = .ok () s' ∧
        s.sink.instructions.toList <+: s₁.sink.instructions.toList ∧
        s₁.sink.instructions.toList <+: s₂.sink.instructions.toList ∧
        s₂.sink.instructions.toList <+: s'.sink.instructions.toList ∧
        s₁.sink.size < s₂.sink.size ∧ s'.sink.Enclosed s₁.sink.size s₂.sink.size) ∧
      ∀ {V W E : Type} (I : Interpretation V W E) (frame : Frame V) (w : W),
        (∀ m n frame₁ frame₂ w₁ w₂, m < n →
          (I.steps s'.sink m frame).run w = .ok frame₁ w₁ →
          (I.steps s'.sink n frame).run w = .ok frame₂ w₂ → frame₁.pos < frame₂.pos) ∧
        (frame.pos ≤ s'.sink.size → ∃ n frame' w', n ≤ s'.sink.size - frame.pos ∧
          (I.steps s'.sink n frame).run w = .ok frame' w' ∧
          (frame'.pos = s'.sink.size ∨ frame'.pos < s'.sink.size ∧
            ∃ error w'', (I.step s'.sink frame').run w' = .error error w'')) := by
  have hlive : s.reachable = true := by
    rw [hs]
    exact ((Session.Reached.start _).after earlier).live
  have hforward : s.Forward := by
    rw [hs]
    exact .after earlier
  have hcourse := e.course_of_lower_eq_ok config hlive hrun
  have hforward' : s'.Forward := .course hcourse hforward
  refine ⟨fun path f hf => ?_, fun I frame w => ⟨?_, ?_⟩⟩
  · obtain ⟨s₁, s₂, lead, rest, hvisited, hlead, hs₁, hlower, hrest, hcourse'⟩ :=
      visit hlive hrun hf
    have h₁ : s₁.Forward := .course hlead hforward
    have hvisit := f.course_of_lower_eq_ok config hs₁ hlower
    refine ⟨s₁, s₂, rest, hvisited, hlower, hrest, hlead.instructions_prefix,
      hvisit.instructions_prefix, hcourse'.instructions_prefix, ?_, enclosed h₁ hs₁ hlower hcourse'⟩
    obtain ⟨i, ms, hms⟩ := f.begins_moves _ hvisit.clean
    rw [hvisit.holds.2, hms, Move.events_emit, extent]
    omega
  · intro m n frame₁ frame₂ w₁ w₂ hmn h₁ h₂
    exact hforward'.code.steps_lt hmn h₁ h₂
  · intro hle
    exact hforward'.code.ends hle w

/-- After a step that has failed behind a jump, the code of a disjunction below a negation. -/
theorem Expr.single_entry_single_exit_of_not :
    let failing : Expr := .or (.load ⟨1, .ofPrimitive .int⟩) (.pop (.literal .null))
    let s := (Session.start Code.empty).after [({}, .lower failing)]
    let f : Expr := .or (.load ⟨1, .ofPrimitive .int⟩) (.load ⟨2, .ofPrimitive .boolean⟩)
    let e : Expr := .not f
    s.sink.size = 2 ∧ ∃ s', (e.lower {}).run s = .ok () s' ∧
      ∃ s₁ s₂, e.visited? {} [0] s = some s₁ ∧ (f.lower {}).run s₁ = .ok () s₂ ∧
        s₁.sink.size < s₂.sink.size ∧ s'.sink.Enclosed s₁.sink.size s₂.sink.size := by
  intro failing s f e
  have hs : s = (Session.start Code.empty).after [({}, .lower failing)] := rfl
  have hsize : s.sink.size = 2 := by
    simp only [s, failing]
    decide +kernel
  have hok : (Lowering.final? (e.lower {}) s).isSome = true := by
    simp only [e, f, s, failing]
    decide +kernel
  have hf : e.at? [0] = some f := rfl
  clear_value s e f
  obtain ⟨s', hfinal⟩ := Option.isSome_iff_exists.mp hok
  have hrun := Lowering.final?_eq_some.mp hfinal
  obtain ⟨hvisits, -⟩ := single_entry_single_exit {} e _ hs hrun
  obtain ⟨s₁, s₂, rest, hvisited, hlower, -, -, -, -, hlt, henclosed⟩ := hvisits [0] f hf
  exact ⟨hsize, s', hrun, s₁, s₂, hvisited, hlower, hlt, henclosed⟩

end StackLowering
