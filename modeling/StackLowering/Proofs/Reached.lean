import StackLowering.Proofs.Balance

/-!
The sessions that any sequence of steps leads to, failed steps included.

* `Session.Reached`, `Session.after`: such a session.
* `Session.Reached.live`, `Session.Reached.bounded`: control is at the end of its
  code, and its largest depth bounds the depths in it.
* `Lowering.final?`: where a computation ends, for runs that are evaluated.
* `Expr.voidConstructors_of_compile_eq_ok`: what the check of the depth finds out.
* `Expr.lower_balanced`: from there, a tree whose constructors return nothing
  leaves exactly the values that it stands for.
-/

namespace StackLowering

variable {σ : Type} [Sink σ]

omit [Sink σ] in
/-- The session in which a computation ends, if it succeeds. -/
def Lowering.final? (code : Lowering σ Unit) (s : Session σ) : Option (Session σ) :=
  match code.run s with
  | .ok _ s' => some s'
  | .error _ _ => none

omit [Sink σ] in
lemma Lowering.final?_eq_some {code : Lowering σ Unit} {s s' : Session σ} :
    code.final? s = some s' ↔ code.run s = .ok () s' := by
  rw [final?]
  cases code.run s <;> simp

/-- A session that a sequence of steps leads to.  Steps may fail, and each may
have options of its own. -/
inductive Session.Reached : Session σ → Prop
  | start (sink : σ) : Reached (.start sink)
  | step {s : Session σ} (config : Config) (step : Step) (h : Reached s) :
      Reached (s.step config step).2

/-- The session after a sequence of steps, each with its options.  Steps may fail. -/
def Session.after (s : Session σ) (steps : List (Config × Step)) : Session σ :=
  steps.foldl (fun s step => (s.step step.1 step.2).2) s

/-- What every step keeps holds after a sequence of steps. -/
lemma Session.after_keeps {I : Session σ → Prop}
    (hstep : ∀ s config step, I s → I (s.step config step).2) {s : Session σ} (h : I s)
    (steps : List (Config × Step)) : I (s.after steps) := by
  induction steps generalizing s with
  | nil => exact h
  | cons step steps ih => exact ih (hstep s step.1 step.2 h)

lemma Session.Reached.after {s : Session σ} (h : s.Reached) (steps : List (Config × Step)) :
    (s.after steps).Reached :=
  after_keeps (fun _ config step h => h.step config step) h steps

/-! ### Single steps -/

/-- The tree of a step. -/
def Step.expr : Step → Expr
  | compile e | lower e => e

/-- Compilation is lowering and then the check of the depth. -/
lemma Expr.compile_eq (config : Config) (e : Expr) (s : Session σ) :
    (e.compile config).run s =
      match (e.lower config).run s with
      | .ok _ s' =>
          if config.options.checkBalance ∧ s'.depth ≠ s.depth + e.stackEffect then
            .error (.stackImbalance (s.depth + e.stackEffect) s'.depth) s'
          else .ok () s'
      | .error fault s' => .error fault s' := by
  simp only [compile, EStateM.run_bind, EStateM.run_get]
  cases (e.lower config).run s with
  | error fault s' => rfl
  | ok u s' =>
      dsimp only
      split_ifs <;> rfl

namespace Session

/-- What lowering keeps, whether or not it succeeds, a step keeps. -/
lemma step_keeps {I : Session σ → Prop} {s : Session σ} (config : Config) (step : Step)
    (h : match (step.expr.lower config).run s with
      | .ok _ s' | .error _ s' => I s') : I (s.step config step).2 := by
  cases step with
  | lower e =>
      rw [Session.step, Step.action]
      rw [Step.expr] at h
      cases hrun : (e.lower config).run s with
      | ok u s' =>
          rw [hrun] at h
          exact h
      | error fault s' =>
          rw [hrun] at h
          exact h
  | compile e =>
      rw [Session.step, Step.action, Expr.compile_eq]
      rw [Step.expr] at h
      cases hrun : (e.lower config).run s with
      | ok u s' =>
          rw [hrun] at h
          dsimp only
          -- the check of the depth may fail, but it leaves the session as lowering has left it
          split_ifs
          · exact h
          · exact h
      | error fault s' =>
          rw [hrun] at h
          exact h

end Session

/-! ### What lowering keeps -/

namespace Expr

variable (config : Config) (e : Expr) {s s' : Session σ}

lemma advance_of_lower_eq_ok (hs : s.reachable = true)
    (hrun : (e.lower config).run s = .ok () s') :
    Advance (e.stackEffect + e.surplus) e.labelCount s s' ∧
      (e.surplus = 0 → e.VoidConstructors) := by
  rw [lower_eq_follow] at hrun
  exact (e.moves_lead σ config 0 s hs (Nat.zero_le _)).of_ok hrun

lemma course_of_lower_eq_ok (hs : s.reachable = true)
    (hrun : (e.lower config).run s = .ok () s') :
    Course 0 s (e.moves config s.labels.size) s' := by
  rw [lower_eq_follow] at hrun
  exact (e.moves_lead σ config 0 s hs (Nat.zero_le _)).course hrun

lemma halts_of_lower_eq_error {fault : Fault} (hs : s.reachable = true)
    (hrun : (e.lower config).run s = .error fault s') : Halts e.VoidConstructors fault s' := by
  rw [lower_eq_follow] at hrun
  exact (e.moves_lead σ config 0 s hs (Nat.zero_le _)).of_error hrun

/-- What compilation accepts, lowering has produced, and its depth is the right one
if that is checked. -/
lemma lower_of_compile_eq_ok (hrun : (e.compile config).run s = .ok () s') :
    (e.lower config).run s = .ok () s' ∧
      (config.options.checkBalance = true → s'.depth = s.depth + e.stackEffect) := by
  rw [compile_eq] at hrun
  cases hlower : (e.lower config).run s with
  | error fault s₁ =>
      rw [hlower] at hrun
      cases hrun
  | ok u s₁ =>
      rw [hlower] at hrun
      dsimp only at hrun
      split_ifs at hrun with hdepth
      cases hrun
      exact ⟨rfl, fun hcheck => by simpa [hcheck] using hdepth⟩

/-- The check of the depth refuses constructors that return a value. -/
lemma voidConstructors_of_compile_eq_ok (hs : s.reachable = true)
    (hcheck : config.options.checkBalance = true)
    (hrun : (e.compile config).run s = .ok () s') : e.VoidConstructors := by
  obtain ⟨hlower, hdepth⟩ := e.lower_of_compile_eq_ok config hrun
  obtain ⟨hadvance, hvoid⟩ := e.advance_of_lower_eq_ok config hs hlower
  -- the depth rises by the surplus as well, and the check leaves no room for one
  have hsame := hadvance.depth.symm.trans (hdepth hcheck)
  exact hvoid (by omega)

end Expr

/-- A step that succeeds lowers its tree. -/
lemma Session.lower_of_step {s s' : Session σ} {config : Config} {step : Step}
    (h : s.step config step = (none, s')) :
    (step.expr.lower config).run s = .ok () s' := by
  have haction : (step.action config).run s = .ok () s' := by
    rw [Session.step] at h
    cases hrun : (step.action config).run s with
    | ok u s₁ =>
        rw [hrun] at h
        cases h
        rfl
    | error fault s₁ =>
        rw [hrun] at h
        cases h
  cases step with
  | lower e => exact haction
  | compile e => exact (e.lower_of_compile_eq_ok config haction).1

namespace Session

/-- The largest depth so far is at least the depth at the point reached and the
depth of every jump whose label has yet to be placed. -/
structure Bounded (s : Session σ) : Prop where
  depth : s.depth ≤ s.maxDepth
  pending : ∀ label depth, s.state? label = some (.pending (some depth)) → depth ≤ s.maxDepth

variable {s : Session σ}

lemma Bounded.emitted (h : s.Bounded) (i : Instruction) : (s.emitted i).Bounded where
  depth := Nat.le_max_right ..
  pending label depth hstate := Nat.le_trans (h.pending label depth hstate) (Nat.le_max_left ..)

omit [Sink σ] in
lemma Bounded.recorded (h : s.Bounded) (target : Label) : (s.recorded target).Bounded where
  depth := h.depth
  pending label depth hstate := by
    rcases LabelTable.eq_or_of_set hstate with ⟨-, heq⟩ | hold
    · cases heq
      exact h.depth
    · exact h.pending label depth hold

omit [Sink σ] in
lemma Bounded.created (h : s.Bounded) : s.created.Bounded where
  depth := h.depth
  pending label depth hstate := by
    rcases eq_or_of_created hstate with heq | hold
    · cases heq
    · exact h.pending label depth hold

lemma Bounded.settled (h : s.Bounded) (target : Label) :
    (s.settled target (s.depthAt target)).Bounded where
  depth := by
    change s.depthAt target ≤ s.maxDepth
    unfold depthAt
    split
    · exact h.pending target _ ‹_›
    · exact h.depth
  pending label depth hstate := by
    rcases LabelTable.eq_or_of_set hstate with ⟨-, heq⟩ | hold
    · cases heq
    · exact h.pending label depth hold

lemma Bounded.moved (h : s.Bounded) (m : Move) : (s.moved m).Bounded := by
  cases m with
  | refuse fault => exact h
  | create => exact h.created
  | emit i => exact h.emitted i
  | branch condition target => exact (h.emitted _).recorded target
  | goto target =>
      have hjump := (h.emitted (.goto target)).recorded target
      exact ⟨hjump.depth, hjump.pending⟩
  | place label => exact h.settled label

lemma Bounded.course {floor : Nat} {s' : Session σ} {ms : List Move}
    (hcourse : Course floor s ms s') (h : s.Bounded) : s'.Bounded := by
  induction hcourse with
  | nil => exact h
  | cons _ _ _ ih => exact ih (h.moved _)

lemma Bounded.lower (h : s.Bounded) (hs : s.reachable = true) (config : Config) (e : Expr) :
    match (e.lower config).run s with
    | .ok _ s' | .error _ s' => s'.Bounded := by
  rw [Expr.lower_eq_follow]
  exact (e.moves_lead σ config 0 s hs (Nat.zero_le _)).keeps (fun m s _ hs => hs.moved m) h

/-- Control is at the end of the code of a session that has been reached. -/
lemma Reached.live (h : s.Reached) : s.reachable = true := by
  induction h with
  | start sink => rfl
  | @step s config step _ ih =>
      refine step_keeps (I := fun s => s.reachable = true) config step ?_
      cases hrun : (step.expr.lower config).run s with
      | ok u s' => exact (step.expr.advance_of_lower_eq_ok config ih hrun).1.live
      | error fault s' => exact (step.expr.halts_of_lower_eq_error config ih hrun).1

lemma Reached.bounded (h : s.Reached) : s.Bounded := by
  induction h with
  | start sink =>
      refine ⟨Nat.le_refl _, fun label depth hstate => ?_⟩
      simp [state?, Session.start] at hstate
  | step config step hreached ih => exact step_keeps config step (ih.lower hreached.live config _)

end Session

/-! ### Balance -/

/-- **The balance of the stack.**  Take a tree in which constructors return
nothing, and any session that has been reached.  Lowering the tree never fails
because two depths of the stack differ or because of where a label is placed; and
if it succeeds, then the depth has risen by one for a tree with a value and is
the same for one without. -/
theorem Expr.lower_balanced (config : Config) {e : Expr} (he : e.VoidConstructors)
    {s : Session σ} (hs : s.Reached) :
    match (e.lower config).run s with
    | .ok _ s' =>
        s'.depth = s.depth + e.stackEffect ∧ e.stackEffect = if e.hasValue then 1 else 0
    | .error fault _ =>
        (∀ expected actual, fault ≠ .stackImbalance expected actual) ∧
          ∀ label, fault ≠ .labelPlacedTwice label ∧ fault ≠ .labelUnplaced label := by
  cases hrun : (e.lower config).run s with
  | ok u s' =>
      obtain ⟨hadvance, -⟩ := e.advance_of_lower_eq_ok config hs.live hrun
      have hsurplus := surplus_eq_zero e he
      refine ⟨?_, ?_⟩
      · rw [hadvance.depth, hsurplus, Nat.add_zero]
      · rw [stackEffect]
        cases e.hasValue <;> rfl
  | error fault s' =>
      obtain ⟨-, hdefect⟩ := e.halts_of_lower_eq_error config hs.live hrun
      have hordinary := hdefect he
      refine ⟨fun expected actual heq => ?_, fun label => ⟨fun heq => ?_, fun heq => ?_⟩⟩ <;>
        simp [heq, Fault.isDefect] at hordinary

/-- A step that has failed leaves a value behind, and a constructor called after
it still leaves one more. -/
theorem Expr.lower_balanced_after_fault :
    let failing : Expr :=
      .arithmetic .add (.literal (.int 7)) (.pop (.literal .null)) (.ofPrimitive .int)
    let s := ((Session.start ({} : Trace)).step {} (.lower failing)).2
    let e : Expr := .newInstance
      (.ofConstructor (.classOf "geometry" "Point") [.ofPrimitive .int])
      [.or (.load ⟨1, .ofPrimitive .int⟩) receiver]
    s.depth = 1 ∧ s.Reached ∧ e.VoidConstructors ∧
      ∃ s', (e.lower {}).run s = .ok () s' ∧ s'.depth = 2 := by
  intro failing s e
  have hreached : s.Reached := .step {} (.lower failing) (.start _)
  have hleft : (load ⟨1, .ofPrimitive .int⟩).VoidConstructors :=
    voidConstructors_of_children trivial (List.forall_mem_nil _)
  have hright : receiver.VoidConstructors :=
    voidConstructors_of_children trivial (List.forall_mem_nil _)
  have hor : (or (load ⟨1, .ofPrimitive .int⟩) receiver).VoidConstructors :=
    voidConstructors_of_children trivial (by simp [children, hleft, hright])
  have he : e.VoidConstructors := voidConstructors_of_children rfl (by simp [e, children, hor])
  have hok : (Lowering.final? (e.lower {}) s).isSome = true := by
    simp only [e, s, failing]
    decide +kernel
  have hdepth : s.depth = 1 := rfl
  have heffect : e.stackEffect = 1 := rfl
  clear_value s e
  obtain ⟨s', hfinal⟩ := Option.isSome_iff_exists.mp hok
  have hrun := Lowering.final?_eq_some.mp hfinal
  have hbalanced := lower_balanced {} he hreached
  rw [hrun] at hbalanced
  refine ⟨hdepth, hreached, he, s', hrun, ?_⟩
  rw [hbalanced.1, hdepth, heffect]

end StackLowering
