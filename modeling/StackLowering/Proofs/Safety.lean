import StackLowering.Proofs.Relocation

/-!
What the depth of the stack can be relied on for.

* `Course.floor_le`: a run does not go below the depth that its instructions stay above.
* `Leads.exists_made`, `Session.step_course`: how far a run or a step has come, also if it stops.
* `Session.step_above_floor`: in every step of a session, each instruction finds the values that it
  takes among those that the step has put on the stack.
* `Expr.compile_detects_surplus`: a constructor that returns a value is found out by the check of
  the depth, wherever it occurs.
-/

namespace StackLowering

variable {σ : Type}

/-! ### Values below a step -/

/-- An instruction takes its values from above the floor. -/
lemma Safe.floor_add_pops_le {floor : Nat} {m : Move} {i : Instruction} {s : Session σ}
    (h : Safe floor m s) (hi : m.event? = some (.emitted i)) : floor + i.effect.pops ≤ s.depth := by
  cases m with
  | emit j =>
      cases hi
      exact h.2.2
  | branch condition target =>
      cases hi
      exact h.2.1
  | goto target =>
      cases hi
      exact h.2.1
  | refuse _ | create | place _ => cases hi

variable [Sink σ]

/-- **One move** does not go below the floor. -/
lemma Safe.floor_le_moved {floor : Nat} {m : Move} {s : Session σ} (h : Safe floor m s)
    (hs : floor ≤ s.depth) : floor ≤ (s.moved m).depth := by
  cases m with
  | refuse fault => exact hs
  | create => exact hs
  | emit i =>
      obtain ⟨-, -, hpops⟩ := h
      show floor ≤ s.depth - i.effect.pops + i.effect.pushes
      omega
  | branch condition target =>
      obtain ⟨-, hpops, -⟩ := h
      show floor ≤ s.depth - condition.operands + 0
      omega
  | goto target => exact hs
  | place label =>
      -- The depth here may be stale; that of the jump to the label counts.
      obtain ⟨depth, hdepth, hstate⟩ := h
      show floor ≤ s.depthAt label
      rw [Session.depthAt_of_pending hstate]
      exact hdepth

/-- **All moves.** -/
lemma Course.floor_le {floor : Nat} {s s' : Session σ} {ms : List Move} (h : Course floor s ms s')
    (hs : floor ≤ s.depth) : floor ≤ s'.depth := by
  induction h with
  | nil => exact hs
  | cons hsafe _ _ ih => exact ih (hsafe.floor_le_moved hs)

namespace Leads

variable {floor : Nat} {Q : Session σ → Prop} {R : Fault → Session σ → Prop}
  {ms done rest : List Move} {s s₁ : Session σ}

/-- A run ends where the moves that succeed have led to: the one that fails changes nothing. -/
lemma exists_made (h : Leads (Safe floor) Q R ms s) :
    ∃ done rest, ms = done ++ rest ∧
      (follow done).run s = .ok () (Lowering.last (follow ms) s) := by
  induction ms generalizing s with
  | nil => exact ⟨[], [], rfl, rfl⟩
  | cons m ms ih =>
      obtain ⟨hsafe, hnext⟩ := h
      rw [Lowering.last, follow, EStateM.run_bind]
      rcases hsafe.run_cases with ⟨hrun, -⟩ | ⟨fault, hrun⟩
      · rw [hrun] at hnext ⊢
        obtain ⟨done, rest, hms, hdone⟩ := ih hnext
        refine ⟨m :: done, rest, congrArg (m :: ·) hms, ?_⟩
        rw [follow, EStateM.run_bind, hrun]
        exact hdone
      · rw [hrun]
        exact ⟨[], m :: ms, rfl, rfl⟩

/-- Wherever a run comes to, it is not below the floor, and the next instruction takes its values
from above the floor. -/
lemma above_floor (h : Leads (Safe floor) Q R (done ++ rest) s) (hs : floor ≤ s.depth)
    (hrun : (follow done).run s = .ok () s₁) :
    floor ≤ s₁.depth ∧
      ∀ i, rest.head?.bind Move.event? = some (.emitted i) → floor + i.effect.pops ≤ s₁.depth := by
  have hdone := append_iff.mp h
  refine ⟨(hdone.course hrun).floor_le hs, fun i hi => ?_⟩
  have hrest := hdone.of_ok hrun
  cases rest with
  | nil => cases hi
  | cons m rest => exact hrest.1.floor_add_pops_le hi

end Leads

/-- A step makes some of the moves of its tree and no others, whether or not it fails; if it does
not, it makes all of them. -/
lemma Session.step_course {s : Session σ} (hs : s.reachable = true) (config : Config)
    (step : Step) :
    ∃ done rest, step.expr.moves config s.labels.size = done ++ rest ∧
      Course 0 s done (s.step config step).2 ∧ ((s.step config step).1 = none → rest = []) := by
  cases hfault : (s.step config step).1 with
  | none =>
      have hlower := lower_of_step (Prod.ext hfault rfl)
      exact ⟨_, [], (List.append_nil _).symm, step.expr.course_of_lower_eq_ok config hs hlower,
        fun _ => rfl⟩
  | some fault =>
      have hleads := step.expr.moves_lead σ config 0 s hs (Nat.zero_le _)
      obtain ⟨done, rest, hmoves, hrun⟩ := hleads.exists_made
      have hend : (s.step config step).2
          = Lowering.last (follow (step.expr.moves config s.labels.size)) s := by
        rw [step_eq_last, Lowering.last, Lowering.last, step.expr.lower_eq_follow]
      rw [← hend] at hrun
      rw [hmoves, Leads.append_iff] at hleads
      exact ⟨done, rest, hmoves, hleads.course hrun,
        fun hnone => absurd hnone (Option.some_ne_none fault)⟩

/-- **No step takes values from below it.**  After any steps in a session, failed ones included,
lowering the tree of a step is to follow a list of moves.  The step ends after some of them, whether
or not it has failed, and those have told the sink all that it has been told.  Wherever the moves
come to, the depth is at least the one at which the step began; and if the next move emits an
instruction, then the values that it takes lie above that depth. -/
theorem Session.step_above_floor (sink : σ) (earlier : List (Config × Step)) (config : Config)
    (step : Step) :
    let s := (Session.start sink).after earlier
    let s' := (s.step config step).2
    let moves := step.expr.moves config s.labels.size
    (step.expr.lower config).run s = (follow moves).run s ∧
      (∃ done rest, moves = done ++ rest ∧ (follow done).run s = .ok () s' ∧
        s'.sink = Sink.tell s.sink (Move.events done)) ∧
      ∀ done rest s₁, moves = done ++ rest → (follow done).run s = .ok () s₁ →
        s.depth ≤ s₁.depth ∧
          ∀ i, rest.head?.bind Move.event? = some (.emitted i) →
            s.depth + i.effect.pops ≤ s₁.depth := by
  intro s s' moves
  have hlive : s.reachable = true := ((Reached.start sink).after earlier).live
  have hlower : (step.expr.lower config).run s = (follow moves).run s :=
    step.expr.lower_eq_follow config s
  have hleads := step.expr.moves_lead σ config s.depth s hlive (Nat.le_refl _)
  change Leads _ _ _ moves s at hleads
  have hend : s' = Lowering.last (follow moves) s := by
    rw [Lowering.last, ← hlower]
    exact step_eq_last config s step
  clear_value s s' moves
  refine ⟨hlower, ?_, fun done rest s₁ hmoves hrun => ?_⟩
  · obtain ⟨done, rest, hmoves, hrun⟩ := hleads.exists_made
    rw [← hend] at hrun
    rw [hmoves] at hleads
    exact ⟨done, rest, hmoves, hrun, ((Leads.append_iff.mp hleads).course hrun).sink⟩
  · rw [hmoves] at hleads
    exact hleads.above_floor (Nat.le_refl _) hrun

/-- After a step that has failed, the sum in the second arm of a conditional.  The jump over that
arm leaves a depth behind that does not hold there; the label in front of the arm puts it right, and
the sum takes the two values of the arm and not the one from before. -/
theorem Session.step_above_floor_of_sum :
    let failing : Expr :=
      .arithmetic .add (.literal (.int 7)) (.pop (.literal .null)) (.ofPrimitive .int)
    let sum : Expr :=
      .arithmetic .add (.literal (.int 7)) (.literal (.int 8)) (.ofPrimitive .int)
    let e : Expr := .conditional (.load ⟨1, .ofPrimitive .boolean⟩) (.literal (.int 1)) sum
    let s := (Session.start ({} : Trace)).after [({}, .lower failing)]
    let moves := e.moves {} s.labels.size
    s.depth = 1 ∧ ∃ done rest i s₁, moves = done ++ rest ∧ done.contains (.place ⟨0⟩) ∧
      (follow done).run s = .ok () s₁ ∧ rest.head?.bind Move.event? = some (.emitted i) ∧
      i.effect.pops = 2 ∧ s.depth + 2 ≤ s₁.depth := by
  intro failing sum e s moves
  have habove : ∀ done rest s₁, moves = done ++ rest → (follow done).run s = .ok () s₁ →
      s.depth ≤ s₁.depth ∧ ∀ i, rest.head?.bind Move.event? = some (.emitted i) →
        s.depth + i.effect.pops ≤ s₁.depth :=
    (step_above_floor ({} : Trace) [({}, .lower failing)] {} (.lower e)).2.2
  have hdepth : s.depth = 1 := rfl
  have hplaced : (moves.take 9).contains (.place ⟨0⟩) = true := by
    simp only [moves, e, sum, s, failing]
    decide +kernel
  have hnext : (moves.drop 9).head?.bind Move.event? = some (.emitted (.arithmetic .add .int)) := by
    simp only [moves, e, sum, s, failing]
    decide +kernel
  have hok : (Lowering.final? (follow (moves.take 9)) s).isSome = true := by
    simp only [moves, e, sum, s, failing]
    decide +kernel
  clear_value moves s
  obtain ⟨s₁, hfinal⟩ := Option.isSome_iff_exists.mp hok
  have hrun := Lowering.final?_eq_some.mp hfinal
  have hmoves : moves = moves.take 9 ++ moves.drop 9 := (List.take_append_drop 9 moves).symm
  exact ⟨hdepth, _, _, _, s₁, hmoves, hplaced, hrun, hnext, rfl,
    (habove _ _ s₁ hmoves hrun).2 _ hnext⟩

/-! ### Surplus values -/

namespace Expr

/-- What holds at every node holds at the end of every path. -/
lemma Everywhere.at? {P : Expr → Prop} {e f : Expr} {path : List Nat} (h : e.Everywhere P)
    (hf : e.at? path = some f) : P f := by
  induction path generalizing e with
  | nil =>
      cases hf
      exact (everywhere_iff.mp h).1
  | cons k path ih =>
      obtain ⟨c, hc, hf⟩ := Option.bind_eq_some_iff.mp hf
      exact ih (h.child (List.mem_of_getElem? hc)) hf

variable (config : Config) (e : Expr) {s s' : Session σ}

/-- A tree with a constructor that returns a value leaves more values than it stands for. -/
lemma lt_depth_of_returnsValue (hs : s.Reached) (hrun : (e.lower config).run s = .ok () s')
    (he : ¬ e.VoidConstructors) : s.depth + e.stackEffect < s'.depth := by
  obtain ⟨hadvance, hvoid⟩ := e.advance_of_lower_eq_ok config hs.live hrun
  have hdepth := hadvance.depth
  have hsurplus : e.surplus ≠ 0 := fun hzero => he (hvoid hzero)
  omega

/-- **The check of the depth finds every constructor that returns a value.**  Let the depth be
checked, in any session that has been reached.  If a tree is accepted, then wherever it allocates
an object, the constructor returns nothing.  If somewhere in the tree a constructor returns a
value, then nothing around it makes up for that value: where lowering succeeds, the stack holds
more values than the tree stands for, and the tree is refused for that reason. -/
theorem compile_detects_surplus (hcheck : config.options.checkBalance = true) (hs : s.Reached) :
    (∀ s', (e.compile config).run s = .ok () s' → ∀ path constructor arguments,
      e.at? path = some (.newInstance constructor arguments) →
      constructor.returns.isVoid = true) ∧
    ∀ path constructor arguments, e.at? path = some (.newInstance constructor arguments) →
      constructor.returns.isVoid = false → ∀ s', (e.lower config).run s = .ok () s' →
        s.depth + e.stackEffect < s'.depth ∧
          (e.compile config).run s
            = .error (.stackImbalance (s.depth + e.stackEffect) s'.depth) s' := by
  refine ⟨fun s' hrun path constructor arguments hat => ?_,
    fun path constructor arguments hat hvalue s' hrun => ?_⟩
  · have hvoid := e.voidConstructors_of_compile_eq_ok config hs.live hcheck hrun
    exact Everywhere.at? hvoid hat
  · have hnot : ¬ e.VoidConstructors := fun hvoid => by
      have hnode : constructor.returns.isVoid = true := Everywhere.at? hvoid hat
      rw [hvalue] at hnode
      cases hnode
    have hlt := e.lt_depth_of_returnsValue config hs hrun hnot
    refine ⟨hlt, ?_⟩
    rw [compile_eq, hrun]
    exact if_pos ⟨hcheck, Nat.ne_of_gt hlt⟩

/-- After a step that has failed, both sides of a conditional leave a value too many.  The sides
agree, and the value that is taken off after them is only one of two. -/
theorem compile_detects_surplus_of_conditional :
    let failing : Expr :=
      .arithmetic .add (.literal (.int 7)) (.pop (.literal .null)) (.ofPrimitive .int)
    let s := ((Session.start ({} : Trace)).step {} (.lower failing)).2
    let point : Method :=
      { Method.ofConstructor (.classOf "geometry" "Point") [] with returns := .ofPrimitive .int }
    let e : Expr := .pop (.conditional (.load ⟨1, .ofPrimitive .boolean⟩)
      (.newInstance point []) (.newInstance point []))
    s.Reached ∧ e.at? [0, 2] = some (.newInstance point []) ∧ point.returns.isVoid = false ∧
      ∃ s', (e.lower {}).run s = .ok () s' ∧ s.depth + e.stackEffect < s'.depth ∧
        (e.compile {}).run s = .error (.stackImbalance 1 s'.depth) s' := by
  intro failing s point e
  have hreached : s.Reached := .step {} (.lower failing) (.start _)
  have hok : (Lowering.final? (e.lower {}) s).isSome = true := by
    simp only [e, s, failing, point]
    decide +kernel
  have hat : e.at? [0, 2] = some (.newInstance point []) := rfl
  have hvalue : point.returns.isVoid = false := rfl
  have hdepth : s.depth + e.stackEffect = 1 := rfl
  clear_value s e point
  obtain ⟨s', hfinal⟩ := Option.isSome_iff_exists.mp hok
  have hrun := Lowering.final?_eq_some.mp hfinal
  obtain ⟨hlt, hrefused⟩ :=
    (compile_detects_surplus {} e rfl hreached).2 [0, 2] point [] hat hvalue s' hrun
  rw [hdepth] at hrefused
  exact ⟨hreached, hat, hvalue, s', hrun, hlt, hrefused⟩

end Expr

end StackLowering
