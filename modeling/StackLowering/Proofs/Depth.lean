import Mathlib.Order.Bounds.Basic
import StackLowering.Proofs.Flow
import StackLowering.Proofs.Labels
import StackLowering.Proofs.Reached

/-!
The depth of the stack at every position.

* `Instruction.depthAfter`: the effect of an instruction on the depth, if there
  are enough values.
* `Course.flow`: along a safe run, the depths that the session goes through are a
  flow, and its largest depth is the largest of them.
* `Course.fed`: control comes to every instruction of a safe run.
* `Expr.exists_unique_depths`: the code of a tree has one assignment of depths,
  and the largest depth of the session is exact.
-/

open Relation (ReflTransGen)

namespace StackLowering

open Event (extent)

/-- The depth after an instruction, if the stack holds the values it takes. -/
def Instruction.depthAfter (i : Instruction) (depth : Nat) : Option Nat :=
  if i.effect.pops ≤ depth then some (depth - i.effect.pops + i.effect.pushes) else none

/-- An instruction without a target lets control go on. -/
lemma Instruction.fallsThrough_of_target? {i : Instruction} (h : i.target? = none) :
    i.fallsThrough = true := by
  cases i <;> first | rfl | cases h

namespace Session

variable {σ : Type} {s : Session σ} {label : Label} {depth : Nat}

/-- The depth at the point reached, if control comes there. -/
def current (s : Session σ) : Option Nat :=
  if s.reachable then some s.depth else none

lemma current_of_live (h : s.reachable = true) : s.current = some s.depth :=
  if_pos h

lemma current_eq_some (h : s.current = some depth) : s.reachable = true ∧ s.depth = depth := by
  unfold current at h
  split_ifs at h with hs
  exact ⟨hs, Option.some.inj h⟩

/-- The depth at a label that has been jumped to. -/
def known? (s : Session σ) (label : Label) : Option Nat :=
  match s.state? label with
  | some (.pending (some depth)) | some (.placed depth) => some depth
  | _ => none

lemma known?_of_pending (h : s.state? label = some (.pending (some depth))) :
    s.known? label = some depth := by
  rw [known?, h]

lemma known?_of_placed (h : s.state? label = some (.placed depth)) :
    s.known? label = some depth := by
  rw [known?, h]

lemma known?_eq_some (h : s.known? label = some depth) :
    s.state? label = some (.pending (some depth)) ∨ s.state? label = some (.placed depth) := by
  unfold known? at h
  split at h
  · rename_i hstate
    cases h
    exact .inl hstate
  · rename_i hstate
    cases h
    exact .inr hstate
  · cases h

lemma known?_congr {s' : Session σ} (h : s'.state? label = s.state? label) :
    s'.known? label = s.known? label := by
  rw [known?, known?, h]

variable [Sink σ]

/-- The depth at a label stays. -/
lemma known?_moved {floor : Nat} {m : Move} (hsafe : Safe floor m s)
    (h : s.known? label = some depth) : (s.moved m).known? label = some depth := by
  have hstate : ∃ x, s.state? label = some x ∧ x ≠ .pending none := by
    rcases known?_eq_some h with hstate | hstate
    · exact ⟨_, hstate, by simp⟩
    · exact ⟨_, hstate, by simp⟩
  obtain ⟨x, hx, hne⟩ := hstate
  cases m with
  | refuse fault => exact h
  | create => exact (known?_congr (s.state?_created (lt_size_of_state? hx))).trans h
  | emit i => exact h
  | branch condition target =>
      have hid := ne_of_state? hx hsafe.2.2 hne
      exact (known?_congr (state?_recorded (s.emitted _) hid)).trans h
  | goto target =>
      have hid := ne_of_state? hx hsafe.2.2 hne
      exact (known?_congr (state?_recorded (s.emitted _) hid)).trans h
  | place other =>
      obtain ⟨depth', -, hother⟩ := hsafe
      by_cases hid : label.id = other.id
      · obtain rfl := Label.eq_of_id_eq hid
        have hdepth := depthAt_of_pending hother
        rw [known?_of_pending hother] at h
        cases h
        rw [moved, hdepth]
        exact known?_of_placed (s.state?_settled_self _ (lt_size_of_state? hother))
      · exact (known?_congr (s.state?_settled _ hid)).trans h

end Session

/-! ### Depths along a run -/

namespace Course

variable {σ : Type} [Sink σ] {floor : Nat} {s s' : Session σ} {ms : List Move}

lemma known? {label : Label} {depth : Nat} (h : Course floor s ms s')
    (hlabel : s.known? label = some depth) : s'.known? label = some depth := by
  induction h with
  | nil => exact hlabel
  | cons hsafe _ _ ih => exact ih (Session.known?_moved hsafe hlabel)

/-- The depths of a run, before and after each instruction, with the largest one of
the session as a bound. -/
structure Depths (s s' : Session σ) (items : List Event) (trail : List (Nat × Nat)) : Prop where
  flow : Flow Instruction.depthAfter (fun label depth => s'.known? label = some depth) s.current
    items trail s'.current
  le_iff : ∀ m, s'.maxDepth ≤ m ↔ s.maxDepth ≤ m ∧ ∀ t ∈ trail, t.2 ≤ m
  before_le : s.Bounded → ∀ t ∈ trail, t.1 ≤ s'.maxDepth

/-- An instruction at the head of a run. -/
lemma Depths.emitted {m : Move} {i : Instruction} {items : List Event} {trail : List (Nat × Nat)}
    (h : Depths (s.moved m) s' items trail) (hs : s.reachable = true)
    (hpops : i.effect.pops ≤ s.depth)
    (hmax : (s.moved m).maxDepth = (s.emitted i).maxDepth)
    (hcurrent : (s.moved m).current = if i.fallsThrough then some (s.emitted i).depth else none)
    (htarget : ∀ label, i.target? = some label → s'.known? label = some (s.emitted i).depth) :
    Depths s s' (.emitted i :: items) ((s.depth, (s.emitted i).depth) :: trail) where
  flow := by
    have hstep : i.depthAfter s.depth = some (s.emitted i).depth := by
      rw [Instruction.depthAfter, if_pos hpops]
      rfl
    rw [Session.current_of_live hs]
    refine .emitted hstep htarget ?_
    rw [← hcurrent]
    exact h.flow
  le_iff n := by
    have hle : (s.moved m).maxDepth ≤ n ↔ s.maxDepth ≤ n ∧ (s.emitted i).depth ≤ n := by
      rw [hmax]
      exact Nat.max_le
    rw [h.le_iff n, hle, List.forall_mem_cons, and_assoc]
  before_le hbounded := by
    have hmoved := (h.le_iff s'.maxDepth).mp (Nat.le_refl _)
    have hle : s.maxDepth ≤ (s.moved m).maxDepth := by
      rw [hmax]
      exact Nat.le_max_left ..
    refine List.forall_mem_cons.mpr ⟨?_, h.before_le (hbounded.moved m)⟩
    calc
      s.depth ≤ s.maxDepth := hbounded.depth
      _ ≤ (s.moved m).maxDepth := hle
      _ ≤ s'.maxDepth := hmoved.1

/-- **The depths of a run.** -/
theorem depths (h : Course floor s ms s') : ∃ trail, Depths s s' (Move.events ms) trail := by
  induction h with
  | nil s => exact ⟨[], .nil _, by simp, by simp⟩
  | @cons s s' m ms hsafe hpass hcourse ih =>
      obtain ⟨trail, ih⟩ := ih
      cases m with
      | refuse fault => exact hpass.elim
      | create => exact ⟨trail, ih.flow, ih.le_iff, fun hb => ih.before_le (hb.moved .create)⟩
      | emit i =>
          obtain ⟨hs, htarget, hdepth⟩ := hsafe
          refine ⟨_, ih.emitted hs (by omega) rfl ?_ fun label hlabel => ?_⟩
          · rw [Instruction.fallsThrough_of_target? htarget]
            exact Session.current_of_live hs
          · rw [htarget] at hlabel
            cases hlabel
      | branch condition target =>
          obtain ⟨hs, hdepth, hstate⟩ := hsafe
          have hpops : (Instruction.branch condition target).effect.pops ≤ s.depth := by
            change condition.operands ≤ s.depth
            omega
          refine ⟨_, ih.emitted hs hpops rfl (Session.current_of_live hs) fun label hlabel => ?_⟩
          cases hlabel
          have hlt := Session.lt_size_of_state? hstate
          exact hcourse.known? (Session.known?_of_pending
            ((s.emitted _).state?_recorded_self hlt))
      | goto target =>
          obtain ⟨hs, hdepth, hstate⟩ := hsafe
          refine ⟨_, ih.emitted hs (Nat.zero_le _) rfl rfl fun label hlabel => ?_⟩
          cases hlabel
          have hlt := Session.lt_size_of_state? hstate
          exact hcourse.known? (Session.known?_of_pending
            ((s.emitted _).state?_recorded_self hlt))
      | place label =>
          obtain ⟨depth, -, hstate⟩ := hsafe
          have hlt := Session.lt_size_of_state? hstate
          refine ⟨trail, ⟨.placed (fun b hb => ?_) ?_ ih.flow, ih.le_iff,
            fun hb => ih.before_le (hb.moved (.place label))⟩⟩
          · obtain ⟨hs, hdepth⟩ := Session.current_eq_some hb
            exact hdepth.symm.trans (hpass hs).symm
          · exact hcourse.known? (Session.known?_of_placed (s.state?_settled_self _ hlt))

/-- **Control comes to every instruction of a run**, if it places no label that was
there before. -/
theorem fed {base : Nat} {seen : List Label} (h : Course floor s ms s')
    (hbase : ∀ id ∈ Move.placedIds ms, base ≤ id)
    (hseen : ∀ label depth, base ≤ label.id → s.state? label = some (.pending (some depth)) →
      label ∈ seen) : Fed s'.reachable s.reachable seen (Move.events ms) := by
  induction h generalizing seen with
  | nil s => rfl
  | @cons s s' m ms hsafe hpass hcourse ih =>
      have hjump : ∀ (i : Instruction) (target : Label) (s₁ : Session σ),
          s₁.state? = ((s.emitted i).recorded target).state? →
          ∀ label depth, base ≤ label.id → s₁.state? label = some (.pending (some depth)) →
            label ∈ target :: seen := by
        intro i target s₁ hs₁ label depth hle hstate
        rw [hs₁] at hstate
        rcases LabelTable.eq_or_of_set hstate with ⟨rfl, -⟩ | hold
        · exact List.mem_cons_self
        · exact List.mem_cons_of_mem _ (hseen label depth hle hold)
      cases m with
      | refuse fault => exact hpass.elim
      | create =>
          refine ih hbase fun label depth hle hstate => ?_
          rcases Session.eq_or_of_created hstate with heq | hold
          · cases heq
          · exact hseen label depth hle hold
      | emit i =>
          obtain ⟨hs, htarget, -⟩ := hsafe
          have hnext := ih hbase hseen
          refine ⟨hs, ?_⟩
          rw [Instruction.fallsThrough_of_target? htarget, htarget, ← hs]
          exact hnext
      | branch condition target =>
          obtain ⟨hs, -, -⟩ := hsafe
          have hnext := ih hbase (hjump (.branch condition target) target _ rfl)
          refine ⟨hs, ?_⟩
          rw [Session.moved, Session.reachable_recorded, Session.reachable_emitted, hs] at hnext
          exact hnext
      | goto target => exact ⟨hsafe.1, ih hbase (hjump (.goto target) target _ rfl)⟩
      | place label =>
          obtain ⟨depth, -, hstate⟩ := hsafe
          refine ⟨.inr (hseen label depth (hbase _ List.mem_cons_self) hstate), ?_⟩
          refine ih (fun id hid => hbase id (List.mem_cons_of_mem _ hid))
            fun other depth' hle hother => ?_
          rcases LabelTable.eq_or_of_set hother with ⟨-, heq⟩ | hold
          · cases heq
          · exact hseen other depth' hle hold

end Course

/-! ### The depths of a tree -/

/-- If `S` holds the depth after each instruction and none of its depths exceeds the
largest of the session, then that is the largest one of `S` and of before. -/
lemma Course.Depths.isGreatest {σ : Type} [Sink σ] {s s' : Session σ} {items : List Event}
    {trail : List (Nat × Nat)} (h : Depths s s' items trail) {S : Set Nat}
    (hle : ∀ depth ∈ S, depth ≤ s'.maxDepth) (hafter : ∀ t ∈ trail, t.2 ∈ S) :
    IsGreatest (insert s.maxDepth S) s'.maxDepth := by
  obtain ⟨hbefore, -⟩ := (h.le_iff s'.maxDepth).mp (Nat.le_refl _)
  refine ⟨?_, ?_⟩
  · by_contra hnot
    obtain ⟨hne, hS⟩ := not_or.mp hnot
    -- everything would stay below the largest depth
    have hpred : s'.maxDepth ≤ s'.maxDepth - 1 := by
      refine (h.le_iff _).mpr ⟨by omega, fun t ht => ?_⟩
      have hmem := hafter t ht
      have hneq : t.2 ≠ s'.maxDepth := fun heq => hS (heq ▸ hmem)
      have hlet := hle t.2 hmem
      omega
    omega
  · rintro depth (rfl | hdepth)
    · exact hbefore
    · exact hle depth hdepth

/-- The largest depth of a session after a run is the largest one of before and of the
depths at the positions of the run. -/
lemma Course.Depths.isGreatest_image {s s' : Session Code} {items : List Event}
    {trail : List (Nat × Nat)} {c : Code} {A : Nat → Nat} {pos : Nat}
    (h : Depths s s' items trail) (hs : s.Bounded) (hs' : s'.Bounded) (hholds : c.Holds pos items)
    (hA : Assigns A pos trail s'.depth) (hlive : s'.reachable = true)
    (hverified : c.Verified Instruction.depthAfter pos (pos + extent items) A) :
    IsGreatest (insert s.maxDepth (A '' Set.Icc pos (pos + extent items))) s'.maxDepth := by
  have hfinal := Session.current_of_live hlive
  refine h.isGreatest ?_ fun t ht => ?_
  · rintro _ ⟨p, ⟨hp, hple⟩, rfl⟩
    rcases Nat.eq_or_lt_of_le hple with rfl | hlt
    · rw [h.flow.end_eq hA]
      exact hs'.depth
    · obtain ⟨i, after, -, -, hmem, -⟩ := h.flow.at_position hfinal hholds hA hp hlt
      exact h.before_le hs _ hmem
  · obtain ⟨q, hq, hqle, hafter⟩ := h.flow.position_after hholds hA hverified ht
    exact ⟨q, ⟨hq, hqle⟩, hafter⟩

/-- Control reaches every position of the code of a tree. -/
lemma Expr.reaches_of_lower_eq_ok (config : Config) (e : Expr) {s s' : Session Code}
    (hs : s.reachable = true) (hrun : (e.lower config).run s = .ok () s') {p : Nat}
    (hp : s.sink.size ≤ p) (hple : p ≤ s'.sink.size) :
    ReflTransGen s'.sink.Next s.sink.size p := by
  have hcourse := e.course_of_lower_eq_ok config hs hrun
  obtain ⟨hadvance, -⟩ := e.advance_of_lower_eq_ok config hs hrun
  obtain ⟨hholds, hsize⟩ := hcourse.holds
  have huses := e.uses_moves _ hcourse.clean
  -- no label of before is placed
  have hbase : ∀ id ∈ Move.placedIds (e.moves config s.labels.size), s.labels.size ≤ id := by
    intro id hid
    have hmem := huses.placed.mem_iff.mp hid
    exact (List.mem_range'_1.mp hmem).1
  have hfed : Fed s'.reachable s.reachable [] (Move.events (e.moves config s.labels.size)) := by
    refine hcourse.fed hbase fun label depth hlabel hstate => ?_
    have hlt := Session.lt_size_of_state? hstate
    omega
  rw [hadvance.live, hs] at hfed
  rw [hsize] at hple
  exact hfed.reach hholds (fun _ => .refl) (fun _ h => absurd h List.not_mem_nil) hp hple

/-- The depths that the session goes through are assigned to the positions of the code of a
tree, from the depth before it to the one after it. -/
lemma Expr.verified_depths (config : Config) (e : Expr) {s s' : Session Code}
    (hs : s.reachable = true) (hrun : (e.lower config).run s = .ok () s') :
    ∃ trail A, Course.Depths s s' (Move.events (e.moves config s.labels.size)) trail ∧
      Assigns A s.sink.size trail s'.depth ∧
      s'.sink.Verified Instruction.depthAfter s.sink.size s'.sink.size A ∧
      A s.sink.size = s.depth ∧ A s'.sink.size = s'.depth := by
  have hcourse := e.course_of_lower_eq_ok config hs hrun
  obtain ⟨hadvance, -⟩ := e.advance_of_lower_eq_ok config hs hrun
  obtain ⟨hholds, hsize⟩ := hcourse.holds
  obtain ⟨trail, hdepths⟩ := hcourse.depths
  have hflow := hdepths.flow
  -- control comes to the first position and to the end
  rw [Session.current_of_live hs, Session.current_of_live hadvance.live] at hflow
  obtain ⟨A, hA⟩ := exists_assigns s.sink.size trail s'.depth
  have hverified := hflow.verified hholds hA
    (fun label a b ha hb => Option.some.inj (ha.symm.trans hb))
    (fun i label => hcourse.placed_of_target (e.uses_moves _ hcourse.clean))
  have hlast := hflow.end_eq hA
  rw [← hsize] at hverified hlast
  exact ⟨trail, A, hdepths, hA, hverified, hflow.start_eq rfl hA rfl, hlast⟩

/-- **The depths of the code of a tree.**  Let lowering a tree succeed from a session
that has been reached.  Then there is one assignment of depths to the positions of
the new code that starts with the depth of the session and that every instruction
respects: the stack holds the values it takes, and the depth it leaves is the one at
the next position and at the target of its jump.  It ends with the new depth of the
session.  Control reaches every new instruction from the first one.  The new largest
depth is the largest of the old one and of all assigned depths. -/
theorem Expr.exists_unique_depths (config : Config) (e : Expr) {s s' : Session Code}
    (hs : s.Reached) (hrun : (e.lower config).run s = .ok () s') :
    s.sink.size ≤ s'.sink.size ∧
    ∃ A : Nat → Nat,
      (s'.sink.Verified Instruction.depthAfter s.sink.size s'.sink.size A ∧
        A s.sink.size = s.depth ∧ A s'.sink.size = s'.depth) ∧
      (∀ B, s'.sink.Verified Instruction.depthAfter s.sink.size s'.sink.size B →
        B s.sink.size = s.depth → ∀ p, s.sink.size ≤ p → p ≤ s'.sink.size → B p = A p) ∧
      (∀ p, s.sink.size ≤ p → p < s'.sink.size →
        ReflTransGen s'.sink.Next s.sink.size p) ∧
      IsGreatest (insert s.maxDepth (A '' Set.Icc s.sink.size s'.sink.size)) s'.maxDepth := by
  have hcourse := e.course_of_lower_eq_ok config hs.live hrun
  obtain ⟨hadvance, -⟩ := e.advance_of_lower_eq_ok config hs.live hrun
  obtain ⟨hholds, hsize⟩ := hcourse.holds
  obtain ⟨trail, A, hdepths, hA, hverified, hfirst, hlast⟩ :=
    e.verified_depths config hs.live hrun
  have hbounded : s'.Bounded := by
    have h := hs.bounded.lower hs.live config e
    rw [hrun] at h
    exact h
  have hmax : IsGreatest (insert s.maxDepth (A '' Set.Icc s.sink.size s'.sink.size))
      s'.maxDepth := by
    rw [hsize] at hverified ⊢
    exact hdepths.isGreatest_image hs.bounded hbounded hholds hA hadvance.live hverified
  have hle : s.sink.size ≤ s'.sink.size := by omega
  refine ⟨hle, A, ⟨hverified, hfirst, hlast⟩, fun B hB hBfirst p hp hple => ?_,
    fun p hp hlt => e.reaches_of_lower_eq_ok config hs.live hrun hp (Nat.le_of_lt hlt), hmax⟩
  have hreach := e.reaches_of_lower_eq_ok config hs.live hrun hp hple
  exact hB.unique hverified (Nat.le_refl _) hle (hBfirst.trans hfirst.symm) hreach

/-- A disjunction after a value that a failed step has left: depths from one to two
over seven instructions. -/
theorem Expr.exists_unique_depths_of_or :
    let failing : Expr :=
      .arithmetic .add (.literal (.int 7)) (.pop (.literal .null)) (.ofPrimitive .int)
    let s := ((Session.start Code.empty).step {} (.lower failing)).2
    let e : Expr := .or (.load ⟨1, .ofPrimitive .int⟩) (.load ⟨2, .ofPrimitive .int⟩)
    s.Reached ∧ ∃ s' A, (e.lower {}).run s = .ok () s' ∧
      s'.sink.Verified Instruction.depthAfter 1 8 A ∧ A 1 = 1 ∧ A 8 = 2 ∧
      (∀ p, 1 ≤ p → p < 8 → ReflTransGen s'.sink.Next 1 p) ∧
      IsGreatest (insert 1 (A '' Set.Icc 1 8)) 2 := by
  intro failing s e
  have hreached : s.Reached := .step {} (.lower failing) (.start _)
  have hstart : s.sink.size = 1 ∧ s.depth = 1 ∧ s.maxDepth = 1 := ⟨rfl, rfl, rfl⟩
  have hend : ((Lowering.final? (e.lower {}) s).map fun s' =>
      (s'.sink.size, s'.depth, s'.maxDepth)) = some (8, 2, 2) := by
    simp only [e, s, failing]
    decide +kernel
  clear_value s e
  obtain ⟨s', hfinal, hs'⟩ := Option.map_eq_some_iff.mp hend
  obtain ⟨hsize, hdepth, hmaxDepth⟩ : s'.sink.size = 8 ∧ s'.depth = 2 ∧ s'.maxDepth = 2 := by
    simpa using hs'
  have hrun := Lowering.final?_eq_some.mp hfinal
  obtain ⟨-, A, ⟨hverified, hfirst, hlast⟩, -, hreach, hmax⟩ :=
    exists_unique_depths {} e hreached hrun
  rw [hsize, hstart.1] at hverified hreach hmax
  rw [hstart.2.2, hmaxDepth] at hmax
  rw [hstart.1, hstart.2.1] at hfirst
  rw [hsize, hdepth] at hlast
  exact ⟨hreached, s', A, hrun, hverified, hfirst, hlast, hreach, hmax⟩

end StackLowering
