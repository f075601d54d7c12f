import Mathlib.Logic.Relation
import StackLowering.Proofs.Layout

/-!
States at the positions of code.

* `Code.Verified`: an assignment of states to positions that every instruction
  respects, along the fall-through and along its jump.
* `Flow`: the states before and after each instruction of a list of events, with
  one state for each label.
* `Flow.verified`: code that holds the events has such an assignment.
* `Code.Next`: control may go from one position to another.
* `Fed`, `Fed.reach`: if every instruction comes after one that falls through or
  after a label that has been jumped to, then control reaches all of them.
* `Code.Verified.related`: two assignments stay related along the paths of control.
* `Code.Verified.unique`: where control reaches every position, the assignment is
  the only one with its first state.
-/

open Relation (ReflTransGen)

namespace StackLowering

open Event (extent)

variable {τ : Type}

/-- `A` gives a state to every position from `first` to `last`.  Each instruction
accepts the state at its position, and the state that it leaves is the one at the
next position, unless control does not go on, and the one at its target. -/
def Code.Verified (c : Code) (T : Instruction → τ → Option τ) (first last : Nat)
    (A : Nat → τ) : Prop :=
  ∀ p, first ≤ p → p < last → ∃ i after, c.instructions[p]? = some i ∧ T i (A p) = some after ∧
    (i.fallsThrough = true → A (p + 1) = after) ∧
    ∀ label, i.target? = some label →
      ∃ q, c.labelPosition? label = some q ∧ first ≤ q ∧ q ≤ last ∧ A q = after

/-- Every instruction leaves control a way to go. -/
lemma Instruction.exists_target? {i : Instruction} (h : i.fallsThrough = false) :
    ∃ label, i.target? = some label := by
  cases i with
  | goto target => exact ⟨target, rfl⟩
  | _ => cases h

/-! ### States along events -/

/-- From the state `current`, or from no state where control does not come from
above, the events are passed with the states of `trail` before and after each
instruction.  `W` gives the state at each label. -/
inductive Flow (T : Instruction → τ → Option τ) (W : Label → τ → Prop) :
    Option τ → List Event → List (τ × τ) → Option τ → Prop
  | nil (current : Option τ) : Flow T W current [] [] current
  | emitted {i : Instruction} {a b : τ} {items : List Event} {trail : List (τ × τ)}
      {final : Option τ} (hstep : T i a = some b) (htarget : ∀ l, i.target? = some l → W l b)
      (h : Flow T W (if i.fallsThrough then some b else none) items trail final) :
      Flow T W (some a) (.emitted i :: items) ((a, b) :: trail) final
  | placed {label : Label} {current : Option τ} {a : τ} {items : List Event}
      {trail : List (τ × τ)} {final : Option τ} (hcurrent : ∀ b, current = some b → b = a)
      (hlabel : W label a) (h : Flow T W (some a) items trail final) :
      Flow T W current (.placed label :: items) trail final

/-- `A` gives the states of a trail to the positions from `pos` on, and `final` to
the one after them. -/
def Assigns (A : Nat → τ) (pos : Nat) (trail : List (τ × τ)) (final : τ) : Prop :=
  ∀ k, A (pos + k) = (trail[k]?.map Prod.fst).getD final

lemma exists_assigns (pos : Nat) (trail : List (τ × τ)) (final : τ) :
    ∃ A, Assigns A pos trail final := by
  refine ⟨fun p => (trail[p - pos]?.map Prod.fst).getD final, fun k => ?_⟩
  dsimp only
  rw [Nat.add_sub_cancel_left]

namespace Assigns

variable {A : Nat → τ} {pos : Nat} {t : τ × τ} {trail : List (τ × τ)} {final : τ}

lemma head (h : Assigns A pos (t :: trail) final) : A pos = t.1 :=
  h 0

lemma tail (h : Assigns A pos (t :: trail) final) : Assigns A (pos + 1) trail final := by
  intro k
  rw [Nat.add_assoc, Nat.add_comm 1 k]
  exact h (k + 1)

end Assigns

namespace Flow

variable {T : Instruction → τ → Option τ} {W W' : Label → τ → Prop} {current fin : Option τ}
  {items items' : List Event} {trail trail' : List (τ × τ)} {final : τ} {c : Code} {pos : Nat}
  {A : Nat → τ}

lemma append (h : Flow T W current items trail fin) {fin' : Option τ}
    (h' : Flow T W fin items' trail' fin') :
    Flow T W current (items ++ items') (trail ++ trail') fin' := by
  induction h with
  | nil current => exact h'
  | emitted hstep htarget _ ih => exact .emitted hstep htarget (ih h')
  | placed hcurrent hlabel _ ih => exact .placed hcurrent hlabel (ih h')

lemma mono (h : Flow T W current items trail fin) (hW : ∀ label a, W label a → W' label a) :
    Flow T W' current items trail fin := by
  induction h with
  | nil current => exact .nil current
  | emitted hstep htarget _ ih =>
      exact .emitted hstep (fun label hlabel => hW label _ (htarget label hlabel)) ih
  | placed hcurrent hlabel _ ih => exact .placed hcurrent (hW _ _ hlabel) ih

/-- The state at the first position is the one that the flow starts with. -/
lemma start_eq (h : Flow T W current items trail fin) (hfin : fin = some final)
    (hA : Assigns A pos trail final) {a : τ} (ha : current = some a) : A pos = a := by
  induction h generalizing a with
  | nil current =>
      rw [ha] at hfin
      exact (hA 0).trans (Option.some.inj hfin).symm
  | emitted hstep htarget h ih => exact hA.head.trans (Option.some.inj ha)
  | placed hcurrent hlabel h ih => exact (ih hfin hA rfl).trans (hcurrent a ha).symm

/-- Each position has the instruction that its state is for. -/
lemma at_position (h : Flow T W current items trail fin) (hfin : fin = some final)
    (hholds : c.Holds pos items) (hA : Assigns A pos trail final) {p : Nat} (hp : pos ≤ p)
    (hlt : p < pos + extent items) :
    ∃ i after, c.instructions[p]? = some i ∧ .emitted i ∈ items ∧ (A p, after) ∈ trail ∧
      T i (A p) = some after ∧ (i.fallsThrough = true → A (p + 1) = after) ∧
      ∀ label, i.target? = some label → W label after := by
  induction h generalizing pos with
  | nil current =>
      rw [extent] at hlt
      omega
  | @emitted i a b items trail final' hstep htarget h ih =>
      obtain ⟨hi, hholds⟩ := hholds
      rw [extent] at hlt
      rcases Nat.eq_or_lt_of_le hp with rfl | hp
      · have ha : A pos = a := hA.head
        refine ⟨i, b, hi, List.mem_cons_self, ?_, ?_, fun hfalls => ?_, htarget⟩
        · rw [ha]
          exact List.mem_cons_self
        · rw [ha, hstep]
        · rw [hfalls] at h
          exact h.start_eq hfin hA.tail rfl
      · obtain ⟨j, after, hj, hitem, hmem, hnext⟩ := ih hfin hholds hA.tail hp (by omega)
        exact ⟨j, after, hj, List.mem_cons_of_mem _ hitem, List.mem_cons_of_mem _ hmem, hnext⟩
  | placed hcurrent hlabel h ih =>
      obtain ⟨j, after, hj, hitem, hnext⟩ := ih hfin hholds.2 hA hp hlt
      exact ⟨j, after, hj, List.mem_cons_of_mem _ hitem, hnext⟩

/-- Each state of the trail is that of a position. -/
lemma position_of_mem (h : Flow T W current items trail fin) (hholds : c.Holds pos items)
    (hA : Assigns A pos trail final) {t : τ × τ} (ht : t ∈ trail) :
    ∃ p i, pos ≤ p ∧ p < pos + extent items ∧ c.instructions[p]? = some i ∧ A p = t.1 ∧
      T i t.1 = some t.2 := by
  induction h generalizing pos with
  | nil current => exact absurd ht List.not_mem_nil
  | @emitted i a b items trail final' hstep htarget h ih =>
      rcases List.mem_cons.mp ht with rfl | ht
      · exact ⟨pos, i, Nat.le_refl _, by rw [extent]; omega, hholds.1, hA.head, hstep⟩
      · obtain ⟨p, j, hp, hlt, hj⟩ := ih hholds.2 hA.tail ht
        exact ⟨p, j, by omega, by rw [extent]; omega, hj⟩
  | placed hcurrent hlabel h ih => exact ih hholds.2 hA ht

/-- Each label has the state of its position. -/
lemma placed_position (h : Flow T W current items trail fin) (hfin : fin = some final)
    (hholds : c.Holds pos items) (hA : Assigns A pos trail final) {label : Label}
    (hlabel : .placed label ∈ items) :
    ∃ q, c.labelPosition? label = some q ∧ pos ≤ q ∧ q ≤ pos + extent items ∧ W label (A q) := by
  induction h generalizing pos with
  | nil current => exact absurd hlabel List.not_mem_nil
  | @emitted i a b items trail final' hstep htarget h ih =>
      rcases List.mem_cons.mp hlabel with heq | hlabel
      · cases heq
      · obtain ⟨q, hq, hle, hle', hW⟩ := ih hfin hholds.2 hA.tail hlabel
        exact ⟨q, hq, by omega, by rw [extent]; omega, hW⟩
  | @placed label' current a items trail final' hcurrent hW h ih =>
      rcases List.mem_cons.mp hlabel with heq | hlabel
      · cases heq
        have ha : A pos = a := h.start_eq hfin hA rfl
        refine ⟨pos, hholds.1, Nat.le_refl _, Nat.le_add_right _ _, ?_⟩
        rw [ha]
        exact hW
      · exact ih hfin hholds.2 hA hlabel

/-- **From states along events to states at positions.**  If the labels have one
state each and all jumps go to labels among the events, then the states that the
events are passed with are an assignment to positions. -/
theorem verified (h : Flow T W current items trail (some final)) (hholds : c.Holds pos items)
    (hA : Assigns A pos trail final) (hW : ∀ label a b, W label a → W label b → a = b)
    (htargets : ∀ i label, .emitted i ∈ items → i.target? = some label → .placed label ∈ items) :
    c.Verified T pos (pos + extent items) A := by
  intro p hp hlt
  obtain ⟨i, after, hi, hitem, -, hafter, hnext, htarget⟩ := h.at_position rfl hholds hA hp hlt
  refine ⟨i, after, hi, hafter, hnext, fun label hlabel => ?_⟩
  obtain ⟨q, hq, hle, hle', hWq⟩ := h.placed_position rfl hholds hA (htargets i label hitem hlabel)
  exact ⟨q, hq, hle, hle', hW label _ _ hWq (htarget label hlabel)⟩

/-- The state that an instruction leaves is that of a position too. -/
lemma position_after (h : Flow T W current items trail fin) (hholds : c.Holds pos items)
    (hA : Assigns A pos trail final) (hverified : c.Verified T pos (pos + extent items) A)
    {t : τ × τ} (ht : t ∈ trail) : ∃ q, pos ≤ q ∧ q ≤ pos + extent items ∧ A q = t.2 := by
  obtain ⟨p, i, hp, hlt, hi, hbefore, hstep⟩ := h.position_of_mem hholds hA ht
  obtain ⟨i', after, hi', hstep', hnext, htarget⟩ := hverified p hp hlt
  cases hi.symm.trans hi'
  rw [hbefore, hstep] at hstep'
  cases hstep'
  cases hfalls : i.fallsThrough with
  | true => exact ⟨p + 1, by omega, by omega, hnext hfalls⟩
  | false =>
      obtain ⟨label, hlabel⟩ := Instruction.exists_target? hfalls
      obtain ⟨q, -, hq, hqle, hafter⟩ := htarget label hlabel
      exact ⟨q, hq, hqle, hafter⟩

/-- The trail has as many states as there are instructions. -/
lemma length_trail (h : Flow T W current items trail fin) : trail.length = extent items := by
  induction h with
  | nil current => rfl
  | emitted hstep htarget h ih => rw [List.length_cons, extent, ih]
  | placed hcurrent hlabel h ih => rw [extent, ih]

lemma end_eq (h : Flow T W current items trail fin) (hA : Assigns A pos trail final) :
    A (pos + extent items) = final := by
  rw [hA, ← h.length_trail, List.getElem?_eq_none (Nat.le_refl _)]
  rfl

end Flow

/-- The events are passed from one state to another, whatever states lie between. -/
def Flows (T : Instruction → τ → Option τ) (W : Label → τ → Prop) (current : Option τ)
    (items : List Event) (fin : Option τ) : Prop :=
  ∃ trail, Flow T W current items trail fin

namespace Flows

variable {T : Instruction → τ → Option τ} {W W' : Label → τ → Prop} {current middle fin : Option τ}
  {items items' : List Event}

lemma nil : Flows T W current [] current :=
  ⟨[], .nil current⟩

lemma emitted {i : Instruction} {a b : τ} (hstep : T i a = some b)
    (htarget : ∀ l, i.target? = some l → W l b)
    (h : Flows T W (if i.fallsThrough then some b else none) items fin) :
    Flows T W (some a) (.emitted i :: items) fin := by
  obtain ⟨trail, hflow⟩ := h
  exact ⟨(a, b) :: trail, .emitted hstep htarget hflow⟩

lemma placed {label : Label} {a : τ} (hcurrent : ∀ b, current = some b → b = a)
    (hlabel : W label a) (h : Flows T W (some a) items fin) :
    Flows T W current (.placed label :: items) fin := by
  obtain ⟨trail, hflow⟩ := h
  exact ⟨trail, .placed hcurrent hlabel hflow⟩

lemma append (h : Flows T W current items middle) (h' : Flows T W middle items' fin) :
    Flows T W current (items ++ items') fin := by
  obtain ⟨trail, hflow⟩ := h
  obtain ⟨trail', hflow'⟩ := h'
  exact ⟨trail ++ trail', hflow.append hflow'⟩

lemma mono (h : Flows T W current items fin) (hW : ∀ label a, W label a → W' label a) :
    Flows T W' current items fin := by
  obtain ⟨trail, hflow⟩ := h
  exact ⟨trail, hflow.mono hW⟩

end Flows

/-! ### Control flow -/

/-- Control may go from position `p` to position `q`: the next one, or the target
of a jump. -/
def Code.Next (c : Code) (p q : Nat) : Prop :=
  ∃ i, c.instructions[p]? = some i ∧
    ((i.fallsThrough = true ∧ q = p + 1) ∨
      ∃ label, i.target? = some label ∧ c.labelPosition? label = some q)

/-- Control comes to each instruction: from the one before it, or through a label
that has been jumped to.  `live` says whether control comes to the first event,
`seen` which labels have been jumped to before, and `final` whether control comes
to the end. -/
def Fed (final : Bool) : Bool → List Label → List Event → Prop
  | live, _, [] => live = final
  | live, seen, .emitted i :: items =>
      live = true ∧ Fed final i.fallsThrough (i.target?.toList ++ seen) items
  | live, seen, .placed label :: items =>
      (live = true ∨ label ∈ seen) ∧ Fed final true seen items

/-- **Control reaches every position** of code that holds events to which control
comes. -/
theorem Fed.reach {c : Code} {first pos : Nat} {live : Bool} {seen : List Label}
    {items : List Event} (h : Fed true live seen items) (hholds : c.Holds pos items)
    (hlive : live = true → ReflTransGen c.Next first pos)
    (hseen : ∀ label ∈ seen, ∀ q, c.labelPosition? label = some q → ReflTransGen c.Next first q)
    {p : Nat} (hp : pos ≤ p) (hle : p ≤ pos + extent items) : ReflTransGen c.Next first p := by
  induction items generalizing pos live seen with
  | nil =>
      rw [extent] at hle
      obtain rfl : p = pos := by omega
      exact hlive h
  | cons item items ih =>
      cases item with
      | emitted i =>
          obtain ⟨hi, hholds⟩ := hholds
          have hpos := hlive h.1
          rw [extent] at hle
          rcases Nat.eq_or_lt_of_le hp with rfl | hp
          · exact hpos
          · refine ih h.2 hholds (fun hfalls => ?_) (fun label hlabel q hq => ?_) hp (by omega)
            · exact hpos.tail ⟨i, hi, .inl ⟨hfalls, rfl⟩⟩
            · rcases List.mem_append.mp hlabel with htarget | hold
              · exact hpos.tail ⟨i, hi, .inr ⟨label, Option.mem_toList.mp htarget, hq⟩⟩
              · exact hseen label hold q hq
      | placed label =>
          obtain ⟨hlabel, hholds⟩ := hholds
          refine ih h.2 hholds (fun _ => ?_) hseen hp hle
          exact h.1.elim hlive fun hmem => hseen label hmem pos hlabel

/-- **Two assignments along the same paths.**  If passing an instruction keeps a relation
between two kinds of states, then two assignments are related wherever control comes from
a position at which they are. -/
theorem Code.Verified.related {υ : Type} {c : Code} {T : Instruction → τ → Option τ}
    {U : Instruction → υ → Option υ} {R : τ → υ → Prop} {first last : Nat} {A : Nat → τ}
    {B : Nat → υ} (hA : c.Verified T first last A) (hB : c.Verified U first last B)
    (hstep : ∀ i a b a' b', T i a = some a' → U i b = some b' → R a b → R a' b')
    (hlast : c.size ≤ last) (hle : first ≤ last) (hfirst : R (A first) (B first)) {p : Nat}
    (hp : ReflTransGen c.Next first p) : R (A p) (B p) := by
  have hpath : first ≤ p ∧ p ≤ last ∧ R (A p) (B p) := by
    induction hp with
    | refl => exact ⟨Nat.le_refl _, hle, hfirst⟩
    | @tail p q _ hnext ih =>
        obtain ⟨hp, -, hrelated⟩ := ih
        obtain ⟨i, hi, hcases⟩ := hnext
        have hsize : p < c.size := (Array.getElem?_eq_some_iff.mp hi).1
        obtain ⟨i', a, hi', ha, hfallA, htargetA⟩ := hA p hp (by omega)
        obtain ⟨i'', b, hi'', hb, hfallB, htargetB⟩ := hB p hp (by omega)
        cases hi.symm.trans hi'
        cases hi.symm.trans hi''
        have hafter := hstep i _ _ a b ha hb hrelated
        -- both assignments have what the instruction leaves where control goes next
        rcases hcases with ⟨hfalls, rfl⟩ | ⟨label, hlabel, hq⟩
        · rw [hfallA hfalls, hfallB hfalls]
          exact ⟨by omega, by omega, hafter⟩
        · obtain ⟨qA, hqA, hle, hle', hAq⟩ := htargetA label hlabel
          obtain ⟨qB, hqB, -, -, hBq⟩ := htargetB label hlabel
          cases hq.symm.trans hqA
          cases hq.symm.trans hqB
          rw [hAq, hBq]
          exact ⟨hle, hle', hafter⟩
  exact hpath.2.2

/-- Where control comes from the first position, two assignments with the same
first state agree. -/
theorem Code.Verified.unique {c : Code} {T : Instruction → τ → Option τ} {first last : Nat}
    {A B : Nat → τ} (hA : c.Verified T first last A) (hB : c.Verified T first last B)
    (hlast : c.size ≤ last) (hle : first ≤ last) (hfirst : A first = B first) {p : Nat}
    (hp : ReflTransGen c.Next first p) : A p = B p := by
  refine hA.related hB (fun i a b a' b' ha hb hab => ?_) hlast hle hfirst hp
  rw [hab, hb] at ha
  exact (Option.some.inj ha).symm

end StackLowering
