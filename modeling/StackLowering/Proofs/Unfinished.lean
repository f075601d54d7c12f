import Mathlib.Data.Nat.Find
import StackLowering.Proofs.Lifecycle
import StackLowering.Proofs.Safety

/-!
What a step that fails leaves unfinished.

* `Expr.faultAt?`, `Expr.FailsAt`: the fault of the node at the end of a path, and the first path in
  the order of lowering that ends at a node with a fault.
* `Expr.EntersArm`, `Expr.openLabels`: whether a path goes into the right side of a disjunction or
  an arm of a conditional, and the labels that are open there.
* `Expr.FailsAt.exists_lead`: lowering comes to the node that fails, and has placed all other labels
  that it has created.
* `Course.hasPosition_iff`: the labels that a run gives positions to.
* `Session.finish_after_fault`: what the end of the session reports, also after other steps.
-/

namespace StackLowering

open Move (Clean inPlace)

/-! ### The node that fails -/

namespace Expr

/-- The fault of the node at the end of a path, where the value of the whole tree is wanted or
not: the node has no value and it is wanted, or one of the checks of the node fails. -/
def faultAt? : Expr → Bool → List Nat → Option Fault
  | e, wanted, [] =>
      Check.first? (⟨wanted && !e.hasValue, .voidValue e.voidType⟩ :: e.nodeChecks)
  | e, _, k :: path => e.children[k]?.bind fun c => c.faultAt? (e.wants k) path

/-- A path ends at a node with a fault, and lowering comes to no other such node before: nodes come
before the trees below them, and these from left to right. -/
structure FailsAt (e : Expr) (wanted : Bool) (path : List Nat) (fault : Fault) : Prop where
  fault : e.faultAt? wanted path = some fault
  first : ∀ earlier, earlier < path → e.faultAt? wanted earlier = none

/-- No node has a fault. -/
def Faultless (e : Expr) (wanted : Bool) : Prop :=
  ∀ path, e.faultAt? wanted path = none

variable {e c : Expr} {wanted : Bool} {k : Nat} {path : List Nat} {fault : Fault}

lemma faultAt?_nil_eq_none : e.faultAt? wanted [] = none ↔
    (wanted = true → e.hasValue = true) ∧ Check.first? e.nodeChecks = none := by
  rw [faultAt?, Check.first?_cons]
  cases wanted <;> cases e.hasValue <;> simp

lemma faultAt?_cons (wanted : Bool) (hc : e.children[k]? = some c) (path : List Nat) :
    e.faultAt? wanted (k :: path) = c.faultAt? (e.wants k) path := by
  rw [faultAt?, hc, Option.bind_some]

lemma faultless_iff : e.Faultless wanted ↔ e.faultAt? wanted [] = none ∧
    ∀ (k : Nat) (c : Expr), e.children[k]? = some c → c.Faultless (e.wants k) := by
  refine ⟨fun h => ⟨h [], fun k c hc path => ?_⟩, fun ⟨hnode, hbelow⟩ path => ?_⟩
  · rw [← faultAt?_cons wanted hc]
    exact h (k :: path)
  · cases path with
    | nil => exact hnode
    | cons k path =>
        cases hc : e.children[k]? with
        | none => rw [faultAt?, hc, Option.bind_none]
        | some c =>
            rw [faultAt?_cons wanted hc]
            exact hbelow k c hc path

lemma FailsAt.nil (h : e.faultAt? wanted [] = some fault) : e.FailsAt wanted [] fault :=
  ⟨h, fun _ hlt => absurd hlt (List.not_lt_nil _)⟩

/-- The first node with a fault is below another one if that has none itself and the trees before
have none. -/
lemma failsAt_cons_iff : e.FailsAt wanted (k :: path) fault ↔ e.faultAt? wanted [] = none ∧
    (∀ j < k, ∀ c, e.children[j]? = some c → c.Faultless (e.wants j)) ∧
    ∃ c, e.children[k]? = some c ∧ c.FailsAt (e.wants k) path fault := by
  constructor
  · rintro ⟨hfault, hfirst⟩
    obtain ⟨c, hc, hfault⟩ := Option.bind_eq_some_iff.mp hfault
    refine ⟨hfirst [] (List.nil_lt_cons _ _), fun j hj c' hc' q => ?_, c, hc, hfault,
      fun q hq => ?_⟩
    · rw [← faultAt?_cons wanted hc']
      exact hfirst _ (List.cons_lt_cons_iff.mpr (.inl hj))
    · rw [← faultAt?_cons wanted hc]
      exact hfirst _ (List.cons_lt_cons_iff.mpr (.inr ⟨rfl, hq⟩))
  · rintro ⟨hnode, hbefore, c, hc, hfault, hfirst⟩
    refine ⟨(faultAt?_cons wanted hc path).trans hfault, fun earlier hlt => ?_⟩
    cases earlier with
    | nil => exact hnode
    | cons j q =>
        -- earlier in the order: below a child before, or earlier below the same child
        rcases List.cons_lt_cons_iff.mp hlt with hj | ⟨rfl, hq⟩
        · cases hc' : e.children[j]? with
          | none => rw [faultAt?, hc', Option.bind_none]
          | some c' =>
              rw [faultAt?_cons wanted hc']
              exact hbefore j hj c' hc' q
        · rw [faultAt?_cons wanted hc]
          exact hfirst q hq

/-- A tree has no fault, or there is a first one. -/
lemma faultless_or_failsAt (e : Expr) :
    ∀ wanted, e.Faultless wanted ∨ ∃ path fault, e.FailsAt wanted path fault := by
  induction e using inductChildren with
  | node e ih =>
      intro wanted
      cases hnode : e.faultAt? wanted [] with
      | some fault => exact .inr ⟨[], fault, .nil hnode⟩
      | none =>
          by_cases hbelow : ∀ (k : Nat) (c : Expr), e.children[k]? = some c →
              c.Faultless (e.wants k)
          · exact .inl (faultless_iff.mpr ⟨hnode, hbelow⟩)
          · classical
            simp only [not_forall] at hbelow
            obtain ⟨c, hc, hfaulty⟩ := Nat.find_spec hbelow
            obtain ⟨path, fault, hfails⟩ :=
              (ih c (List.mem_of_getElem? hc) _).resolve_left hfaulty
            refine .inr ⟨_, fault, failsAt_cons_iff.mpr ⟨hnode, fun j hj c' hc' => ?_, c, hc,
              hfails⟩⟩
            by_contra hnot
            exact Nat.find_min hbelow hj ⟨c', hc', hnot⟩

/-! ### Trees without faults -/

lemma faults?_eq_none {es : List Expr}
    (h : ∀ (k : Nat) (c : Expr), es[k]? = some c → c.fault? true = none) : faults? es = none := by
  induction es with
  | nil => rfl
  | cons c es ih =>
      rw [faults?, h 0 c rfl, Option.none_or]
      exact ih fun k c hc => h (k + 1) c hc

/-- A tree has no fault if neither its node nor the trees below have one. -/
lemma fault?_eq_none_of_children {e : Expr} {wanted : Bool}
    (hnode : Check.first? (e.checksAt wanted) = none)
    (hbelow : ∀ (k : Nat) (c : Expr), e.children[k]? = some c → c.fault? (e.wants k) = none) :
    e.fault? wanted = none := by
  cases e with
  | literal value => exact hnode
  | load source => exact hnode
  | receiver => exact hnode
  | getStatic field => exact hnode
  | newInstance _ operands | invokeStatic _ operands | newArray _ operands =>
      rw [fault?, hnode, Option.none_or]
      exact faults?_eq_none hbelow
  | invoke target method arguments =>
      have htarget : target.fault? true = none := hbelow 0 target rfl
      rw [fault?, hnode, htarget, Option.none_or, Option.none_or,
        faults?_eq_none fun k c hc => hbelow (k + 1) c hc]
  | conditional test onTrue onFalse =>
      have htest : test.fault? true = none := hbelow 0 test rfl
      have honTrue : onTrue.fault? false = none := hbelow 1 onTrue rfl
      have honFalse : onFalse.fault? false = none := hbelow 2 onFalse rfl
      rw [fault?, hnode, htest, honTrue, honFalse]
      rfl
  | or lhs rhs | eq lhs rhs type | gt lhs rhs type | arithmetic op lhs rhs type =>
      have hlhs : lhs.fault? true = none := hbelow 0 lhs rfl
      have hrhs : rhs.fault? true = none := hbelow 1 rhs rfl
      rw [fault?, hnode, hlhs, hrhs]
      rfl
  | getField operand _ | not operand | widen operand _ _ | cast _ operand | pop operand =>
      have hoperand : operand.fault? true = none := hbelow 0 operand rfl
      rw [fault?, hnode, hoperand]
      rfl

namespace Faultless

lemma shortArrays (h : e.Faultless wanted) : e.ShortArrays := by
  induction e using inductChildren generalizing wanted with
  | node e ih =>
      obtain ⟨hnode, hbelow⟩ := faultless_iff.mp h
      refine everywhere_iff.mpr ⟨?_, fun c hc => ?_⟩
      · cases e with
        | newArray element elements =>
            obtain ⟨_, _, _, _, hlength⟩ :=
              arrayChoices_of_checks .jvm (faultAt?_nil_eq_none.mp hnode).2
            exact (Selection.arrayLength_eq_ok.mp hlength).1
        | _ => trivial
      · obtain ⟨k, hk⟩ := List.mem_iff_getElem?.mp hc
        exact ih c hc (hbelow k c hk)

lemma fault?_eq_none (h : e.Faultless wanted) : e.fault? wanted = none := by
  induction e using inductChildren generalizing wanted with
  | node e ih =>
      obtain ⟨hnode, hbelow⟩ := faultless_iff.mp h
      obtain ⟨hvalue, hchecks⟩ := faultAt?_nil_eq_none.mp hnode
      refine fault?_eq_none_of_children ?_ fun k c hc =>
        ih c (List.mem_of_getElem? hc) (hbelow k c hc)
      rw [checksAt, Check.first?_cons, checks_of_nodeChecks hchecks]
      cases wanted with
      | false => rfl
      | true =>
          rw [hvalue rfl]
          rfl

/-- No choice of a tree without faults fails. -/
lemma clean (h : e.Faultless wanted) (config : Config) (first : Nat) :
    Clean (e.moves config first) := by
  have hfault : e.fault? false = none := by
    have hnone := h.fault?_eq_none
    cases wanted with
    | false => exact hnone
    | true =>
        rw [fault?_true, Option.or_eq_none_iff] at hnone
        exact hnone.2
  have hrefusal : Move.refusal? (e.moves config first) = none :=
    (e.refusal?_moves h.shortArrays first).trans hfault
  intro fault hmem
  cases List.findSome?_eq_none_iff.mp hrefusal _ hmem

lemma hasValue (h : e.Faultless true) : e.hasValue = true :=
  (faultAt?_nil_eq_none.mp (h [])).1 rfl

end Faultless

/-! ### Labels on the way to a node -/

/-- The label that stays open while lowering is in the tree below a node that has the index given,
if the labels of the node are numbered from `first` on.  In the right side of a disjunction it is
the one that the left side jumps to if it holds, in the first arm of a conditional the one in front
of the second arm, and in the second arm the one behind it. -/
def armLabel? (first : Nat) : Expr → Nat → Option Label
  | or lhs _, 1 => some ⟨first + lhs.labelCount⟩
  | conditional test _ _, 1 => some ⟨first + test.labelCount⟩
  | conditional test onTrue _, 2 => some ⟨first + test.labelCount + 1 + onTrue.labelCount⟩
  | _, _ => none

/-- The labels that are open when lowering comes to the end of a path, from the outermost construct
to the innermost. -/
def openLabels : Expr → Nat → List Nat → List Label
  | _, _, [] => []
  | e, first, k :: path => (e.armLabel? first k).toList ++
      e.children[k]?.elim [] fun c => c.openLabels (first + e.labelsBefore k) path

/-- A path goes into the right side of a disjunction or into an arm of a conditional. -/
inductive EntersArm : Expr → List Nat → Prop
  | right (lhs rhs : Expr) (path : List Nat) : EntersArm (or lhs rhs) (1 :: path)
  | onTrue (test onTrue onFalse : Expr) (path : List Nat) :
      EntersArm (conditional test onTrue onFalse) (1 :: path)
  | onFalse (test onTrue onFalse : Expr) (path : List Nat) :
      EntersArm (conditional test onTrue onFalse) (2 :: path)
  | inside {e c : Expr} {k : Nat} {path : List Nat} (hc : e.children[k]? = some c)
      (h : EntersArm c path) : EntersArm e (k :: path)

/-- The open label is the last one that has been created. -/
lemma bounds_of_armLabel? {first : Nat} {label : Label} (h : e.armLabel? first k = some label) :
    first ≤ label.id ∧ label.id + 1 = first + e.labelsBefore k := by
  unfold armLabel? at h
  split at h <;> cases h <;> simp only [labelsBefore] <;> omega

lemma entersArm_of_armLabel? {first : Nat} {label : Label} (h : e.armLabel? first k = some label) :
    e.EntersArm (k :: path) := by
  unfold armLabel? at h
  split at h
  · exact .right _ _ path
  · exact .onTrue _ _ _ path
  · exact .onFalse _ _ _ path
  · cases h

lemma openLabels_eq_nil_iff {first : Nat} : e.openLabels first path = [] ↔ ¬ e.EntersArm path := by
  induction path generalizing e first with
  | nil => exact ⟨fun _ h => (nomatch h), fun _ => rfl⟩
  | cons k path ih =>
      rw [openLabels, List.append_eq_nil_iff]
      constructor
      · rintro ⟨hnone, hrest⟩ h
        cases h with
        | right lhs rhs => cases hnone
        | onTrue test onTrue onFalse => cases hnone
        | onFalse test onTrue onFalse => cases hnone
        | inside hc h =>
            rw [hc] at hrest
            exact ih.mp hrest h
      · intro h
        refine ⟨?_, ?_⟩
        · cases harm : e.armLabel? first k with
          | none => rfl
          | some label => exact absurd (entersArm_of_armLabel? harm) h
        · cases hc : e.children[k]? with
          | none => rfl
          | some c => exact ih.mpr fun hinside => h (.inside hc hinside)

/-- The labels of a path are those of the node and those further down. -/
lemma mem_openLabels_cons {first : Nat} {label : Label}
    (h : label ∈ e.openLabels first (k :: path)) : e.armLabel? first k = some label ∨
      ∃ c, e.children[k]? = some c ∧ label ∈ c.openLabels (first + e.labelsBefore k) path := by
  rcases List.mem_append.mp h with harm | hrest
  · exact .inl (Option.mem_toList.mp harm)
  · cases hc : e.children[k]? with
    | none =>
        rw [hc] at hrest
        cases hrest
    | some c =>
        rw [hc] at hrest
        exact .inr ⟨c, rfl, hrest⟩

lemma le_of_mem_openLabels {first : Nat} {label : Label} (h : label ∈ e.openLabels first path) :
    first ≤ label.id := by
  induction path generalizing e first with
  | nil => cases h
  | cons k path ih =>
      rcases mem_openLabels_cons h with harm | ⟨c, -, hrest⟩
      · exact (bounds_of_armLabel? harm).1
      · exact Nat.le_trans (Nat.le_add_right _ _) (ih hrest)

/-- Outer constructs have the smaller labels. -/
lemma pairwise_openLabels (e : Expr) (first : Nat) (path : List Nat) :
    (e.openLabels first path).Pairwise fun label other => label.id < other.id := by
  induction path generalizing e first with
  | nil => exact .nil
  | cons k path ih =>
      cases hc : e.children[k]? with
      | none =>
          rw [openLabels, hc, Option.elim_none, List.append_nil]
          cases e.armLabel? first k <;> simp
      | some c =>
          rw [openLabels, hc, Option.elim_some]
          cases harm : e.armLabel? first k with
          | none => exact ih c _
          | some label =>
              refine List.pairwise_cons.mpr ⟨fun other hother => ?_, ih c _⟩
              have hlast := (bounds_of_armLabel? harm).2
              have hle := le_of_mem_openLabels hother
              omega

end Expr

/-! ### The way to the node that fails -/

namespace Expr

open Move (placedIds)

variable {e c : Expr} {wanted : Bool} {k : Nat} {path : List Nat} {fault : Fault} {config : Config}

lemma clean_argumentMoves {arguments : List Expr} (h : ∀ e ∈ arguments, e.Faultless true)
    (first : Nat) : Clean (argumentMoves config first arguments) := by
  induction arguments generalizing first with
  | nil => exact Move.clean_nil
  | cons e es ih =>
      obtain ⟨he, hes⟩ := List.forall_mem_cons.mp h
      rw [argumentMoves, Move.clean_append, Move.clean_consumed]
      exact ⟨⟨he.hasValue, he.clean config first⟩, ih hes _⟩

lemma clean_elementMoves {store : Instruction} {elements : List Expr}
    (h : ∀ e ∈ elements, e.Faultless true) (first index : Nat) :
    Clean (elementMoves config store first index elements) := by
  induction elements generalizing first index with
  | nil => exact Move.clean_nil
  | cons e es ih =>
      obtain ⟨he, hes⟩ := List.forall_mem_cons.mp h
      simp only [elementMoves, Move.clean_cons, Move.clean_append, Move.clean_consumed]
      exact ⟨nofun, nofun, ⟨he.hasValue, he.clean config first⟩, nofun, ih hes _ _⟩

/-- Nothing fails on the way to a tree below a node that is not refused, if the trees before it have
no faults. -/
lemma clean_leadingMoves (hc : e.children[k]? = some c)
    (hchecks : Check.first? e.nodeChecks = none)
    (h : ∀ j < k, ∀ c, e.children[j]? = some c → c.Faultless (e.wants j)) (first : Nat) :
    Clean (e.leadingMoves config first k) := by
  -- where the values of all children are wanted, those before `k` are in order
  have hlist (hwants : ∀ j, e.wants j = true) : ∀ c ∈ e.children.take k, c.Faultless true := by
    intro c hc
    obtain ⟨j, hj⟩ := List.mem_iff_getElem?.mp hc
    rw [List.getElem?_take] at hj
    split_ifs at hj with hlt
    rw [← hwants j]
    exact h j hlt c hj
  cases e with
  | newInstance constructor arguments =>
      obtain ⟨call, hok⟩ := Selection.exists_ok_of_fault?
        ((Selection.fault?_construction config.naming constructor arguments).trans hchecks)
      have harguments : Clean (argumentMoves config first (arguments.take k)) :=
        clean_argumentMoves (hlist fun _ => rfl) first
      simp [leadingMoves, hok, Move.guarded, harguments]
  | or lhs rhs =>
      rcases k with _ | _ | k
      · exact Move.clean_nil
      · have hlhs := (h 0 Nat.one_pos lhs rfl).clean config first
        simp [leadingMoves, hlhs]
      · cases hc
  | conditional test onTrue onFalse =>
      rcases k with _ | _ | _ | k
      · exact Move.clean_nil
      · have htest := (h 0 Nat.one_pos test rfl).clean config first
        simp [leadingMoves, htest]
      · have htest := (h 0 Nat.two_pos test rfl).clean config first
        have honTrue := (h 1 Nat.one_lt_two onTrue rfl).clean config (first + test.labelCount + 1)
        simp [leadingMoves, htest, honTrue]
      · cases hc
  | newArray element elements =>
      obtain ⟨allocation, store, hallocation, hstore, hlength⟩ :=
        arrayChoices_of_checks config.naming hchecks
      have helements : Clean (elementMoves config store first 0 (elements.take k)) :=
        clean_elementMoves (hlist fun _ => rfl) first 0
      simp [leadingMoves, hallocation, hstore, hlength, Move.guarded, helements]
  | _ => exact clean_argumentMoves (hlist fun _ => rfl) first

/-- On the way to the second arm of a conditional, all labels are placed but the one at the end. -/
lemma perm_leadingMoves_otherwise {test onTrue : Expr} (onFalse : Expr) {first : Nat}
    (htest : Clean (test.moves config first))
    (honTrue : Clean (onTrue.moves config (first + test.labelCount + 1))) :
    (placedIds (leadingMoves config first (conditional test onTrue onFalse) 2) ++
        [first + test.labelCount + 1 + onTrue.labelCount]).Perm
      (List.range' first (test.labelCount + 1 + onTrue.labelCount + 1)) := by
  have hplaced := (test.uses_moves first htest).placed
  have hplaced' := (onTrue.uses_moves _ honTrue).placed
  have hmoves : placedIds (leadingMoves config first (conditional test onTrue onFalse) 2)
      = placedIds (test.moves config first) ++
        (placedIds (onTrue.moves config (first + test.labelCount + 1)) ++
          [first + test.labelCount]) := by
    rw [leadingMoves, Move.placedIds_append]
    exact congrArg _ (Move.placedIds_append _ _)
  have hrow : List.range' first (test.labelCount + 1 + onTrue.labelCount + 1)
      = List.range' first test.labelCount ++ (first + test.labelCount) ::
        List.range' (first + test.labelCount + 1) onTrue.labelCount ++
          [first + test.labelCount + 1 + onTrue.labelCount] := by
    have hcount : test.labelCount + 1 + onTrue.labelCount
        = test.labelCount + (onTrue.labelCount + 1) := by omega
    have hlast : first + (test.labelCount + (onTrue.labelCount + 1))
        = first + test.labelCount + 1 + onTrue.labelCount := by omega
    rw [List.range'_1_concat, hcount, hlast, ← List.range'_append_1, List.range'_succ]
  rw [hmoves, hrow]
  -- the label in front of the second arm is placed after all labels of the first one
  exact (hplaced.append ((hplaced'.append_right _).trans List.perm_append_comm)).append_right _

/-- On the way to a tree below a node, all labels are placed that are created, but the one that
stays open. -/
lemma perm_leadingMoves {first : Nat} (hclean : Clean (e.leadingMoves config first k)) :
    (placedIds (e.leadingMoves config first k) ++ (e.armLabel? first k).toList.map Label.id).Perm
      (List.range' first (e.labelsBefore k)) := by
  have harguments {es : List Expr} (h : Clean (argumentMoves config first es)) :
      (placedIds (argumentMoves config first es) ++ []).Perm
        (List.range' first (labelCounts es)) := by
    rw [List.append_nil]
    exact (uses_argumentMoves (fun e _ => e.uses_moves) h).placed
  -- behind a branch its target stays open
  have hbranch {e : Expr} {condition : Condition} {label : Label}
      (h : Clean (e.moves config first ++ [.create, .branch condition label])) :
      (placedIds (e.moves config first ++ [.create, .branch condition label]) ++
        [first + e.labelCount]).Perm (List.range' first (e.labelCount + 1)) := by
    rw [Move.placedIds_append, List.range'_1_concat]
    refine .append_right _ ((List.Perm.of_eq (List.append_nil _)).trans ?_)
    exact (e.uses_moves first (Move.clean_append.mp h).1).placed
  cases e with
  | newInstance constructor arguments =>
      obtain ⟨call, hok, hcall⟩ := Move.clean_guarded.mp hclean
      simp only [Move.clean_cons] at hcall
      simp only [leadingMoves, hok, Move.guarded]
      exact harguments hcall.2.2
  | or lhs rhs =>
      rcases k with _ | _ | k
      · exact .nil
      · exact hbranch hclean
      · exact harguments hclean
  | conditional test onTrue onFalse =>
      rcases k with _ | _ | _ | k
      · exact .nil
      · exact hbranch hclean
      · obtain ⟨htest, hrest⟩ := Move.clean_append.mp hclean
        simp only [Move.clean_cons, Move.clean_append] at hrest
        exact perm_leadingMoves_otherwise onFalse htest hrest.2.2.1
      · exact harguments hclean
  | newArray element elements =>
      obtain ⟨allocation, hallocation, hclean⟩ := Move.clean_guarded.mp hclean
      obtain ⟨store, hstore, hclean⟩ := Move.clean_guarded.mp hclean
      obtain ⟨length, hlength, hclean⟩ := Move.clean_guarded.mp hclean
      simp only [Move.clean_cons, Move.clean_append] at hclean
      have hplaced := (uses_elementMoves (fun e _ => e.uses_moves) hclean.2.2.1).placed
      simp only [leadingMoves, hallocation, hstore, hlength, Move.guarded]
      show (placedIds (_ ++ _) ++ []).Perm _
      rw [Move.placedIds_append, List.append_nil]
      exact (List.Perm.of_eq (List.append_nil _)).trans hplaced
  | _ => exact harguments hclean

/-- A node with a fault of its own is refused in its place. -/
lemma inPlace_of_faultAt? (h : e.faultAt? wanted [] = some fault) (first : Nat) :
    inPlace wanted e (e.moves config first) = [.refuse fault] := by
  rw [faultAt?, Check.first?_cons] at h
  split_ifs at h with hmissing
  · cases h
    obtain ⟨rfl, hvalue⟩ : wanted = true ∧ e.hasValue = false := by simpa using hmissing
    exact Move.guarded_of_fault? (by rw [Selection.fault?_value, hvalue]; rfl)
  · rw [Move.inPlace_of_hasValue (by simpa using hmissing), moves_of_refused h]

/-- **Up to the node that fails.**  The moves of a tree in its place begin with moves that do not
fail, and then comes the refusal of the node at the end of the path.  The first moves lead to the
session in which lowering comes to that node.  They place all labels that they create, but those
that are open on the path. -/
lemma FailsAt.exists_lead {σ : Type} [Sink σ] (h : e.FailsAt wanted path fault) (config : Config)
    (first : Nat) : ∃ lead rest count,
      inPlace wanted e (e.moves config first) = lead ++ .refuse fault :: rest ∧ Clean lead ∧
      (placedIds lead ++ (e.openLabels first path).map Label.id).Perm (List.range' first count) ∧
      ∀ s s' : Session σ, s.labels.size = first → (follow lead).run s = .ok () s' →
        e.visited? config path s = some s' ∧ s'.labels.size = first + count := by
  induction path generalizing e wanted first with
  | nil =>
      refine ⟨[], [], 0, ?_, Move.clean_nil, .nil, ?_⟩
      · exact inPlace_of_faultAt? h.fault first
      · rintro s s' hsize ⟨⟩
        exact ⟨rfl, hsize⟩
  | cons k path ih =>
      obtain ⟨hnode, hbefore, c, hc, hfails⟩ := failsAt_cons_iff.mp h
      obtain ⟨hvalue, hchecks⟩ := faultAt?_nil_eq_none.mp hnode
      have hhead (hk : 0 < k) (c' : Expr) (hc' : e.children.head? = some c') :
          c'.hasValue = true := by
        rw [List.head?_eq_getElem?] at hc'
        have hwants : e.wants 0 = true := by cases e <;> rfl
        have hfaultless := hbefore 0 hk c' hc'
        rw [hwants] at hfaultless
        exact hfaultless.hasValue
      -- the moves to the child, those of the child in its place, and others that are not reached
      obtain ⟨others, hmoves⟩ := moves_split config hc hchecks hhead first
      have hclean : Clean (e.leadingMoves config first k) :=
        clean_leadingMoves hc hchecks hbefore first
      have hfollows := e.leading_follows (σ := σ) config k first
      obtain ⟨lead, rest, count, hlead, hclean', hperm, hvisited⟩ :=
        ih hfails (first + e.labelsBefore k)
      refine ⟨e.leadingMoves config first k ++ lead, rest ++ others, e.labelsBefore k + count, ?_,
        Move.clean_append.mpr ⟨hclean, hclean'⟩, ?_, fun s s' hsize hrun => ?_⟩
      · rw [Move.inPlace_of_hasValue hvalue, hmoves, hlead]
        simp only [List.append_assoc, List.cons_append]
      · rw [openLabels, hc, Option.elim_some, List.map_append, Move.placedIds_append,
          ← List.range'_append_1, List.append_assoc]
        refine .trans ?_ ((perm_leadingMoves hclean).append hperm)
        rw [List.append_assoc]
        exact .append_left _ (List.perm_append_comm_assoc _ _ _)
      · obtain ⟨s₁, hrun₁, hrun'⟩ := follow_append_eq_ok.mp hrun
        obtain ⟨hsame, hsize₁⟩ := hfollows s hsize
        rw [← hsame] at hrun₁
        obtain ⟨hvisited, hcount⟩ := hvisited s₁ s' (hsize₁ s₁ hrun₁) hrun'
        refine ⟨?_, by rw [hcount, Nat.add_assoc]⟩
        rw [visited?, hc, Option.bind_some, Lowering.final?_eq_some.mpr hrun₁, Option.bind_some,
          hvisited]

end Expr

/-! ### Positions -/

variable {σ : Type} [Sink σ]

/-- A move gives a position to no label but the one it places. -/
lemma Session.hasPosition_of_moved {s : Session σ} {m : Move} {label : Label}
    (h : (s.moved m).labels.HasPosition label) :
    s.labels.HasPosition label ∨ m = .place label := by
  obtain ⟨depth, hstate⟩ := h
  cases m with
  | refuse fault => exact .inl ⟨depth, hstate⟩
  | emit i => exact .inl ⟨depth, hstate⟩
  | create =>
      rcases Session.eq_or_of_created hstate with hnew | hold
      · cases hnew
      · exact .inl ⟨depth, hold⟩
  | branch condition target =>
      rcases LabelTable.eq_or_of_set hstate with ⟨-, hnew⟩ | hold
      · cases hnew
      · exact .inl ⟨depth, hold⟩
  | goto target =>
      rcases LabelTable.eq_or_of_set hstate with ⟨-, hnew⟩ | hold
      · cases hnew
      · exact .inl ⟨depth, hold⟩
  | place other =>
      rcases LabelTable.eq_or_of_set hstate with ⟨rfl, -⟩ | hold
      · exact .inr rfl
      · exact .inl ⟨depth, hold⟩

/-- After a run, the labels have positions that had one before and those that it has placed. -/
lemma Course.hasPosition_iff {floor : Nat} {s s' : Session σ} {ms : List Move}
    (h : Course floor s ms s') {label : Label} : s'.labels.HasPosition label ↔
      s.labels.HasPosition label ∨ .place label ∈ ms := by
  constructor
  · intro hlabel
    induction h with
    | nil => exact .inl hlabel
    | cons _ _ _ ih =>
        rcases ih hlabel with hmoved | hmem
        · rcases Session.hasPosition_of_moved hmoved with hold | rfl
          · exact .inl hold
          · exact .inr List.mem_cons_self
        · exact .inr (List.mem_cons_of_mem _ hmem)
  · rintro (⟨depth, hstate⟩ | hmem)
    · exact ⟨depth, h.placed hstate⟩
    · exact h.placed_of_mem hmem

lemma Course.labels_le {floor : Nat} {s s' : Session σ} {ms : List Move}
    (h : Course floor s ms s') : s.labels.size ≤ s'.labels.size := by
  induction h with
  | nil => exact Nat.le_refl _
  | cons _ _ _ ih =>
      rw [Session.size_moved] at ih
      exact Nat.le_trans (Nat.le_add_right _ _) ih

lemma Move.mem_placedIds {ms : List Move} {label : Label} :
    label.id ∈ Move.placedIds ms ↔ .place label ∈ ms := by
  rw [placedIds, List.mem_filterMap]
  refine ⟨?_, fun h => ⟨_, h, rfl⟩⟩
  rintro ⟨m, hm, hid⟩
  cases m with
  | place other =>
      rw [← Label.eq_of_id_eq (Option.some.inj hid)]
      exact hm
  | _ => cases hid

/-- The moves of a tree place none of the labels before it. -/
lemma Expr.le_of_place_mem {e : Expr} {config : Config} {first : Nat} {label : Label}
    (h : .place label ∈ e.moves config first) : first ≤ label.id := by
  -- the moves are those of a tree whose labels are numbered from zero, shifted by `first`
  rw [← Nat.add_zero first, e.moves_add config first 0 0, List.mem_map] at h
  obtain ⟨m, -, hm⟩ := h
  cases m with
  | place other =>
      cases hm
      exact Nat.le_add_right _ _
  | _ => cases hm

namespace Session

variable {s s' : Session σ} {config : Config} {step : Step} {fault : Fault}

/-- **One step** does not give a position to a label from before, and takes none away. -/
lemma hasPosition_step (config : Config) (step : Step) (hs : s.reachable = true) {label : Label}
    (hlabel : label.id < s.labels.size) :
    ((s.step config step).2.labels.HasPosition label ↔ s.labels.HasPosition label) ∧
      label.id < (s.step config step).2.labels.size := by
  obtain ⟨done, rest, hmoves, hcourse, -⟩ := step_course hs config step
  have hnot : .place label ∉ done := fun hmem =>
    Nat.not_lt.mpr (Expr.le_of_place_mem (hmoves ▸ List.mem_append_left rest hmem)) hlabel
  refine ⟨?_, ?_⟩
  · rw [hcourse.hasPosition_iff, or_iff_left hnot]
  · exact Nat.lt_of_lt_of_le hlabel hcourse.labels_le

/-- A label is the first one without a position. -/
structure Awaits (s : Session σ) (label : Label) : Prop where
  created : label.id < s.labels.size
  unplaced : ¬ s.labels.HasPosition label
  before : ∀ other : Label, other.id < label.id → s.labels.HasPosition other

omit [Sink σ] in
lemma Awaits.finish {label : Label} (h : s.Awaits label) :
    s.finish = .error (.labelUnplaced label) := by
  have hverify : s.labels.verify = .error (.labelUnplaced label) :=
    LabelTable.verify_eq_error_iff.mpr ⟨label, rfl, h.created, h.unplaced, h.before⟩
  rw [Session.finish, hverify]
  rfl

/-- **All later steps** leave it so. -/
lemma Awaits.after {label : Label} (h : s.Awaits label) (hs : s.Reached)
    (steps : List (Config × Step)) : (s.after steps).Awaits label := by
  have hboth : (s.after steps).Reached ∧ (s.after steps).Awaits label := by
    -- a step changes nothing for the labels up to this one, since it places new labels only
    refine after_keeps (I := fun s => s.Reached ∧ s.Awaits label) ?_ ⟨hs, h⟩ steps
    rintro s config step ⟨hs, h⟩
    have hkeeps {other : Label} (hother : other.id ≤ label.id) :=
      hasPosition_step config step hs.live (Nat.lt_of_le_of_lt hother h.created)
    refine ⟨hs.step config step, (hkeeps (Nat.le_refl _)).2, ?_, fun other hlt => ?_⟩
    · rw [(hkeeps (Nat.le_refl _)).1]
      exact h.unplaced
    · rw [(hkeeps (Nat.le_of_lt hlt)).1]
      exact h.before other hlt
  exact hboth.2

end Session

/-! ### Steps that fail -/

/-- Where some labels of a row are placed and the others are known, each one is the one or the
other. -/
lemma Move.place_mem_iff {first count : Nat} {ms : List Move} {labels : List Label} {label : Label}
    (h : (placedIds ms ++ labels.map Label.id).Perm (List.range' first count))
    (hlabel : label.id < first + count) :
    .place label ∈ ms ↔ first ≤ label.id ∧ label ∉ labels := by
  rw [← mem_placedIds]
  have hmem := h.mem_iff (a := label.id)
  rw [List.mem_append, List.mem_range'_1] at hmem
  constructor
  · intro hplaced
    -- no label is in both parts of the row
    have hdisjoint := (List.nodup_append.mp (h.nodup_iff.mpr List.nodup_range')).2.2
    refine ⟨(hmem.mp (.inl hplaced)).1, fun hopen => ?_⟩
    exact hdisjoint _ hplaced _ (List.mem_map_of_mem hopen) rfl
  · rintro ⟨hle, hopen⟩
    refine (hmem.mpr ⟨hle, hlabel⟩).resolve_right fun hid => ?_
    obtain ⟨other, hother, hid⟩ := List.mem_map.mp hid
    rw [Label.eq_of_id_eq hid] at hother
    exact hopen hother

/-- A run without refusals stops for want of labels, or because two depths differ. -/
lemma Leads.fault_of_clean {floor : Nat} {Q : Session σ → Prop} {R : Fault → Session σ → Prop}
    {ms : List Move} {s s' : Session σ} {fault : Fault} (h : Leads (Safe floor) Q R ms s)
    (hclean : Clean ms) (hrun : (follow ms).run s = .error fault s') :
    (fault = .tooManyLabels ∧ LabelTable.limit < s.labels.size + Move.creations ms) ∨
      ∃ expected actual, expected ≠ actual ∧ fault = .stackImbalance expected actual := by
  induction ms generalizing s with
  | nil => cases hrun
  | cons m ms ih =>
      obtain ⟨hsafe, hnext⟩ := h
      obtain ⟨hm, hclean⟩ := Move.clean_cons.mp hclean
      rw [follow, EStateM.run_bind] at hrun
      rcases hsafe.run_cases with ⟨hperform, -⟩ | ⟨fault', hperform⟩
      · rw [hperform] at hnext hrun
        rcases ih hnext hclean hrun with ⟨hfault, hlimit⟩ | himbalance
        · refine .inl ⟨hfault, ?_⟩
          rw [s.size_moved m] at hlimit
          rw [Move.creations, List.countP_cons]
          rw [Move.creations] at hlimit
          omega
        · exact .inr himbalance
      · rw [hperform] at hrun
        cases hrun
        rcases hsafe.fault_cases hperform with rfl | ⟨rfl, hle⟩ | himbalance
        · exact absurd rfl (hm fault)
        · rw [Move.run_create_of_le hle] at hperform
          cases hperform
          rw [Move.creations_create]
          exact .inl ⟨rfl, by omega⟩
        · exact .inr himbalance

/-- A run without refusals in which depths cannot differ stops for want of labels only. -/
lemma Leads.eq_tooManyLabels {floor : Nat} {V : Prop} {Q : Session σ → Prop} {ms : List Move}
    {s s' : Session σ} {fault : Fault} (h : Leads (Safe floor) Q (Halts V) ms s) (hV : V)
    (hclean : Clean ms) (hrun : (follow ms).run s = .error fault s') : fault = .tooManyLabels := by
  rcases h.fault_of_clean hclean hrun with ⟨hfault, -⟩ | ⟨expected, actual, -, rfl⟩
  · exact hfault
  · cases (h.of_error hrun).2 hV

namespace Session

variable {s s' : Session σ} {config : Config} {step : Step} {fault : Fault}

/-- Without constructors that return values, a step fails where lowering its tree fails. -/
lemma lower_of_step_error (hs : s.reachable = true) (hvoid : step.expr.VoidConstructors)
    (h : s.step config step = (some fault, s')) :
    (step.expr.lower config).run s = .error fault s' := by
  have haction : (step.action config).run s = .error fault s' := by
    rw [Session.step] at h
    cases hrun : (step.action config).run s with
    | ok u s₁ =>
        rw [hrun] at h
        cases h
    | error fault' s₁ =>
        rw [hrun] at h
        cases h
        rfl
  cases step with
  | lower e => exact haction
  | compile e =>
      rw [Step.action, Expr.compile_eq] at haction
      rw [Step.expr] at hvoid ⊢
      cases hrun : (e.lower config).run s with
      | error fault' s₁ =>
          rw [hrun] at haction
          exact haction
      | ok u s₁ =>
          have hdepth := (e.advance_of_lower_eq_ok config hs hrun).1.depth
          rw [Expr.surplus_eq_zero e hvoid, Nat.add_zero] at hdepth
          rw [hrun] at haction
          simp [hdepth] at haction

/-- A step that fails comes to a node with a fault, and leaves the labels open that are open on the
path to it. -/
lemma exists_failsAt (hs : s.Reached) (hvoid : step.expr.VoidConstructors)
    (hstep : s.step config step = (some fault, s')) (hlimit : fault ≠ .tooManyLabels) :
    ∃ path, step.expr.FailsAt false path fault ∧ step.expr.visited? config path s = some s' ∧
      (∀ label ∈ step.expr.openLabels s.labels.size path, label.id < s'.labels.size) ∧
      ∀ label : Label, label.id < s'.labels.size → (s'.labels.HasPosition label ↔
        s.labels.HasPosition label ∨
          s.labels.size ≤ label.id ∧ label ∉ step.expr.openLabels s.labels.size path) := by
  have hrun := lower_of_step_error hs.live hvoid hstep
  have hleads := step.expr.moves_lead σ config 0 s hs.live (Nat.zero_le _)
  rw [Expr.lower_eq_follow] at hrun
  rcases step.expr.faultless_or_failsAt false with hnone | ⟨path, fault', hfails⟩
  · -- moves without a refusal can only fail for want of labels
    exact absurd (hleads.eq_tooManyLabels hvoid (hnone.clean config _) hrun) hlimit
  · obtain ⟨lead, rest, count, hmoves, hclean, hperm, hvisited⟩ :=
      hfails.exists_lead (σ := σ) config s.labels.size
    have hmoves : step.expr.moves config s.labels.size = lead ++ .refuse fault' :: rest := hmoves
    rw [hmoves, Leads.append_iff] at hleads
    rw [hmoves, follow_append, EStateM.run_bind] at hrun
    cases hlead : (follow lead).run s with
    | error fault'' s₁ =>
        rw [hlead] at hrun
        cases hrun
        exact absurd (hleads.eq_tooManyLabels hvoid hclean hlead) hlimit
    | ok u s₁ =>
        -- the run has come to the refusal, so that its fault is the one of the path
        have hrefuse : (follow (.refuse fault' :: rest)).run s₁ = .error fault' s₁ := rfl
        rw [hlead] at hrun
        cases hrefuse.symm.trans hrun
        obtain ⟨hvisited, hsize⟩ := hvisited s s' rfl hlead
        rw [hsize]
        refine ⟨path, hfails, hvisited, fun label hopen => ?_, fun label hlabel => ?_⟩
        · have hid : label.id ∈ (step.expr.openLabels s.labels.size path).map Label.id :=
            List.mem_map_of_mem hopen
          exact (List.mem_range'_1.mp (hperm.mem_iff.mp (List.mem_append_right _ hid))).2
        · rw [(hleads.course hlead).hasPosition_iff, Move.place_mem_iff hperm hlabel]

/-- **The end of a session after a step that has failed.**  Take a tree in which constructors return
nothing, and any session that has been reached in which every label has been placed.  Let a step
with the tree fail, but not for want of labels.  Then there is a path to the node that it fails at,
and lowering has stopped where it comes to that node.  If the path goes neither into the right side
of a disjunction nor into an arm of a conditional, the session can end.  Otherwise it cannot: it
reports the label that the outermost of these constructs has left open, and so it does after any
other steps, whether or not they succeed. -/
theorem finish_after_fault (config : Config) (step : Step) (hs : s.Reached) (hsettled : s.Settled)
    (hvoid : step.expr.VoidConstructors) (hstep : s.step config step = (some fault, s'))
    (hlimit : fault ≠ .tooManyLabels) :
    ∃ path, step.expr.FailsAt false path fault ∧ step.expr.visited? config path s = some s' ∧
      (¬ step.expr.EntersArm path → s'.finish = .ok (s'.sink, s'.maxDepth)) ∧
      (step.expr.EntersArm path → ∃ label,
        (step.expr.openLabels s.labels.size path).head? = some label ∧
        s'.finish = .error (.labelUnplaced label) ∧
        ∀ later, (s'.after later).finish = .error (.labelUnplaced label)) := by
  obtain ⟨path, hfails, hvisited, hcreated, hposition⟩ := exists_failsAt hs hvoid hstep hlimit
  have hs' : s'.Reached := by
    have hreached := hs.step config step
    rwa [hstep] at hreached
  -- labels that are not open on the path have positions, from before or from this step
  have hplaced {label : Label} (hlabel : label.id < s'.labels.size)
      (hopen : label ∉ step.expr.openLabels s.labels.size path) : s'.labels.HasPosition label := by
    refine (hposition label hlabel).mpr ?_
    rcases Nat.lt_or_ge label.id s.labels.size with hlt | hge
    · exact .inl (hsettled.placed label hlt)
    · exact .inr ⟨hge, hopen⟩
  refine ⟨path, hfails, hvisited, fun harm => ?_, fun harm => ?_⟩
  · have hnil : step.expr.openLabels s.labels.size path = [] :=
      Expr.openLabels_eq_nil_iff.mpr harm
    refine Settled.finish ⟨hs'.live, fun label hlabel => hplaced hlabel ?_⟩
    rw [hnil]
    exact List.not_mem_nil
  · have hsorted := step.expr.pairwise_openLabels s.labels.size path
    cases hopen : step.expr.openLabels s.labels.size path with
    | nil => exact absurd harm (Expr.openLabels_eq_nil_iff.mp hopen)
    | cons label inner =>
        rw [hopen] at hsorted
        have hmem : label ∈ step.expr.openLabels s.labels.size path :=
          hopen ▸ List.mem_cons_self
        have hlabel := hcreated label hmem
        -- constructs inside others have later labels, so the outermost one has the first
        have hawaits : s'.Awaits label := by
          refine ⟨hlabel, fun hfound => ?_, fun other hlt => ?_⟩
          · rcases (hposition label hlabel).mp hfound with ⟨depth, hold⟩ | ⟨-, hnot⟩
            · exact Nat.not_lt.mpr (Expr.le_of_mem_openLabels hmem) (lt_size_of_state? hold)
            · exact hnot hmem
          · refine hplaced (Nat.lt_trans hlt hlabel) fun hother => ?_
            rw [hopen] at hother
            rcases List.mem_cons.mp hother with rfl | hinner
            · exact Nat.lt_irrefl _ hlt
            · exact Nat.lt_asymm hlt ((List.pairwise_cons.mp hsorted).1 other hinner)
        exact ⟨label, rfl, hawaits.finish, fun later => (hawaits.after hs' later).finish⟩

/-- After a step that has succeeded, a negation in the right side of a disjunction, which is in the
second arm of a conditional, negates something without a value.  The label behind the second arm is
reported, and it still is after a step that succeeds and one that fails. -/
theorem finish_after_fault_of_conditional :
    let test : Expr := .load ⟨1, .ofPrimitive .boolean⟩
    let s := ((Session.start ({} : Trace)).step {} (.compile (.not test))).2
    let e : Expr := .conditional (.not test) .receiver (.or test (.not (.pop .receiver)))
    let s' := (s.step {} (.lower e)).2
    let later : List (Config × Step) := [({}, .compile (.not test)), ({}, .lower e)]
    s.Reached ∧ s.Settled ∧ e.VoidConstructors ∧
      (s.step {} (.lower e)).1 = some (.voidValue .void) ∧
      ∃ path, e.FailsAt false path (.voidValue .void) ∧ e.EntersArm path ∧
        (e.openLabels s.labels.size path).head? = some ⟨5⟩ ∧
        s'.finish = .error (.labelUnplaced ⟨5⟩) ∧
        (s'.after later).finish = .error (.labelUnplaced ⟨5⟩) := by
  intro test s e s' later
  have hreached : s.Reached := .step {} _ (.start _)
  have hsettled : s.Settled := by
    have hok : ((Session.start ({} : Trace)).step {} (.compile (.not test))).1 = none := by
      simp only [test]
      decide +kernel
    exact ((Settled.start ({} : Trace)).step (Prod.ext hok rfl)).2
  have hvoid : e.VoidConstructors := by
    have htest : test.VoidConstructors :=
      Expr.voidConstructors_of_children trivial (List.forall_mem_nil _)
    have hreceiver : Expr.receiver.VoidConstructors :=
      Expr.voidConstructors_of_children trivial (List.forall_mem_nil _)
    have hpop : (Expr.pop .receiver).VoidConstructors :=
      Expr.voidConstructors_of_children trivial (by simp [Expr.children, hreceiver])
    have hnot {operand : Expr} (h : operand.VoidConstructors) :
        (Expr.not operand).VoidConstructors :=
      Expr.voidConstructors_of_children trivial (by simp [Expr.children, h])
    have hor : (Expr.or test (.not (.pop .receiver))).VoidConstructors :=
      Expr.voidConstructors_of_children trivial (by simp [Expr.children, htest, hnot hpop])
    exact Expr.voidConstructors_of_children trivial
      (by simp [e, Expr.children, hnot htest, hreceiver, hor])
  have hfault : (s.step {} (.lower e)).1 = some (.voidValue .void) := by
    simp only [s, e, test]
    decide +kernel
  have hfinish : Selection.fault? s'.finish = some (.labelUnplaced ⟨5⟩) := by
    simp only [s', s, e, test]
    decide +kernel
  have hreport := Selection.eq_error_of_fault? hfinish
  have hend : (s.step {} (.lower e)).2 = s' := rfl
  clear_value s s' e test
  have hstep : s.step {} (.lower e) = (some (.voidValue .void), s') := Prod.ext hfault hend
  obtain ⟨path, hfails, -, hends, hopen⟩ :=
    finish_after_fault {} (.lower e) hreached hsettled hvoid hstep (by simp)
  have harm : e.EntersArm path := by
    by_contra hnot
    rw [hends hnot] at hreport
    cases hreport
  obtain ⟨label, hlabel, hreport', hlater⟩ := hopen harm
  cases hreport'.symm.trans hreport
  exact ⟨hreached, hsettled, hvoid, hfault, path, hfails, harm, hlabel, hreport, hlater later⟩

end Session

end StackLowering
