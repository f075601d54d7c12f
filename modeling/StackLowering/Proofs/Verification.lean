import Mathlib.Data.List.Nodup
import StackLowering.Proofs.Depth
import StackLowering.Proofs.Typing

/-!
The code of typed trees passes a verifier that knows categories only.

* `Retypes`: events lead from one stack of categories to another, with one stack for
  each label that they place.
* `Expr.retyped`: the code of an accepted and typed tree puts its category on the stack.
* `Instruction.depthAfter_of_retype`: the numbers of categories are the depths of the stack.
* `Expr.compile_verified`: hence each position of compiled code has a stack that every
  instruction respects, unless a constructor returns a value.
-/

namespace StackLowering

open Event (extent)
open Move (Clean)

/-! ### Stacks along events -/

/-- The events are passed from one stack of categories to another, with one stack for
each label that is placed. -/
def Retypes (items : List Event) (before after : List Category) : Prop :=
  ∃ states : List (Label × List Category), states.map Prod.fst = items.filterMap Event.placed? ∧
    Flows Instruction.retype (fun label stack => (label, stack) ∈ states) (some before) items
      (some after)

namespace Retypes

variable {items items' : List Event} {before middle after : List Category}

lemma nil : Retypes [] before before :=
  ⟨[], rfl, .nil⟩

lemma append (h : Retypes items before middle) (h' : Retypes items' middle after) :
    Retypes (items ++ items') before after := by
  obtain ⟨states, hlabels, hflow⟩ := h
  obtain ⟨states', hlabels', hflow'⟩ := h'
  refine ⟨states ++ states', ?_, ?_⟩
  · rw [List.map_append, List.filterMap_append, hlabels, hlabels']
  · have hleft := hflow.mono fun label stack => List.mem_append_left states'
    have hright := hflow'.mono fun label stack => List.mem_append_right states
    exact hleft.append hright

/-- An instruction that does not jump, and what follows it. -/
lemma cons {i : Instruction} (htarget : i.target? = none) (hstep : i.retype before = some middle)
    (h : Retypes items middle after) : Retypes (.emitted i :: items) before after := by
  obtain ⟨states, hlabels, hflow⟩ := h
  have hfalls : i.fallsThrough = true := by
    cases i with
    | goto target => cases htarget
    | _ => rfl
  refine ⟨states, hlabels, .emitted hstep ?_ ?_⟩
  · rw [htarget]
    exact nofun
  · rw [hfalls]
    exact hflow

/-- **From stacks along events to stacks at positions.** -/
lemma verified {c : Code} {pos : Nat} (h : Retypes items before after) (hholds : c.Holds pos items)
    (hnodup : (items.filterMap Event.placed?).Nodup)
    (htargets : ∀ i label, .emitted i ∈ items → i.target? = some label → .placed label ∈ items) :
    ∃ A, c.Verified Instruction.retype pos (pos + extent items) A ∧ A pos = before ∧
      A (pos + extent items) = after := by
  obtain ⟨states, hlabels, trail, hflow⟩ := h
  obtain ⟨A, hA⟩ := exists_assigns pos trail after
  rw [← hlabels] at hnodup
  -- no label is placed twice, so each has one stack
  have hunique : ∀ label stack stack', (label, stack) ∈ states → (label, stack') ∈ states →
      stack = stack' := by
    intro label stack stack' hmem hmem'
    have heq := List.inj_on_of_nodup_map hnodup hmem hmem' rfl
    exact congrArg Prod.snd heq
  exact ⟨A, hflow.verified hholds hA hunique htargets, hflow.start_eq rfl hA rfl, hflow.end_eq hA⟩

/-! ### Branches -/

/-- The end of a construct leaves an integer on the path reached and on the one that
comes through the label. -/
lemma flows_joinTruth {W : Label → List Category → Prop} {onFalse done : Nat}
    {stack : List Category} (hfalse : W ⟨onFalse⟩ stack) (hdone : W ⟨done⟩ (.int :: stack)) :
    Flows Instruction.retype W (some stack) (Move.events (Move.joinTruth onFalse done))
      (some (.int :: stack)) := by
  refine .emitted (Instruction.retype_of_push rfl stack) nofun ?_
  refine .emitted (Instruction.retype_goto _ _) ?_ ?_
  · rintro label ⟨⟩
    exact hdone
  · refine .placed nofun hfalse ?_
    refine .emitted (Instruction.retype_of_push rfl stack) nofun ?_
    exact .placed (fun _ h => (Option.some.inj h).symm) hdone .nil

lemma truth (first : Nat) (condition : Condition) (stack : List Category) :
    Retypes (Move.events (Move.truth first condition)) (condition.categories ++ stack)
      (.int :: stack) := by
  refine ⟨[(⟨first⟩, stack), (⟨first + 1⟩, .int :: stack)], rfl, ?_⟩
  refine .emitted (Instruction.retype_of_signature? rfl stack) ?_ (flows_joinTruth ?_ ?_)
  · rintro label ⟨⟩
    exact List.mem_cons_self
  · exact List.mem_cons_self
  · exact List.mem_cons_of_mem _ List.mem_cons_self

/-- A disjunction after its left side.  The right side comes only where the branch is
not taken. -/
lemma disjunction {onTrue onFalse : Nat} {stack : List Category}
    (h : Retypes items stack (.int :: stack)) :
    Retypes (.emitted (.branch (.zero .ne) ⟨onTrue⟩) :: (items ++
      (.emitted (.branch (.zero .eq) ⟨onFalse⟩) :: .placed ⟨onTrue⟩ ::
        Move.events (Move.joinTruth onFalse (onFalse + 1))))) (.int :: stack) (.int :: stack) := by
  obtain ⟨states, hlabels, hflow⟩ := h
  refine ⟨states ++ [(⟨onTrue⟩, stack), (⟨onFalse⟩, stack), (⟨onFalse + 1⟩, .int :: stack)],
    ?_, ?_⟩
  · rw [List.map_append, List.filterMap_cons_none rfl, List.filterMap_append, hlabels]
    rfl
  refine .emitted (Instruction.retype_test _ _ _) ?_ ?_
  · rintro label ⟨⟩
    simp
  refine .append (hflow.mono fun label stack => List.mem_append_left _) ?_
  refine .emitted (Instruction.retype_test _ _ _) ?_ ?_
  · rintro label ⟨⟩
    simp
  refine .placed (fun _ h => (Option.some.inj h).symm) (by simp) ?_
  exact flows_joinTruth (by simp) (by simp)

/-- The two arms of a conditional after its test. -/
lemma conditional {otherwise done : Nat} {stack : List Category}
    (h : Retypes items stack after) (h' : Retypes items' stack after) :
    Retypes (.emitted (.branch (.zero .eq) ⟨otherwise⟩) :: (items ++
      (.emitted (.goto ⟨done⟩) :: .placed ⟨otherwise⟩ :: (items' ++ [.placed ⟨done⟩]))))
      (.int :: stack) after := by
  obtain ⟨states, hlabels, hflow⟩ := h
  obtain ⟨states', hlabels', hflow'⟩ := h'
  -- the arms join with the stack that both of them end with
  refine ⟨states ++ (⟨otherwise⟩, stack) :: (states' ++ [(⟨done⟩, after)]), ?_, ?_⟩
  · simp [hlabels, hlabels', List.filterMap_cons, Event.placed?]
  refine .emitted (Instruction.retype_test _ _ _) ?_ ?_
  · rintro label ⟨⟩
    simp
  refine .append (hflow.mono fun label stack => List.mem_append_left _) ?_
  refine .emitted (Instruction.retype_goto _ _) ?_ ?_
  · rintro label ⟨⟩
    simp
  refine .placed (a := stack) nofun (by simp) ?_
  refine .append (hflow'.mono fun label stack hmem => ?_) ?_
  · simp [hmem]
  · exact .placed (fun _ h => (Option.some.inj h).symm) (by simp) .nil

/-! ### Comparisons -/

/-- A comparison by an instruction of its own, and the branch on its outcome. -/
lemma reduced (first : Nat) (comparator : Comparator) (relation : Relation)
    (stack : List Category) :
    Retypes (Move.events (Move.decideBy first ⟨some comparator, .zero relation⟩))
      (comparator.category :: comparator.category :: stack) (.int :: stack) := by
  have hcompare := Instruction.retype_of_signature? (i := .compare comparator) rfl stack
  exact .cons rfl hcompare (.truth first (.zero relation) stack)

lemma equality {type : Ty} {comparison : Selection.Comparison}
    (h : Selection.equality type = .ok comparison) :
    ∃ category, type.category = some category ∧ ∀ first stack,
      Retypes (Move.events (Move.decideBy first comparison)) (category :: category :: stack)
        (.int :: stack) := by
  obtain ⟨hc, rfl⟩ | ⟨hc, rfl⟩ | ⟨hc, rfl⟩ | ⟨hc, rfl⟩ | ⟨hc, rfl⟩ :=
    Selection.equality_eq_ok.mp h
  · exact ⟨_, hc, fun first stack => .truth first (.ints .ne) stack⟩
  · exact ⟨_, hc, fun first stack => .truth first .distinct stack⟩
  · exact ⟨_, hc, fun first stack => .reduced first .long .ne stack⟩
  · exact ⟨_, hc, fun first stack => .reduced first .float .ne stack⟩
  · exact ⟨_, hc, fun first stack => .reduced first .double .ne stack⟩

lemma ordering {type : Ty} {comparison : Selection.Comparison}
    (h : Selection.ordering type = .ok comparison) :
    ∃ category, type.category = some category ∧ ∀ first stack,
      Retypes (Move.events (Move.decideBy first comparison)) (category :: category :: stack)
        (.int :: stack) := by
  obtain ⟨hc, rfl⟩ | ⟨hc, rfl⟩ | ⟨hc, rfl⟩ | ⟨hc, rfl⟩ := Selection.ordering_eq_ok.mp h
  · exact ⟨_, hc, fun first stack => .truth first (.ints .le) stack⟩
  · exact ⟨_, hc, fun first stack => .reduced first .long .le stack⟩
  · exact ⟨_, hc, fun first stack => .reduced first .float .le stack⟩
  · exact ⟨_, hc, fun first stack => .reduced first .double .le stack⟩

end Retypes

/-! ### Trees -/

namespace Expr

variable {config : Config}

/-- The code of the tree, wherever its labels are numbered from, puts the category of
the tree on the stack. -/
def Retyped (config : Config) (e : Expr) : Prop :=
  ∀ first category stack, Clean (e.moves config first) → e.VoidConstructors → e.PlainNames →
    e.Typed category → Retypes (Move.events (e.moves config first)) stack (category.toList ++ stack)

variable {first : Nat} {category : Category}

lemma Retyped.operand {e : Expr} (he : e.Retyped config)
    (hclean : Clean (Move.consumed e (e.moves config first))) (hvoid : e.VoidConstructors)
    (hnames : e.PlainNames) (htyped : e.Typed (some category)) (stack : List Category) :
    Retypes (Move.events (Move.consumed e (e.moves config first))) stack (category :: stack) := by
  obtain ⟨hvalue, hclean⟩ := Move.clean_consumed.mp hclean
  rw [Move.consumed_of_hasValue hvalue]
  exact he first (some category) stack hclean hvoid hnames htyped

/-- Two operands of one category, and what follows them. -/
lemma Retyped.operands {lhs rhs : Expr} {ns : List Move} {stack after : List Category}
    (hl : lhs.Retyped config) (hr : rhs.Retyped config)
    (hclean : Clean (Move.consumed lhs (lhs.moves config first) ++
      (Move.consumed rhs (rhs.moves config (first + lhs.labelCount)) ++ ns)))
    (hvoid : ∀ e ∈ [lhs, rhs], e.VoidConstructors) (hnames : ∀ e ∈ [lhs, rhs], e.PlainNames)
    (htyped : ∀ e ∈ [lhs, rhs], e.Typed (some category))
    (hns : Retypes (Move.events ns) (category :: category :: stack) after) :
    Retypes (Move.events (Move.consumed lhs (lhs.moves config first) ++
      (Move.consumed rhs (rhs.moves config (first + lhs.labelCount)) ++ ns))) stack after := by
  simp only [List.forall_mem_cons, List.not_mem_nil, false_imp_iff, implies_true, and_true]
    at hvoid hnames htyped
  obtain ⟨hcl, hclean⟩ := Move.clean_append.mp hclean
  obtain ⟨hcr, -⟩ := Move.clean_append.mp hclean
  rw [Move.events_append, Move.events_append]
  have hlhs := hl.operand hcl hvoid.1 hnames.1 htyped.1 stack
  have hrhs := hr.operand hcr hvoid.2 hnames.2 htyped.2 (category :: stack)
  exact hlhs.append (hrhs.append hns)

/-- Arguments put their categories on the stack, the last one on top. -/
lemma retypes_arguments {arguments : List Expr} {categories : List (Option Category)}
    (ih : ∀ e ∈ arguments, e.Retyped config)
    (hclean : Clean (argumentMoves config first arguments))
    (hvoid : ∀ e ∈ arguments, e.VoidConstructors) (hnames : ∀ e ∈ arguments, e.PlainNames)
    (htyped : List.Forall₂ Typed arguments categories) (stack : List Category) :
    ∃ values : List Category, categories = values.map some ∧
      Retypes (Move.events (argumentMoves config first arguments)) stack
        (values.reverse ++ stack) := by
  induction htyped generalizing first stack with
  | nil => exact ⟨[], rfl, .nil⟩
  | @cons e category es categories he _ ihes =>
      rw [argumentMoves] at hclean ⊢
      obtain ⟨hc, hcs⟩ := Move.clean_append.mp hclean
      obtain ⟨hvalue, hmoves⟩ := Move.clean_consumed.mp hc
      obtain ⟨c, rfl⟩ := Option.isSome_iff_exists.mp ((he.isSome_eq_hasValue hmoves).trans hvalue)
      have hhead := (ih e List.mem_cons_self).operand hc (hvoid e List.mem_cons_self)
        (hnames e List.mem_cons_self) he stack
      obtain ⟨values, rfl, htail⟩ := ihes
        (fun e' he' => ih e' (List.mem_cons_of_mem _ he')) hcs
        (fun e' he' => hvoid e' (List.mem_cons_of_mem _ he'))
        (fun e' he' => hnames e' (List.mem_cons_of_mem _ he')) (c :: stack)
      refine ⟨c :: values, rfl, ?_⟩
      rw [Move.events_append, List.reverse_cons, List.append_assoc]
      exact hhead.append htail

/-- Elements of one category are stored into an array, which stays on the stack. -/
lemma retypes_elements {kind : ArrayKind} {elements : List Expr} {index : Nat}
    (ih : ∀ e ∈ elements, e.Retyped config)
    (hclean : Clean (elementMoves config (.arrayStore kind) first index elements))
    (hvoid : ∀ e ∈ elements, e.VoidConstructors) (hnames : ∀ e ∈ elements, e.PlainNames)
    (htyped : ∀ e ∈ elements, e.Typed (some kind.category)) (stack : List Category) :
    Retypes (Move.events (elementMoves config (.arrayStore kind) first index elements))
      (.reference :: stack) (.reference :: stack) := by
  induction elements generalizing first index with
  | nil => exact .nil
  | cons e es ihes =>
      simp only [elementMoves, Move.clean_cons, Move.clean_append, Move.events_emit,
        Move.events_append] at hclean ⊢
      obtain ⟨-, -, he, -, hes⟩ := hclean
      have hhead := (ih e List.mem_cons_self).operand he (hvoid e List.mem_cons_self)
        (hnames e List.mem_cons_self) (htyped e List.mem_cons_self)
        (.int :: .reference :: .reference :: stack)
      have htail := ihes (fun e' he' => ih e' (List.mem_cons_of_mem _ he')) hes
        (fun e' he' => hvoid e' (List.mem_cons_of_mem _ he'))
        (fun e' he' => hnames e' (List.mem_cons_of_mem _ he'))
        fun e' he' => htyped e' (List.mem_cons_of_mem _ he')
      have hstore := Instruction.retype_of_signature? (i := .arrayStore kind) rfl
        (.reference :: stack)
      have hindex := Instruction.retype_of_push
        (Instruction.signature?_pushInt config.options.compactConstants (.ofNat index))
        (.reference :: .reference :: stack)
      have hlast := hhead.append (.cons rfl hstore htail)
      exact .cons rfl rfl (.cons (Instruction.target?_pushInt _ _) hindex hlast)

/-- **The code of typed trees.**  With the names of the class file format, the code of an
accepted and typed tree puts its category on the stack. -/
theorem retyped (hnaming : config.naming = .jvm) (e : Expr) : e.Retyped config := by
  induction e using Expr.induct with
  | literal value =>
      intro first category stack _ _ _ htyped
      cases htyped
      have hpush := Instruction.retype_of_push (value.signature?_push config) stack
      exact .cons (value.target?_push config) hpush .nil
  | load source =>
      intro first category stack hclean _ _ htyped
      obtain ⟨i, hi, -⟩ := Move.clean_guarded.mp hclean
      simp only [moves, hi, Move.guarded]
      obtain ⟨c, hc, rfl⟩ := Selection.load_eq_ok.mp hi
      cases htyped
      rw [hc]
      exact .cons rfl (Instruction.retype_of_push rfl stack) .nil
  | receiver =>
      intro first category stack _ _ _ htyped
      cases htyped
      exact .cons rfl (Instruction.retype_of_push rfl stack) .nil
  | getField target field ih =>
      intro first category stack hclean hvoid hnames htyped
      obtain ⟨access, haccess, h⟩ := Move.clean_guarded.mp hclean
      simp only [moves, haccess, Move.guarded, Move.events_append]
      rw [hnaming] at haccess
      obtain ⟨c, hc, hfield⟩ :=
        Selection.field?_of_fieldAccess haccess (hnames.here _ List.mem_cons_self)
      obtain ⟨ht, -⟩ := Move.clean_append.mp h
      cases htyped with
      | getField _ htarget =>
          have hoperand := ih.operand ht (hvoid.child List.mem_cons_self)
            (hnames.child List.mem_cons_self) htarget stack
          have hsignature :
              (Instruction.getField access).signature? = some ([.reference], [c]) := by
            rw [Instruction.signature?, hfield]
            rfl
          rw [hc]
          have hread := Instruction.retype_of_signature? hsignature stack
          exact hoperand.append (.cons rfl hread .nil)
  | getStatic field =>
      intro first category stack hclean hvoid hnames htyped
      obtain ⟨access, haccess, -⟩ := Move.clean_guarded.mp hclean
      simp only [moves, haccess, Move.guarded]
      rw [hnaming] at haccess
      obtain ⟨c, hc, hfield⟩ :=
        Selection.field?_of_fieldAccess haccess (hnames.here _ List.mem_cons_self)
      have hsignature : (Instruction.getStatic access).signature? = some ([], [c]) := by
        rw [Instruction.signature?, hfield]
        rfl
      cases htyped
      rw [hc]
      exact .cons rfl (Instruction.retype_of_push hsignature stack) .nil
  | newInstance constructor arguments ih =>
      intro first category stack hclean hvoid hnames htyped
      obtain ⟨call, hcall, h⟩ := Move.clean_guarded.mp hclean
      simp only [moves, hcall, Move.guarded, Move.events_emit, Move.events_append]
      simp only [Move.clean_cons, Move.clean_append] at h
      rw [hnaming] at hcall
      obtain ⟨hdispatch, hcall⟩ := Selection.construction_eq_ok.mp hcall
      -- the call takes the second reference, and since it returns nothing, the first one is on top
      have hreturns := Ty.category_eq_none_iff.mpr hvoid.isVoid
      cases htyped with
      | newInstance hargs =>
          obtain ⟨values, hvalues, harguments⟩ := retypes_arguments ih h.2.2.1
            (fun e he => hvoid.child he) (fun e he => hnames.child he) hargs
            (.reference :: .reference :: stack)
          have hsignature := Instruction.signature?_invoke hcall hnames.here hvalues
          have hinvoke := Instruction.retype_of_signature? hsignature (.reference :: stack)
          rw [hdispatch, hreturns, List.append_assoc] at hinvoke
          have hlast := harguments.append (.cons rfl hinvoke .nil)
          exact .cons rfl (Instruction.retype_of_push rfl stack) (.cons rfl rfl hlast)
  | invoke target method arguments ih ihs =>
      intro first category stack hclean hvoid hnames htyped
      obtain ⟨call, hcall, h⟩ := Move.clean_guarded.mp hclean
      simp only [moves, hcall, Move.guarded, Move.events_emit, Move.events_append]
      simp only [Move.clean_append] at h
      rw [hnaming] at hcall
      obtain ⟨hreceiver, hcall⟩ := Selection.call_eq_ok.mp hcall
      cases htyped with
      | invoke htarget hargs =>
          have hoperand := ih.operand h.1 (hvoid.child List.mem_cons_self)
            (hnames.child List.mem_cons_self) htarget stack
          obtain ⟨values, hvalues, harguments⟩ := retypes_arguments ihs h.2.1
            (fun e he => hvoid.child (List.mem_cons_of_mem _ he))
            (fun e he => hnames.child (List.mem_cons_of_mem _ he)) hargs (.reference :: stack)
          have hsignature := Instruction.signature?_invoke hcall hnames.here hvalues
          have hinvoke := Instruction.retype_of_signature? hsignature stack
          rw [hreceiver, List.append_assoc] at hinvoke
          exact hoperand.append (harguments.append (.cons rfl hinvoke .nil))
  | invokeStatic method arguments ih =>
      intro first category stack hclean hvoid hnames htyped
      obtain ⟨call, hcall, h⟩ := Move.clean_guarded.mp hclean
      simp only [moves, hcall, Move.guarded, Move.events_emit, Move.events_append]
      simp only [Move.clean_append] at h
      rw [hnaming] at hcall
      obtain ⟨hreceiver, hcall⟩ := Selection.call_eq_ok.mp hcall
      cases htyped with
      | invokeStatic hargs =>
          obtain ⟨values, hvalues, harguments⟩ := retypes_arguments ih h.1
            (fun e he => hvoid.child he) (fun e he => hnames.child he) hargs stack
          have hsignature := Instruction.signature?_invoke hcall hnames.here hvalues
          have hinvoke := Instruction.retype_of_signature? hsignature stack
          rw [hreceiver, List.append_assoc] at hinvoke
          exact harguments.append (.cons rfl hinvoke .nil)
  | not operand ih =>
      intro first category stack hclean hvoid hnames htyped
      simp only [moves, Move.events_append] at hclean ⊢
      obtain ⟨ho, -⟩ := Move.clean_append.mp hclean
      cases htyped with
      | not h =>
          have hoperand := ih.operand ho (hvoid.child List.mem_cons_self)
            (hnames.child List.mem_cons_self) h stack
          exact hoperand.append (.truth _ (.zero .ne) stack)
  | or lhs rhs ihl ihr =>
      intro first category stack hclean hvoid hnames htyped
      simp only [moves, Move.events_append, Move.events_create, Move.events_branch,
        Move.events_place] at hclean ⊢
      simp only [Move.clean_append, Move.clean_cons] at hclean
      cases htyped with
      | or hl hr =>
          -- the branch takes the left value, so the right side starts from the same stack
          have hlhs := ihl.operand hclean.1 (hvoid.child (by simp [children]))
            (hnames.child (by simp [children])) hl stack
          have hrhs := ihr.operand hclean.2.2.2.1 (hvoid.child (by simp [children]))
            (hnames.child (by simp [children])) hr stack
          exact hlhs.append hrhs.disjunction
  | conditional test onTrue onFalse iht ihl ihr =>
      intro first category stack hclean hvoid hnames htyped
      obtain ⟨_, harms, h⟩ := Move.clean_guarded.mp hclean
      simp only [moves, harms, Move.guarded, Move.events_append, Move.events_create,
        Move.events_branch, Move.events_goto, Move.events_place, Move.events_nil]
      simp only [Move.clean_append, Move.clean_cons] at h
      cases htyped with
      | conditional ht hl hr =>
          have htest := iht.operand h.1 (hvoid.child (by simp [children]))
            (hnames.child (by simp [children])) ht stack
          have hleft := ihl _ category stack h.2.2.2.1 (hvoid.child (by simp [children]))
            (hnames.child (by simp [children])) hl
          have hright := ihr _ category stack h.2.2.2.2.2.2.2.1 (hvoid.child (by simp [children]))
            (hnames.child (by simp [children])) hr
          exact htest.append (hleft.conditional hright)
  | eq lhs rhs type ihl ihr =>
      intro first category stack hclean hvoid hnames htyped
      obtain ⟨comparison, hcomparison, h⟩ := Move.clean_guarded.mp hclean
      simp only [moves, hcomparison, Move.guarded]
      obtain ⟨c, hc, hdecide⟩ := Retypes.equality hcomparison
      cases htyped with
      | eq hl hr =>
          rw [hc] at hl hr
          exact ihl.operands ihr h (fun e he => hvoid.child he) (fun e he => hnames.child he)
            (by simp [hl, hr]) (hdecide _ stack)
  | gt lhs rhs type ihl ihr =>
      intro first category stack hclean hvoid hnames htyped
      obtain ⟨comparison, hcomparison, h⟩ := Move.clean_guarded.mp hclean
      simp only [moves, hcomparison, Move.guarded]
      obtain ⟨c, hc, hdecide⟩ := Retypes.ordering hcomparison
      cases htyped with
      | gt hl hr =>
          rw [hc] at hl hr
          exact ihl.operands ihr h (fun e he => hvoid.child he) (fun e he => hnames.child he)
            (by simp [hl, hr]) (hdecide _ stack)
  | arithmetic op lhs rhs type ihl ihr =>
      intro first category stack hclean hvoid hnames htyped
      obtain ⟨i, hi, h⟩ := Move.clean_guarded.mp hclean
      simp only [moves, hi, Move.guarded]
      obtain ⟨kind, hkind, rfl⟩ := Selection.arithmetic_eq_ok.mp hi
      have hcompute := Instruction.retype_of_signature? (i := .arithmetic op kind) rfl stack
      cases htyped with
      | arithmetic _ hl hr =>
          rw [hkind] at hl hr ⊢
          exact ihl.operands ihr h (fun e he => hvoid.child he) (fun e he => hnames.child he)
            (by simp [hl, hr]) (.cons rfl hcompute .nil)
  | widen operand source target ih =>
      intro first category stack hclean hvoid hnames htyped
      obtain ⟨conversion, hconversion, h⟩ := Move.clean_guarded.mp hclean
      simp only [moves, hconversion, Move.guarded, Move.events_append]
      obtain ⟨ho, -⟩ := Move.clean_append.mp h
      obtain ⟨n, m, hn, hm, hcases⟩ := Selection.widening_eq_ok.mp hconversion
      cases htyped with
      | widen _ htyped =>
          rw [hn] at htyped
          rw [hm]
          have hoperand := ih.operand ho (hvoid.child List.mem_cons_self)
            (hnames.child List.mem_cons_self) htyped stack
          obtain ⟨rfl, rfl⟩ | ⟨-, rfl⟩ := hcases
          · exact hoperand.append .nil
          · have hconvert := Instruction.retype_of_signature? (i := .convert n m) rfl stack
            exact hoperand.append (.cons rfl hconvert .nil)
  | cast target operand ih =>
      intro first category stack hclean hvoid hnames htyped
      obtain ⟨i, hi, h⟩ := Move.clean_guarded.mp hclean
      simp only [moves, hi, Move.guarded, Move.events_append]
      obtain ⟨-, rfl⟩ := Selection.cast_eq_ok.mp hi
      obtain ⟨ho, -⟩ := Move.clean_append.mp h
      cases htyped with
      | cast _ htyped =>
          have hoperand := ih.operand ho (hvoid.child List.mem_cons_self)
            (hnames.child List.mem_cons_self) htyped stack
          have hcheck := Instruction.retype_of_signature?
            (i := .checkCast (config.naming.internalName target)) rfl stack
          exact hoperand.append (.cons rfl hcheck .nil)
  | newArray element elements ih =>
      intro first category stack hclean hvoid hnames htyped
      obtain ⟨allocation, hallocation, h⟩ := Move.clean_guarded.mp hclean
      obtain ⟨store, hstore, h⟩ := Move.clean_guarded.mp h
      obtain ⟨length, hlength, h⟩ := Move.clean_guarded.mp h
      simp only [Move.clean_cons] at h
      simp only [moves, hallocation, hstore, hlength, Move.guarded, Move.events_emit]
      obtain ⟨kind, hkind, rfl⟩ := Selection.arrayStore_eq_ok.mp hstore
      obtain ⟨htarget, -⟩ := Selection.effect_of_newArray hallocation
      have hallocate := Instruction.retype_of_signature?
        (Selection.signature?_of_newArray hallocation) stack
      have hlength := Instruction.retype_of_push (Instruction.signature?_pushInt
        config.options.compactConstants (.ofNat length)) stack
      cases htyped with
      | newArray helements =>
          rw [Selection.category_of_arrayKind hkind] at helements
          have hstores := retypes_elements ih h.2.2 (fun e he => hvoid.child he)
            (fun e he => hnames.child he) helements stack
          exact .cons (Instruction.target?_pushInt _ _) hlength (.cons htarget hallocate hstores)
  | pop operand ih =>
      intro first category stack hclean hvoid hnames htyped
      simp only [moves, Move.events_append] at hclean ⊢
      obtain ⟨ho, -⟩ := Move.clean_append.mp hclean
      obtain ⟨hvalue, hmoves⟩ := Move.clean_consumed.mp ho
      cases htyped with
      | pop htyped =>
          obtain ⟨c, rfl⟩ :=
            Option.isSome_iff_exists.mp ((htyped.isSome_eq_hasValue hmoves).trans hvalue)
          have hoperand := ih.operand ho (hvoid.child List.mem_cons_self)
            (hnames.child List.mem_cons_self) htyped stack
          exact hoperand.append (.cons rfl rfl .nil)

end Expr

/-! ### Numbers of values -/

/-- A signature has a category for each value that the instruction takes or gives. -/
lemma Instruction.length_of_signature? {i : Instruction} {takes gives : List Category}
    (h : i.signature? = some (takes, gives)) :
    takes.length = i.effect.pops ∧ gives.length = i.effect.pushes := by
  cases i with
  | getField access =>
      obtain ⟨category, -, heq⟩ := Option.map_eq_some_iff.mp h
      cases heq
      exact ⟨rfl, rfl⟩
  | getStatic access =>
      obtain ⟨category, -, heq⟩ := Option.map_eq_some_iff.mp h
      cases heq
      exact ⟨rfl, rfl⟩
  | invoke call =>
      -- the descriptor is compared with the numbers that the call carries along
      rw [signature?] at h
      split at h
      · rename_i parameters returns hdescriptor
        split at h
        · rename_i hcounts
          cases h
          refine ⟨?_, ?_⟩
          · rw [List.length_append, List.length_reverse, hcounts.1, effect]
            cases call.dispatch.hasReceiver <;> rfl
          · rw [effect, ← hcounts.2]
            cases returns <;> rfl
        · cases h
      · cases h
  | branch condition target =>
      cases h
      cases condition <;> exact ⟨rfl, rfl⟩
  | dup => cases h
  | pop => cases h
  | _ =>
      cases h
      exact ⟨rfl, rfl⟩

/-- What an instruction does to the categories on the stack, it does to their number. -/
lemma Instruction.depthAfter_of_retype {i : Instruction} {before after : List Category}
    (h : i.retype before = some after) : i.depthAfter before.length = some after.length := by
  unfold retype at h
  split at h
  · cases h
    rfl
  · cases h
    rfl
  · obtain ⟨signature, hsignature, h⟩ := Option.bind_eq_some_iff.mp h
    obtain ⟨rest, hrest, rfl⟩ := Option.map_eq_some_iff.mp h
    obtain ⟨taken, rfl, htaken⟩ := List.dropPrefix?_eq_some_iff.mp hrest
    obtain ⟨hpops, hpushes⟩ := length_of_signature? hsignature
    rw [eq_of_beq htaken, List.length_append, List.length_append, hpops, hpushes, depthAfter,
      if_pos (Nat.le_add_right _ _), Nat.add_sub_cancel_left, Nat.add_comm]

/-! ### Compilation -/

namespace Expr

variable {config : Config} {e : Expr} {category : Option Category} {s s' : Session Code}

/-- **Without values from constructors** the code of an accepted and typed tree has an
assignment of stacks, from every stack of categories. -/
lemma exists_verified (hnaming : config.naming = .jvm) (htyped : e.Typed category)
    (hnames : e.PlainNames) (hvoid : e.VoidConstructors) (hs : s.reachable = true)
    (hrun : (e.lower config).run s = .ok () s') (stack : List Category) :
    ∃ A : Nat → List Category,
      s'.sink.Verified Instruction.retype s.sink.size s'.sink.size A ∧
        A s.sink.size = stack ∧ A s'.sink.size = category.toList ++ stack := by
  have hcourse := e.course_of_lower_eq_ok config hs hrun
  obtain ⟨hholds, hsize⟩ := hcourse.holds
  have huses := e.uses_moves _ hcourse.clean
  have hretypes := e.retyped hnaming _ category stack hcourse.clean hvoid hnames htyped
  rw [hsize]
  exact hretypes.verified hholds huses.nodup_placed fun i label =>
    hcourse.placed_of_target huses

/-- An assignment of stacks that ends with no more than the category of the tree shows that
the tree has no surplus. -/
lemma voidConstructors_of_verified (htyped : e.Typed category) (hs : s.reachable = true)
    (hrun : (e.lower config).run s = .ok () s') {stack : List Category} {A : Nat → List Category}
    (hA : s'.sink.Verified Instruction.retype s.sink.size s'.sink.size A)
    (hfirst : A s.sink.size = stack) (hlast : A s'.sink.size = category.toList ++ stack) :
    e.VoidConstructors := by
  have hcourse := e.course_of_lower_eq_ok config hs hrun
  obtain ⟨hadvance, hvoid⟩ := e.advance_of_lower_eq_ok config hs hrun
  obtain ⟨-, D, -, -, hD, hDfirst, hDlast⟩ := e.verified_depths config hs hrun
  have hle : s.sink.size ≤ s'.sink.size := by
    rw [hcourse.holds.2]
    exact Nat.le_add_right _ _
  -- everywhere the number of categories is the depth of the session, up to what was below
  have hheight : D s'.sink.size + stack.length = (A s'.sink.size).length + s.depth := by
    refine hD.related (R := fun depth now => depth + stack.length = now.length + s.depth) hA
      (fun i depth now depth' now' hdepth hnow hsame => ?_) (Nat.le_refl _) hle ?_
      (e.reaches_of_lower_eq_ok config hs hrun hle (Nat.le_refl _))
    · have hnow := Instruction.depthAfter_of_retype hnow
      unfold Instruction.depthAfter at hdepth hnow
      split at hdepth <;> split at hnow
      all_goals simp only [Option.some.injEq, reduceCtorEq] at hdepth hnow
      omega
    · rw [hDfirst, hfirst, Nat.add_comm]
  have hvalue : category.toList.length = e.stackEffect := by
    rw [stackEffect, ← htyped.isSome_eq_hasValue hcourse.clean]
    cases category <;> rfl
  rw [hDlast, hlast, List.length_append, hvalue, hadvance.depth] at hheight
  exact hvoid (by omega)

end Expr

/-- **Compiled code is typed.**  Take a typed tree, in whose descriptors no name has a
semicolon, and compile it with the names of the class file format in any session that
has been reached.  Let compilation accept it.  Then no constructor in it returns a value,
if the depth is checked.  And whichever stack of categories there is at first, no
constructor returns a value exactly if the new code has an assignment of stacks to its
positions that every instruction respects, along the fall-through and along its jump, and
that ends as it should: with the category of the tree on top, if the tree has one, and
otherwise with the stack as it was. -/
theorem Expr.compile_verified (config : Config) (hnaming : config.naming = .jvm)
    {e : Expr} {category : Option Category} (htyped : e.Typed category) (hnames : e.PlainNames)
    {s s' : Session Code} (hs : s.Reached) (hrun : (e.compile config).run s = .ok () s')
    (stack : List Category) :
    (config.options.checkBalance = true → e.VoidConstructors) ∧
      (e.VoidConstructors ↔ ∃ A : Nat → List Category,
        s'.sink.Verified Instruction.retype s.sink.size s'.sink.size A ∧
          A s.sink.size = stack ∧ A s'.sink.size = category.toList ++ stack) := by
  obtain ⟨hlower, -⟩ := e.lower_of_compile_eq_ok config hrun
  refine ⟨fun hcheck => e.voidConstructors_of_compile_eq_ok config hs.live hcheck hrun,
    fun hvoid => exists_verified hnaming htyped hnames hvoid hs.live hlower stack, ?_⟩
  rintro ⟨A, hverified, hfirst, hlast⟩
  exact voidConstructors_of_verified htyped hs.live hlower hverified hfirst hlast

/-- A call with a conditional and an array as its arguments. -/
theorem Expr.compile_verified_of_call :
    let string : Ty := .classOf "java.lang" "String"
    let method := Method.ofStatic (.classOf "units" "Scale") (.ofPrimitive .double) "apply"
      [.ofPrimitive .long, .arrayOf string]
    let test : Expr := .or (.load ⟨1, .ofPrimitive .int⟩) (.load ⟨2, .ofPrimitive .boolean⟩)
    let amount : Expr := .conditional test
      (.widen (.load ⟨3, .ofPrimitive .int⟩) (.ofPrimitive .int) (.ofPrimitive .long))
      (.literal (.long 7))
    let names : Expr := .newArray string [.literal (.string "m")]
    let e : Expr := .invokeStatic method [amount, names]
    let s := Session.start ({} : Code)
    e.Typed (some .double) ∧ e.PlainNames ∧ s.Reached ∧
      ∃ s', (e.compile {}).run s = .ok () s' ∧ ∃ A : Nat → List Category,
        s'.sink.Verified Instruction.retype 0 s'.sink.size A ∧
          A 0 = [.int] ∧ A s'.sink.size = [.double, .int] := by
  intro string method test amount names e s
  have htest : test.Typed (some .int) :=
    .or (.load ⟨1, .ofPrimitive .int⟩) (.load ⟨2, .ofPrimitive .boolean⟩)
  have hamount : amount.Typed (some .long) :=
    .conditional htest (.widen (.ofPrimitive .long) (.load ⟨3, .ofPrimitive .int⟩))
      (.literal (.long 7))
  have hnewArray : names.Typed (some .reference) :=
    .newArray (List.forall_mem_singleton.mpr (.literal (.string "m")))
  have htyped : e.Typed (some .double) := .invokeStatic (.cons hamount (.cons hnewArray .nil))
  have hload (source : Local) : (load source).PlainNames :=
    plainNames_of_children (List.forall_mem_nil _) (List.forall_mem_nil _)
  have hliteral (value : Literal) : (literal value).PlainNames :=
    plainNames_of_children (List.forall_mem_nil _) (List.forall_mem_nil _)
  have hwiden : (widen (load ⟨3, .ofPrimitive .int⟩) (.ofPrimitive .int)
      (.ofPrimitive .long)).PlainNames :=
    plainNames_of_children (List.forall_mem_nil _) (by simp [children, hload])
  have hor : test.PlainNames :=
    plainNames_of_children (List.forall_mem_nil _) (by simp [test, children, hload])
  have hplain : amount.PlainNames :=
    plainNames_of_children (List.forall_mem_nil _)
      (by simp [amount, children, hor, hwiden, hliteral])
  have hplain' : names.PlainNames :=
    plainNames_of_children (List.forall_mem_nil _) (by simp [names, children, hliteral])
  have hnames : e.PlainNames := by
    refine plainNames_of_children ?_ (by simp [e, children, hplain, hplain'])
    have hstring : (Ty.arrayOf string).PlainNames := by
      simp only [Ty.arrayOf, Ty.PlainNames, string, Ty.classOf]
      decide
    simp [e, described, method, Method.ofStatic, Ty.ofPrimitive, Ty.PlainNames, hstring]
  have hreached : s.Reached := .start _
  have hok : (Lowering.final? (e.compile {}) s).isSome = true := by
    simp only [e, s, amount, names, test, method, string]
    decide +kernel
  have hsize : s.sink.size = 0 := rfl
  clear_value s e
  obtain ⟨s', hfinal⟩ := Option.isSome_iff_exists.mp hok
  have hrun := Lowering.final?_eq_some.mp hfinal
  obtain ⟨hvoid, hiff⟩ := compile_verified {} rfl htyped hnames hreached hrun [.int]
  have hverified := hiff.mp (hvoid rfl)
  rw [hsize] at hverified
  exact ⟨htyped, hnames, hreached, s', hrun, hverified⟩

/-- Without the check of the depth, not all code of typed trees passes: a constructor that
returns a number leaves it above the new object, where a cast wants a reference. -/
theorem Expr.cast_not_verified :
    let constructor : Method :=
      { Method.ofConstructor (.classOf "geometry" "Point") [] with returns := .ofPrimitive .int }
    let e : Expr := .cast (.classOf "java.lang" "Object") (.newInstance constructor [])
    let config : Config := { options := { checkBalance := false } }
    let s := Session.start Code.empty
    config.naming = .jvm ∧ e.Typed (some .reference) ∧ e.PlainNames ∧ s.Reached ∧
      ∃ s', (e.compile config).run s = .ok () s' ∧ ∀ A : Nat → List Category,
        ¬ s'.sink.Verified Instruction.retype s.sink.size s'.sink.size A := by
  intro constructor e config s
  have htyped : e.Typed (some .reference) := .cast _ (.newInstance .nil)
  have hplain : (newInstance constructor []).PlainNames := by
    refine plainNames_of_children ?_ (List.forall_mem_nil _)
    simp [described, constructor, Method.ofConstructor, Ty.ofPrimitive, Ty.PlainNames]
  have hnames : e.PlainNames :=
    plainNames_of_children (List.forall_mem_nil _) (by simp [e, children, hplain])
  let call : Call := ⟨.constructor, "geometry/Point", "<init>", "()I", 0, true⟩
  have hcode : ((Lowering.final? (e.compile config) s).map fun s' => s'.sink.instructions)
      = some #[.new "geometry/Point", .dup, .invoke call, .checkCast "java/lang/Object"] := by
    decide +kernel
  have hcall : (Instruction.invoke call).signature? = some ([.reference], [.int]) := by
    decide +kernel
  obtain ⟨s', hfinal, hcode⟩ := Option.map_eq_some_iff.mp hcode
  refine ⟨rfl, htyped, hnames, .start _, s', Lowering.final?_eq_some.mp hfinal, fun A hA => ?_⟩
  -- the first three instructions leave an integer where the cast wants a reference
  have hstep (p : Nat) (i : Instruction) (hi : s'.sink.instructions[p]? = some i)
      (hfalls : i.fallsThrough = true) : i.retype (A p) = some (A (p + 1)) := by
    obtain ⟨i', after, hi', hafter, hnext, -⟩ :=
      hA p (Nat.zero_le p) (Array.getElem?_eq_some_iff.mp hi).1
    cases hi.symm.trans hi'
    rw [hafter, hnext hfalls]
  have hnew := hstep 0 (.new "geometry/Point") (by rw [hcode]; rfl) rfl
  have hdup := hstep 1 .dup (by rw [hcode]; rfl) rfl
  have hinvoke := hstep 2 (.invoke call) (by rw [hcode]; rfl) rfl
  have hcast := hstep 3 (.checkCast "java/lang/Object") (by rw [hcode]; rfl) rfl
  rw [Instruction.retype_of_push rfl] at hnew
  rw [← Option.some.inj hnew] at hdup
  rw [← Option.some.inj hdup] at hinvoke
  have hreturned := Instruction.retype_of_signature? hcall (.reference :: A 0)
  rw [← Option.some.inj (hreturned.symm.trans hinvoke)] at hcast
  cases hcast

end StackLowering
