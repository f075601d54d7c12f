import Mathlib.Data.List.Forall2
import StackLowering.Expr.Equality
import StackLowering.Proofs.Moves

/-!
Trees that differ in their literals only.

* `Expr.Alike`: two trees have the same nodes, and where they have literals, a given relation
  holds between these.
* `Expr.Alike.induct`: induction over two such trees at once.
* `Expr.Alike.hasValue`, `Expr.Alike.voidType`, `Expr.Alike.labelCount`: what does not depend on
  literals.
* `Expr.alike_of_beq`: trees that are equal are alike.
-/

namespace StackLowering

namespace Expr

variable {L : Literal → Literal → Prop}

/-- Two trees have the same nodes with the same types and members, and `L` relates the literals
of the first to those of the second. -/
inductive Alike (L : Literal → Literal → Prop) : Expr → Expr → Prop
  | literal {a b : Literal} (h : L a b) : Alike L (.literal a) (.literal b)
  | load (source : Local) : Alike L (.load source) (.load source)
  | receiver : Alike L .receiver .receiver
  | getField {target target' : Expr} (field : Field) (h : Alike L target target') :
      Alike L (.getField target field) (.getField target' field)
  | getStatic (field : Field) : Alike L (.getStatic field) (.getStatic field)
  | newInstance (constructor : Method) {arguments arguments' : List Expr}
      (h : List.Forall₂ (Alike L) arguments arguments') :
      Alike L (.newInstance constructor arguments) (.newInstance constructor arguments')
  | invoke {target target' : Expr} (method : Method) {arguments arguments' : List Expr}
      (h : Alike L target target') (hs : List.Forall₂ (Alike L) arguments arguments') :
      Alike L (.invoke target method arguments) (.invoke target' method arguments')
  | invokeStatic (method : Method) {arguments arguments' : List Expr}
      (h : List.Forall₂ (Alike L) arguments arguments') :
      Alike L (.invokeStatic method arguments) (.invokeStatic method arguments')
  | not {operand operand' : Expr} (h : Alike L operand operand') :
      Alike L (.not operand) (.not operand')
  | or {lhs lhs' rhs rhs' : Expr} (hl : Alike L lhs lhs') (hr : Alike L rhs rhs') :
      Alike L (.or lhs rhs) (.or lhs' rhs')
  | conditional {test test' onTrue onTrue' onFalse onFalse' : Expr} (ht : Alike L test test')
      (hl : Alike L onTrue onTrue') (hr : Alike L onFalse onFalse') :
      Alike L (.conditional test onTrue onFalse) (.conditional test' onTrue' onFalse')
  | eq {lhs lhs' rhs rhs' : Expr} (type : Ty) (hl : Alike L lhs lhs') (hr : Alike L rhs rhs') :
      Alike L (.eq lhs rhs type) (.eq lhs' rhs' type)
  | gt {lhs lhs' rhs rhs' : Expr} (type : Ty) (hl : Alike L lhs lhs') (hr : Alike L rhs rhs') :
      Alike L (.gt lhs rhs type) (.gt lhs' rhs' type)
  | arithmetic (op : ArithmeticOp) {lhs lhs' rhs rhs' : Expr} (type : Ty)
      (hl : Alike L lhs lhs') (hr : Alike L rhs rhs') :
      Alike L (.arithmetic op lhs rhs type) (.arithmetic op lhs' rhs' type)
  | widen {operand operand' : Expr} (source target : Ty) (h : Alike L operand operand') :
      Alike L (.widen operand source target) (.widen operand' source target)
  | cast (target : Ty) {operand operand' : Expr} (h : Alike L operand operand') :
      Alike L (.cast target operand) (.cast target operand')
  | newArray (element : Ty) {elements elements' : List Expr}
      (h : List.Forall₂ (Alike L) elements elements') :
      Alike L (.newArray element elements) (.newArray element elements')
  | pop {operand operand' : Expr} (h : Alike L operand operand') :
      Alike L (.pop operand) (.pop operand')

namespace Alike

/-- The induction principle of trees that are alike: one case for each kind of node, with the
property of the children, in pairs, at hand. -/
@[elab_as_elim]
theorem induct {P : (e e' : Expr) → Alike L e e' → Prop}
    (literal : ∀ {a b} (h : L a b), P (.literal a) (.literal b) (.literal h))
    (load : ∀ source, P (.load source) (.load source) (.load source))
    (receiver : P .receiver .receiver .receiver)
    (getField : ∀ {target target'} field (h : Alike L target target'), P target target' h →
      P (.getField target field) (.getField target' field) (.getField field h))
    (getStatic : ∀ field, P (.getStatic field) (.getStatic field) (.getStatic field))
    (newInstance : ∀ constructor {arguments arguments'}
      (h : List.Forall₂ (Alike L) arguments arguments'),
      List.Forall₂ (fun a b => ∃ h, P a b h) arguments arguments' →
      P (.newInstance constructor arguments) (.newInstance constructor arguments')
        (.newInstance constructor h))
    (invoke : ∀ {target target'} method {arguments arguments'} (h : Alike L target target')
      (hs : List.Forall₂ (Alike L) arguments arguments'), P target target' h →
      List.Forall₂ (fun a b => ∃ h, P a b h) arguments arguments' →
      P (.invoke target method arguments) (.invoke target' method arguments')
        (.invoke method h hs))
    (invokeStatic : ∀ method {arguments arguments'}
      (h : List.Forall₂ (Alike L) arguments arguments'),
      List.Forall₂ (fun a b => ∃ h, P a b h) arguments arguments' →
      P (.invokeStatic method arguments) (.invokeStatic method arguments')
        (.invokeStatic method h))
    (not : ∀ {operand operand'} (h : Alike L operand operand'), P operand operand' h →
      P (.not operand) (.not operand') (.not h))
    (or : ∀ {lhs lhs' rhs rhs'} (hl : Alike L lhs lhs') (hr : Alike L rhs rhs'), P lhs lhs' hl →
      P rhs rhs' hr → P (.or lhs rhs) (.or lhs' rhs') (.or hl hr))
    (conditional : ∀ {test test' onTrue onTrue' onFalse onFalse'} (ht : Alike L test test')
      (hl : Alike L onTrue onTrue') (hr : Alike L onFalse onFalse'), P test test' ht →
      P onTrue onTrue' hl → P onFalse onFalse' hr →
      P (.conditional test onTrue onFalse) (.conditional test' onTrue' onFalse')
        (.conditional ht hl hr))
    (eq : ∀ {lhs lhs' rhs rhs'} type (hl : Alike L lhs lhs') (hr : Alike L rhs rhs'),
      P lhs lhs' hl → P rhs rhs' hr →
      P (.eq lhs rhs type) (.eq lhs' rhs' type) (.eq type hl hr))
    (gt : ∀ {lhs lhs' rhs rhs'} type (hl : Alike L lhs lhs') (hr : Alike L rhs rhs'),
      P lhs lhs' hl → P rhs rhs' hr →
      P (.gt lhs rhs type) (.gt lhs' rhs' type) (.gt type hl hr))
    (arithmetic : ∀ op {lhs lhs' rhs rhs'} type (hl : Alike L lhs lhs') (hr : Alike L rhs rhs'),
      P lhs lhs' hl → P rhs rhs' hr →
      P (.arithmetic op lhs rhs type) (.arithmetic op lhs' rhs' type) (.arithmetic op type hl hr))
    (widen : ∀ {operand operand'} source target (h : Alike L operand operand'),
      P operand operand' h →
      P (.widen operand source target) (.widen operand' source target) (.widen source target h))
    (cast : ∀ target {operand operand'} (h : Alike L operand operand'), P operand operand' h →
      P (.cast target operand) (.cast target operand') (.cast target h))
    (newArray : ∀ element {elements elements'} (h : List.Forall₂ (Alike L) elements elements'),
      List.Forall₂ (fun a b => ∃ h, P a b h) elements elements' →
      P (.newArray element elements) (.newArray element elements') (.newArray element h))
    (pop : ∀ {operand operand'} (h : Alike L operand operand'), P operand operand' h →
      P (.pop operand) (.pop operand') (.pop h))
    {e e' : Expr} (h : Alike L e e') : P e e' h :=
  @Alike.rec L P (fun es es' _ => List.Forall₂ (fun a b => ∃ h, P a b h) es es') literal load
    receiver getField getStatic newInstance invoke invokeStatic not or conditional eq gt arithmetic
    widen cast newArray pop .nil (fun h _ hhead htail => .cons ⟨h, hhead⟩ htail) e e' h

variable {e e' : Expr}

/-- Whether a tree has a value does not depend on its literals. -/
lemma hasValue (h : Alike L e e') : e.hasValue = e'.hasValue := by
  induction h using Alike.induct with
  | conditional _ _ _ _ ih => exact ih
  | _ => rfl

lemma voidType (h : Alike L e e') : e.voidType = e'.voidType := by
  induction h using Alike.induct with
  | conditional _ _ _ _ ih => exact ih
  | _ => rfl

lemma stackEffect (h : Alike L e e') : e.stackEffect = e'.stackEffect := by
  rw [Expr.stackEffect, Expr.stackEffect, h.hasValue]

/-- Trees that are alike are wanted for their values with the same success. -/
lemma value (h : Alike L e e') : Selection.value e = Selection.value e' := by
  rw [Selection.value, Selection.value, h.hasValue, h.voidType]

lemma arms {e₁ e₁' : Expr} (h : Alike L e e') (h₁ : Alike L e₁ e₁') :
    Selection.arms e e₁ = Selection.arms e' e₁' := by
  rw [Selection.arms, Selection.arms, h.hasValue, h₁.hasValue, h.voidType, h₁.voidType]

lemma arrayLength {es es' : List Expr} (h : List.Forall₂ (Alike L) es es') :
    Selection.arrayLength es = Selection.arrayLength es' := by
  rw [Selection.arrayLength, Selection.arrayLength, h.length_eq]

lemma labelCounts {es es' : List Expr}
    (h : List.Forall₂ (fun a b => ∃ _ : Alike L a b, a.labelCount = b.labelCount) es es') :
    Expr.labelCounts es = Expr.labelCounts es' := by
  induction h with
  | nil => rfl
  | cons hhead _ ih =>
      obtain ⟨-, hhead⟩ := hhead
      rw [Expr.labelCounts, Expr.labelCounts, hhead, ih]

/-- Trees that are alike need the same number of labels. -/
lemma labelCount (h : Alike L e e') : e.labelCount = e'.labelCount := by
  induction h using Alike.induct with
  | newInstance constructor _ ih => exact labelCounts ih
  | invoke method _ _ ih ihs => rw [Expr.labelCount, Expr.labelCount, ih, labelCounts ihs]
  | invokeStatic method _ ih => exact labelCounts ih
  | newArray element _ ih => exact labelCounts ih
  | _ => simp only [Expr.labelCount, *]

/-- Every tree is like itself, if its literals are. -/
lemma refl (hL : ∀ a, L a a) (e : Expr) : Alike L e e := by
  induction e using Expr.induct with
  | literal value => exact .literal (hL value)
  | newInstance constructor arguments ih => exact .newInstance _ (List.forall₂_same.mpr ih)
  | invoke target method arguments ih ihs => exact .invoke _ ih (List.forall₂_same.mpr ihs)
  | invokeStatic method arguments ih => exact .invokeStatic _ (List.forall₂_same.mpr ih)
  | newArray element elements ih => exact .newArray _ (List.forall₂_same.mpr ih)
  | _ => constructor <;> assumption

/-- Trees are the same if `L` relates the literals of the first one to themselves only. -/
lemma eq_of_everywhere (h : Alike L e e')
    (he : e.Everywhere fun node => ∀ a b, node = .literal a → L a b → a = b) : e = e' := by
  have heq {es es' : List Expr} {P : Expr → Prop}
      (hs : List.Forall₂ (fun a b => ∃ _ : Alike L a b, P a → a = b) es es')
      (hes : ∀ e ∈ es, P e) : es = es' := by
    induction hs with
    | nil => rfl
    | cons hhead _ ih =>
        obtain ⟨hhere, hbelow⟩ := List.forall_mem_cons.mp hes
        obtain ⟨-, hhead⟩ := hhead
        rw [hhead hhere, ih hbelow]
  induction h using Alike.induct with
  | literal h => rw [(everywhere_iff.mp he).1 _ _ rfl h]
  | load source => rfl
  | receiver => rfl
  | getField field _ ih => rw [ih (he.childAt 0 rfl)]
  | getStatic field => rfl
  | newInstance constructor _ ih => rw [heq ih (everywhere_iff.mp he).2]
  | invoke method _ _ ih ihs =>
      obtain ⟨htarget, harguments⟩ := List.forall_mem_cons.mp (everywhere_iff.mp he).2
      rw [ih htarget, heq ihs harguments]
  | invokeStatic method _ ih => rw [heq ih (everywhere_iff.mp he).2]
  | not _ ih => rw [ih (he.childAt 0 rfl)]
  | or _ _ ihl ihr => rw [ihl (he.childAt 0 rfl), ihr (he.childAt 1 rfl)]
  | conditional _ _ _ iht ihl ihr =>
      rw [iht (he.childAt 0 rfl), ihl (he.childAt 1 rfl), ihr (he.childAt 2 rfl)]
  | eq type _ _ ihl ihr => rw [ihl (he.childAt 0 rfl), ihr (he.childAt 1 rfl)]
  | gt type _ _ ihl ihr => rw [ihl (he.childAt 0 rfl), ihr (he.childAt 1 rfl)]
  | arithmetic op type _ _ ihl ihr => rw [ihl (he.childAt 0 rfl), ihr (he.childAt 1 rfl)]
  | widen source target _ ih => rw [ih (he.childAt 0 rfl)]
  | cast target _ ih => rw [ih (he.childAt 0 rfl)]
  | newArray element _ ih => rw [heq ih (everywhere_iff.mp he).2]
  | pop _ ih => rw [ih (he.childAt 0 rfl)]

end Alike

/-! ### Equal trees -/

lemma alike_of_beqList {es : List Expr}
    (ih : ∀ e ∈ es, ∀ e', beq e e' = true → Alike L e e') {es' : List Expr}
    (h : beqList es es' = true) : List.Forall₂ (Alike L) es es' := by
  induction es generalizing es' with
  | nil =>
      cases es' with
      | nil => exact .nil
      | cons e' es' => cases h
  | cons e es ihes =>
      cases es' with
      | nil => cases h
      | cons e' es' =>
          obtain ⟨he, hes⟩ := List.forall_mem_cons.mp ih
          rw [beqList, Bool.and_eq_true] at h
          exact .cons (he e' h.1) (ihes hes h.2)

/-- **Trees that are equal are alike**, if `L` relates literals that are equal. -/
theorem alike_of_beq (hL : ∀ a b : Literal, (a == b) = true → L a b) {e e' : Expr}
    (h : (e == e') = true) : Alike L e e' := by
  -- nodes of different kinds are never equal, so each kind meets itself only
  change beq e e' = true at h
  induction e using Expr.induct generalizing e' with
  | literal value =>
      cases e' with
      | literal value' => exact .literal (hL _ _ h)
      | _ => cases h
  | load source =>
      cases e' with
      | load source' =>
          obtain rfl := eq_of_beq h
          exact .load source
      | _ => cases h
  | receiver =>
      cases e' with
      | receiver => exact .receiver
      | _ => cases h
  | getField target field ih =>
      cases e' with
      | getField target' field' =>
          simp only [beq, Bool.and_eq_true, beq_iff_eq] at h
          obtain ⟨htarget, rfl⟩ := h
          exact .getField field (ih htarget)
      | _ => cases h
  | getStatic field =>
      cases e' with
      | getStatic field' =>
          obtain rfl := eq_of_beq h
          exact .getStatic field
      | _ => cases h
  | newInstance constructor arguments ih =>
      cases e' with
      | newInstance constructor' arguments' =>
          simp only [beq, Bool.and_eq_true, beq_iff_eq] at h
          obtain ⟨rfl, harguments⟩ := h
          exact .newInstance constructor (alike_of_beqList (fun e he e' => ih e he) harguments)
      | _ => cases h
  | invoke target method arguments ih ihs =>
      cases e' with
      | invoke target' method' arguments' =>
          simp only [beq, Bool.and_eq_true, beq_iff_eq] at h
          obtain ⟨⟨htarget, rfl⟩, harguments⟩ := h
          exact .invoke method (ih htarget)
            (alike_of_beqList (fun e he e' => ihs e he) harguments)
      | _ => cases h
  | invokeStatic method arguments ih =>
      cases e' with
      | invokeStatic method' arguments' =>
          simp only [beq, Bool.and_eq_true, beq_iff_eq] at h
          obtain ⟨rfl, harguments⟩ := h
          exact .invokeStatic method (alike_of_beqList (fun e he e' => ih e he) harguments)
      | _ => cases h
  | not operand ih =>
      cases e' with
      | not operand' => exact .not (ih h)
      | _ => cases h
  | or lhs rhs ihl ihr =>
      cases e' with
      | or lhs' rhs' =>
          simp only [beq, Bool.and_eq_true] at h
          exact .or (ihl h.1) (ihr h.2)
      | _ => cases h
  | conditional test onTrue onFalse iht ihl ihr =>
      cases e' with
      | conditional test' onTrue' onFalse' =>
          simp only [beq, Bool.and_eq_true] at h
          exact .conditional (iht h.1.1) (ihl h.1.2) (ihr h.2)
      | _ => cases h
  | eq lhs rhs type ihl ihr =>
      cases e' with
      | eq lhs' rhs' type' =>
          simp only [beq, Bool.and_eq_true, beq_iff_eq] at h
          obtain ⟨⟨hlhs, hrhs⟩, rfl⟩ := h
          exact .eq type (ihl hlhs) (ihr hrhs)
      | _ => cases h
  | gt lhs rhs type ihl ihr =>
      cases e' with
      | gt lhs' rhs' type' =>
          simp only [beq, Bool.and_eq_true, beq_iff_eq] at h
          obtain ⟨⟨hlhs, hrhs⟩, rfl⟩ := h
          exact .gt type (ihl hlhs) (ihr hrhs)
      | _ => cases h
  | arithmetic op lhs rhs type ihl ihr =>
      cases e' with
      | arithmetic op' lhs' rhs' type' =>
          simp only [beq, Bool.and_eq_true, beq_iff_eq] at h
          obtain ⟨⟨⟨rfl, hlhs⟩, hrhs⟩, rfl⟩ := h
          exact .arithmetic op type (ihl hlhs) (ihr hrhs)
      | _ => cases h
  | widen operand source target ih =>
      cases e' with
      | widen operand' source' target' =>
          simp only [beq, Bool.and_eq_true, beq_iff_eq] at h
          obtain ⟨⟨hoperand, rfl⟩, rfl⟩ := h
          exact .widen source target (ih hoperand)
      | _ => cases h
  | cast target operand ih =>
      cases e' with
      | cast target' operand' =>
          simp only [beq, Bool.and_eq_true, beq_iff_eq] at h
          obtain ⟨rfl, hoperand⟩ := h
          exact .cast target (ih hoperand)
      | _ => cases h
  | newArray element elements ih =>
      cases e' with
      | newArray element' elements' =>
          simp only [beq, Bool.and_eq_true, beq_iff_eq] at h
          obtain ⟨rfl, helements⟩ := h
          exact .newArray element (alike_of_beqList (fun e he e' => ih e he) helements)
      | _ => cases h
  | pop operand ih =>
      cases e' with
      | pop operand' => exact .pop (ih h)
      | _ => cases h

end Expr

end StackLowering
