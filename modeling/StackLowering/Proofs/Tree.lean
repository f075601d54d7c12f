import Mathlib.Tactic.Lemma
import StackLowering.Expr.Basic

/-!
Induction over expression trees, and what holds at every node of one.

* `Expr.induct`: a property holds of every tree once each kind of node inherits
  it from its children, the arguments of calls and the elements of arrays
  included.
* `Expr.children`, `Expr.inductChildren`: the trees directly below a node, and the same
  principle with one case for all kinds of nodes.
* `Expr.Everywhere`: a property of single nodes at all nodes of a tree.
* `Expr.VoidConstructors`: the constructors that a tree names return nothing.
-/

namespace StackLowering

namespace Expr

/-- The induction principle of trees: one case for each kind of node, with the
property of its children at hand. -/
@[elab_as_elim]
theorem induct {P : Expr → Prop}
    (literal : ∀ value, P (.literal value))
    (load : ∀ source, P (.load source))
    (receiver : P .receiver)
    (getField : ∀ target field, P target → P (.getField target field))
    (getStatic : ∀ field, P (.getStatic field))
    (newInstance : ∀ constructor arguments, (∀ e ∈ arguments, P e) →
      P (.newInstance constructor arguments))
    (invoke : ∀ target method arguments, P target → (∀ e ∈ arguments, P e) →
      P (.invoke target method arguments))
    (invokeStatic : ∀ method arguments, (∀ e ∈ arguments, P e) →
      P (.invokeStatic method arguments))
    (not : ∀ operand, P operand → P (.not operand))
    (or : ∀ lhs rhs, P lhs → P rhs → P (.or lhs rhs))
    (conditional : ∀ test onTrue onFalse, P test → P onTrue → P onFalse →
      P (.conditional test onTrue onFalse))
    (eq : ∀ lhs rhs type, P lhs → P rhs → P (.eq lhs rhs type))
    (gt : ∀ lhs rhs type, P lhs → P rhs → P (.gt lhs rhs type))
    (arithmetic : ∀ op lhs rhs type, P lhs → P rhs → P (.arithmetic op lhs rhs type))
    (widen : ∀ operand source target, P operand → P (.widen operand source target))
    (cast : ∀ target operand, P operand → P (.cast target operand))
    (newArray : ∀ element elements, (∀ e ∈ elements, P e) → P (.newArray element elements))
    (pop : ∀ operand, P operand → P (.pop operand))
    (e : Expr) : P e :=
  @Expr.rec P (fun es => ∀ e ∈ es, P e) literal load receiver getField getStatic newInstance
    invoke invokeStatic not or conditional eq gt arithmetic widen cast newArray pop
    (fun _ he => absurd he List.not_mem_nil)
    (fun _ _ hhead htail e he => by
      rcases List.mem_cons.mp he with rfl | he'
      · exact hhead
      · exact htail e he')
    e

/-- The trees directly below a node, from left to right. -/
def children : Expr → List Expr
  | literal _ | load _ | receiver | getStatic _ => []
  | getField operand _ | not operand | widen operand _ _ | cast _ operand | pop operand =>
      [operand]
  | or lhs rhs | eq lhs rhs _ | gt lhs rhs _ | arithmetic _ lhs rhs _ => [lhs, rhs]
  | conditional test onTrue onFalse => [test, onTrue, onFalse]
  | newInstance _ arguments | invokeStatic _ arguments => arguments
  | invoke target _ arguments => target :: arguments
  | newArray _ elements => elements

/-- A property holds of every tree once each node inherits it from the trees below it. -/
@[elab_as_elim]
theorem inductChildren {P : Expr → Prop} (node : ∀ e : Expr, (∀ c ∈ e.children, P c) → P e)
    (e : Expr) : P e := by
  induction e using Expr.induct with
  | literal value => exact node _ (List.forall_mem_nil _)
  | load source => exact node _ (List.forall_mem_nil _)
  | receiver => exact node _ (List.forall_mem_nil _)
  | getStatic field => exact node _ (List.forall_mem_nil _)
  | newInstance constructor arguments ih => exact node _ ih
  | invoke target method arguments ih ihs =>
      exact node _ (List.forall_mem_cons.mpr ⟨ih, ihs⟩)
  | invokeStatic method arguments ih => exact node _ ih
  | newArray element elements ih => exact node _ ih
  | _ => exact node _ (by simp [children, *])

/-- A property of nodes holds at every node of a tree, at any depth. -/
inductive Everywhere (P : Expr → Prop) : Expr → Prop
  | node {e : Expr} (here : P e) (below : ∀ c ∈ e.children, Everywhere P c) : Everywhere P e

lemma everywhere_iff {P : Expr → Prop} {e : Expr} :
    Everywhere P e ↔ P e ∧ ∀ c ∈ e.children, Everywhere P c :=
  ⟨fun ⟨here, below⟩ => ⟨here, below⟩, fun ⟨here, below⟩ => ⟨here, below⟩⟩

lemma Everywhere.child {P : Expr → Prop} {e c : Expr} (h : Everywhere P e) (hc : c ∈ e.children) :
    Everywhere P c :=
  (everywhere_iff.mp h).2 c hc

lemma Everywhere.childAt {P : Expr → Prop} {e c : Expr} (h : Everywhere P e) (k : Nat)
    (hc : e.children[k]? = some c) : Everywhere P c :=
  h.child (List.mem_of_getElem? hc)

lemma Everywhere.imp {P Q : Expr → Prop} {e : Expr} (h : Everywhere P e)
    (himp : ∀ node, P node → Q node) : Everywhere Q e := by
  induction h with
  | node here _ ih => exact .node (himp _ here) ih

/-- If a node allocates an object, then the constructor it calls returns
nothing. -/
def VoidConstructor : Expr → Prop
  | newInstance constructor _ => constructor.returns.isVoid = true
  | _ => True

/-- Every constructor that a tree allocates objects with returns nothing, which
`Method.ofConstructor` provides. -/
def VoidConstructors (e : Expr) : Prop :=
  e.Everywhere VoidConstructor

lemma voidConstructors_iff {e : Expr} :
    e.VoidConstructors ↔ e.VoidConstructor ∧ ∀ c ∈ e.children, c.VoidConstructors :=
  everywhere_iff

lemma voidConstructors_of_children {e : Expr} (hnode : e.VoidConstructor)
    (hchildren : ∀ c ∈ e.children, c.VoidConstructors) : e.VoidConstructors :=
  voidConstructors_iff.mpr ⟨hnode, hchildren⟩

lemma VoidConstructors.child {e c : Expr} (h : e.VoidConstructors) (hc : c ∈ e.children) :
    c.VoidConstructors :=
  Everywhere.child h hc

lemma VoidConstructors.isVoid {constructor : Method} {arguments : List Expr}
    (h : (newInstance constructor arguments).VoidConstructors) :
    constructor.returns.isVoid = true :=
  (voidConstructors_iff.mp h).1

end Expr

end StackLowering
