import StackLowering.Proofs.Labels
import StackLowering.Proofs.Refusal

/-!
Lowering as a walk through a tree.

* `Expr.at?`: the occurrences of trees in a tree, by the paths that lead to them.
* `Expr.leading`, `Expr.leadingMoves`: what lowering a node does before it comes to one of the
  trees below it.
* `Expr.moves_split`: the moves of a node, cut where they come to one of these trees.
* `Expr.visited?`: the session in which lowering comes to an occurrence.
* `Expr.visit`: lowering that succeeds visits every occurrence, and from there on it
  lowers the tree that occurs.
-/

namespace StackLowering

variable {σ : Type} [Sink σ]

open Move (Clean)

/-! ### Occurrences -/

namespace Expr

open Lowering

/-- The tree at the end of a path, which gives the index of a child at each node. -/
def at? : Expr → List Nat → Option Expr
  | e, [] => some e
  | e, k :: path => e.children[k]?.bind fun c => c.at? path

/-- What lowering a node does before it comes to the tree below it that has the index
given.  Checks that let the node pass leave no trace in a session, so only those stand here
that choose instructions. -/
def leading (config : Config) : Expr → Nat → Lowering σ Unit
  | newInstance constructor arguments, k => do
      let call ← require (Selection.construction config.naming constructor arguments.length)
      emit (.new call.owner)
      emit .dup
      lowerArguments config (arguments.take k)
  | or lhs _, 1 => do
      lower config lhs
      let onTrue ← newLabel
      branch (.zero .ne) onTrue
  | conditional test _ _, 1 => do
      lower config test
      let otherwise ← newLabel
      branch (.zero .eq) otherwise
  | conditional test onTrue _, 2 => do
      lower config test
      let otherwise ← newLabel
      branch (.zero .eq) otherwise
      lower config onTrue
      let done ← newLabel
      goto done
      place otherwise
  | newArray element elements, k => do
      let allocation ← require (Selection.newArray config.naming element)
      let store ← require (Selection.arrayStore element)
      let length ← require (Selection.arrayLength elements)
      pushInt config length
      emit allocation
      lowerElements config store 0 (elements.take k)
      emit .dup
      pushInt config k
  | e, k => lowerArguments config (e.children.take k)

/-- The session in which lowering a tree comes to the occurrence at the end of a path. -/
def visited? (config : Config) : Expr → List Nat → Session σ → Option (Session σ)
  | _, [], s => some s
  | e, k :: path, s =>
      e.children[k]?.bind fun c => ((e.leading config k).final? s).bind (c.visited? config path)

/-! ### The moves of a node, cut at a child -/

/-- Whether the value of the tree below a node that has the index given is wanted.  The arms of a
conditional may be without one. -/
def wants : Expr → Nat → Bool
  | conditional .., k => k == 0
  | _, _ => true

/-- The number of labels that a node has created when it comes to the tree below it that has the
index given. -/
def labelsBefore : Expr → Nat → Nat
  | or lhs _, 1 => lhs.labelCount + 1
  | conditional test _ _, 1 => test.labelCount + 1
  | conditional test onTrue _, 2 => test.labelCount + 1 + onTrue.labelCount + 1
  | e, k => labelCounts (e.children.take k)

/-- The moves that `Expr.leading` makes, if labels are numbered from `first` on. -/
def leadingMoves (config : Config) (first : Nat) : Expr → Nat → List Move
  | newInstance constructor arguments, k =>
      Move.guarded (Selection.construction config.naming constructor arguments.length) fun call =>
        .emit (.new call.owner) :: .emit .dup :: argumentMoves config first (arguments.take k)
  | or lhs _, 1 =>
      lhs.moves config first ++ [.create, .branch (.zero .ne) ⟨first + lhs.labelCount⟩]
  | conditional test _ _, 1 =>
      test.moves config first ++ [.create, .branch (.zero .eq) ⟨first + test.labelCount⟩]
  | conditional test onTrue _, 2 =>
      let otherwise := first + test.labelCount
      test.moves config first ++ (.create :: .branch (.zero .eq) ⟨otherwise⟩ ::
        (onTrue.moves config (otherwise + 1) ++
          [.create, .goto ⟨otherwise + 1 + onTrue.labelCount⟩, .place ⟨otherwise⟩]))
  | newArray element elements, k =>
      Move.guarded (Selection.newArray config.naming element) fun allocation =>
        Move.guarded (Selection.arrayStore element) fun store =>
          Move.guarded (Selection.arrayLength elements) fun length =>
            .emit (.pushInt config.options.compactConstants (.ofNat length)) :: .emit allocation ::
              (elementMoves config store first 0 (elements.take k) ++
                [.emit .dup, .emit (.pushInt config.options.compactConstants (.ofNat k))])
  | e, k => argumentMoves config first (e.children.take k)

/-- The way to a tree below a node is followed by its moves. -/
lemma leading_follows (config : Config) (e : Expr) (k first : Nat) :
    Follows first (e.leading config k : Lowering σ Unit) (e.leadingMoves config first k)
      (e.labelsBefore k) := by
  have harguments (es : List Expr) : Follows first (lowerArguments config es : Lowering σ Unit)
      (argumentMoves config first es) (labelCounts es) :=
    lowerArguments_follows config es (fun e' _ => e'.lower_follows config) first
  cases e with
  | newInstance constructor arguments =>
      simp only [leading, leadingMoves]
      exact .require fun call => .emit_bind _ (.emit_bind _ (harguments _))
  | or lhs rhs =>
      rcases k with _ | _ | k
      · exact harguments _
      · exact (lhs.lower_follows config first).bind (.newLabel (.branch _ _) rfl) rfl
      · exact harguments _
  | conditional test onTrue onFalse =>
      rcases k with _ | _ | _ | k
      · exact harguments _
      · exact (test.lower_follows config first).bind (.newLabel (.branch _ _) rfl) rfl
      · refine (test.lower_follows config first).bind (.newLabel ((Follows.branch _ _).bind
          ((onTrue.lower_follows config _).bind (.newLabel ((Follows.goto _).bind
            (.place _) rfl) rfl) rfl) rfl) rfl) ?_
        simp only [labelsBefore]
        omega
      · exact harguments _
  | newArray element elements =>
      have helements (store : Instruction) : Follows first
          (lowerElements config store 0 (elements.take k) : Lowering σ Unit) _ _ :=
        lowerElements_follows config store (elements.take k) (fun e' _ => e'.lower_follows config)
          first 0
      simp only [leading, leadingMoves]
      exact .require fun allocation => .require fun store => .require fun length =>
        .emit_bind _ (.emit_bind _ ((helements store).bind (.emit_bind _ (.emit _)) rfl))
  | _ => exact harguments _

end Expr

/-- The moves of a tree in its place: where its value is wanted, it has to have one. -/
def Move.inPlace (wanted : Bool) (e : Expr) (ms : List Move) : List Move :=
  if wanted then consumed e ms else ms

lemma Move.inPlace_of_hasValue {wanted : Bool} {e : Expr} (h : wanted = true → e.hasValue = true)
    (ms : List Move) : inPlace wanted e ms = ms := by
  cases wanted with
  | false => rfl
  | true => exact consumed_of_hasValue (h rfl) ms

lemma Move.clean_inPlace {wanted : Bool} {e : Expr} {ms : List Move} :
    Clean (inPlace wanted e ms) ↔ (wanted = true → e.hasValue = true) ∧ Clean ms := by
  cases wanted with
  | false => simp [inPlace]
  | true => simp [inPlace]

namespace Expr

open Move (inPlace)

variable {config : Config}

lemma argumentMoves_split (config : Config) {arguments : List Expr} {c : Expr} {k : Nat}
    (hc : arguments[k]? = some c) (first : Nat) :
    ∃ rest, argumentMoves config first arguments
      = argumentMoves config first (arguments.take k)
        ++ (Move.consumed c (c.moves config (first + labelCounts (arguments.take k))) ++ rest) := by
  induction arguments generalizing k first with
  | nil => cases hc
  | cons e es ih =>
      cases k with
      | zero =>
          cases hc
          exact ⟨argumentMoves config (first + c.labelCount) es, rfl⟩
      | succ k =>
          obtain ⟨rest, hrest⟩ := ih hc (first + e.labelCount)
          refine ⟨rest, ?_⟩
          rw [argumentMoves, hrest, List.take_succ_cons, argumentMoves, labelCounts,
            List.append_assoc, Nat.add_assoc]

lemma elementMoves_split (config : Config) (store : Instruction) {elements : List Expr} {c : Expr}
    {k : Nat} (hc : elements[k]? = some c) (first index : Nat) :
    ∃ rest, elementMoves config store first index elements
      = elementMoves config store first index (elements.take k)
        ++ .emit .dup :: .emit (.pushInt config.options.compactConstants (.ofNat (index + k)))
          :: (Move.consumed c (c.moves config (first + labelCounts (elements.take k)))
            ++ rest) := by
  induction elements generalizing k first index with
  | nil => cases hc
  | cons e es ih =>
      cases k with
      | zero =>
          cases hc
          exact ⟨.emit store :: elementMoves config store (first + c.labelCount) (index + 1) es,
            rfl⟩
      | succ k =>
          obtain ⟨rest, hrest⟩ := ih hc (first + e.labelCount) (index + 1)
          refine ⟨rest, ?_⟩
          have hindex : index + 1 + k = index + (k + 1) := by omega
          rw [elementMoves, hrest, List.take_succ_cons, elementMoves, labelCounts, hindex]
          simp only [List.cons_append, List.append_assoc, Nat.add_assoc]

/-- A node whose operands come one after the other, and then other moves. -/
lemma operands_split {e c : Expr} {k first : Nat} {ms : List Move} (ns : List Move)
    (hlead : e.leadingMoves config first k = argumentMoves config first (e.children.take k))
    (hbefore : e.labelsBefore k = labelCounts (e.children.take k)) (hwants : e.wants k = true)
    (hc : e.children[k]? = some c) (hms : ms = argumentMoves config first e.children ++ ns) :
    ∃ rest, ms = e.leadingMoves config first k ++
      (inPlace (e.wants k) c (c.moves config (first + e.labelsBefore k)) ++ rest) := by
  obtain ⟨rest, hrest⟩ := argumentMoves_split config hc first
  refine ⟨rest ++ ns, ?_⟩
  rw [hms, hrest, hlead, hbefore, hwants, List.append_assoc, List.append_assoc]
  rfl

/-- **The moves of a node that is not refused** are those that lead to a child, those of the child
in its place, and others.  Ways past the first child ask for its value. -/
lemma moves_split (config : Config) {e c : Expr} {k : Nat} (hc : e.children[k]? = some c)
    (hchecks : Check.first? e.nodeChecks = none)
    (hvalue : 0 < k → ∀ c', e.children.head? = some c' → c'.hasValue = true) (first : Nat) :
    ∃ rest, e.moves config first = e.leadingMoves config first k ++
      (inPlace (e.wants k) c (c.moves config (first + e.labelsBefore k)) ++ rest) := by
  cases e with
  | literal value => cases hc
  | load source => cases hc
  | receiver => cases hc
  | getStatic field => cases hc
  | getField target field =>
      obtain ⟨access, hok⟩ := Selection.exists_ok_of_fault?
        ((Selection.fault?_getField config.naming target field).trans hchecks)
      refine operands_split [.emit (.getField access)] rfl rfl rfl hc ?_
      simp [moves, hok, Move.guarded, argumentMoves, children]
  | newInstance constructor arguments =>
      obtain ⟨call, hok⟩ := Selection.exists_ok_of_fault?
        ((Selection.fault?_construction config.naming constructor arguments).trans hchecks)
      obtain ⟨rest, hrest⟩ := argumentMoves_split config hc first
      rw [children] at hrest
      refine ⟨rest ++ [.emit (.invoke call)], ?_⟩
      simp only [moves, leadingMoves, hok, Move.guarded, hrest, List.append_assoc, List.cons_append]
      rfl
  | invoke target method arguments =>
      obtain ⟨call, hok⟩ := Selection.exists_ok_of_fault?
        ((Selection.fault?_invoke config.naming target method arguments).trans hchecks)
      refine operands_split [.emit (.invoke call)] rfl rfl rfl hc ?_
      simp [moves, hok, Move.guarded, argumentMoves, children]
  | invokeStatic method arguments =>
      obtain ⟨call, hok⟩ := Selection.exists_ok_of_fault?
        ((Selection.fault?_invokeStatic config.naming method arguments).trans hchecks)
      refine operands_split [.emit (.invoke call)] rfl rfl rfl hc ?_
      simp [moves, hok, Move.guarded, children]
  | not operand =>
      refine operands_split (Move.truth (first + operand.labelCount) (.zero .ne)) rfl rfl rfl hc ?_
      simp [moves, argumentMoves, children]
  | or lhs rhs =>
      rcases k with _ | _ | k
      · obtain rfl : lhs = c := Option.some.inj hc
        exact ⟨_, rfl⟩
      · obtain rfl : rhs = c := Option.some.inj hc
        have hlhs := hvalue Nat.one_pos lhs rfl
        simp only [moves, leadingMoves, Move.consumed_of_hasValue hlhs, List.append_assoc]
        exact ⟨_, rfl⟩
      · cases hc
  | conditional test onTrue onFalse =>
      obtain ⟨_, hok⟩ := Selection.exists_ok_of_fault?
        ((Selection.fault?_arms test onTrue onFalse).trans hchecks)
      simp only [moves, hok, Move.guarded]
      rcases k with _ | _ | _ | k
      · obtain rfl : test = c := Option.some.inj hc
        exact ⟨_, rfl⟩
      · obtain rfl : onTrue = c := Option.some.inj hc
        have htest := hvalue Nat.one_pos test rfl
        simp only [leadingMoves, Move.consumed_of_hasValue htest, List.append_assoc]
        exact ⟨_, rfl⟩
      · obtain rfl : onFalse = c := Option.some.inj hc
        have htest := hvalue Nat.two_pos test rfl
        refine ⟨[.place ⟨first + test.labelCount + 1 + onTrue.labelCount⟩], ?_⟩
        simp only [leadingMoves, labelsBefore, Move.consumed_of_hasValue htest, List.append_assoc,
          List.cons_append, ← Nat.add_assoc]
        rfl
      · cases hc
  | eq lhs rhs type =>
      obtain ⟨comparison, hok⟩ := Selection.exists_ok_of_fault?
        ((Selection.fault?_equality lhs rhs type).trans hchecks)
      refine operands_split (Move.decideBy (first + lhs.labelCount + rhs.labelCount) comparison)
        rfl rfl rfl hc ?_
      simp [moves, hok, Move.guarded, argumentMoves, children]
  | gt lhs rhs type =>
      obtain ⟨comparison, hok⟩ := Selection.exists_ok_of_fault?
        ((Selection.fault?_ordering lhs rhs type).trans hchecks)
      refine operands_split (Move.decideBy (first + lhs.labelCount + rhs.labelCount) comparison)
        rfl rfl rfl hc ?_
      simp [moves, hok, Move.guarded, argumentMoves, children]
  | arithmetic op lhs rhs type =>
      obtain ⟨i, hok⟩ := Selection.exists_ok_of_fault?
        ((Selection.fault?_arithmetic op lhs rhs type).trans hchecks)
      refine operands_split [.emit i] rfl rfl rfl hc ?_
      simp [moves, hok, Move.guarded, argumentMoves, children]
  | widen operand source target =>
      obtain ⟨conversion, hok⟩ := Selection.exists_ok_of_fault?
        ((Selection.fault?_widening operand source target).trans hchecks)
      refine operands_split (conversion.toList.map .emit) rfl rfl rfl hc ?_
      simp [moves, hok, Move.guarded, argumentMoves, children]
  | cast target operand =>
      obtain ⟨i, hok⟩ := Selection.exists_ok_of_fault?
        ((Selection.fault?_cast config.naming target operand).trans hchecks)
      refine operands_split [.emit i] rfl rfl rfl hc ?_
      simp [moves, hok, Move.guarded, argumentMoves, children]
  | newArray element elements =>
      obtain ⟨allocation, store, hallocation, hstore, hlength⟩ :=
        arrayChoices_of_checks config.naming hchecks
      obtain ⟨rest, hrest⟩ := elementMoves_split config store hc first 0
      rw [children] at hrest
      refine ⟨rest, ?_⟩
      simp only [moves, leadingMoves, hallocation, hstore, hlength, Move.guarded, hrest,
        List.append_assoc, List.cons_append, List.nil_append, Nat.zero_add]
      rfl
  | pop operand =>
      refine operands_split [.emit .pop] rfl rfl rfl hc ?_
      simp [moves, argumentMoves, children]

/-- An accepted node is not refused. -/
lemma nodeChecks_of_clean {e : Expr} {first : Nat} (h : Clean (e.moves config first)) :
    Check.first? e.nodeChecks = none := by
  cases hfirst : Check.first? e.nodeChecks with
  | none => rfl
  | some fault =>
      rw [moves_of_refused hfirst] at h
      exact absurd List.mem_cons_self (h fault)

/-- The moves of an accepted node are those that lead to a child, those of the child and
others. -/
lemma moves_split_of_clean {e c : Expr} {k first : Nat} (hc : e.children[k]? = some c)
    (hclean : Clean (e.moves config first)) :
    ∃ rest, e.moves config first = e.leadingMoves config first k ++
      (c.moves config (first + e.labelsBefore k) ++ rest) := by
  have hchecks := nodeChecks_of_clean hclean
  -- accepted moves hold no refusal, so wherever a value is wanted there is one
  have hplace {j : Nat} {c' : Expr} {ms rest : List Move} (hmoves : e.moves config first = ms ++
      (inPlace (e.wants j) c' (c'.moves config (first + e.labelsBefore j)) ++ rest)) :
      e.wants j = true → c'.hasValue = true := by
    rw [hmoves] at hclean
    exact (Move.clean_inPlace.mp (Move.clean_append.mp (Move.clean_append.mp hclean).2).1).1
  -- the split at the first child needs no such fact, and yields it for the splits behind it
  have hvalue (_ : 0 < k) (c' : Expr) (hc' : e.children.head? = some c') : c'.hasValue = true := by
    rw [List.head?_eq_getElem?] at hc'
    obtain ⟨rest, hrest⟩ := moves_split config hc' hchecks (fun h => absurd h (Nat.lt_irrefl 0))
      first
    exact hplace hrest (by cases e <;> rfl)
  obtain ⟨rest, hrest⟩ := moves_split config hc hchecks hvalue first
  refine ⟨rest, ?_⟩
  rw [hrest, Move.inPlace_of_hasValue (hplace hrest)]

end Expr

/-! ### The first move of a tree -/

namespace Move

/-- The first of the moves emits an instruction. -/
def Begins (ms : List Move) : Prop :=
  ∃ i ns, ms = emit i :: ns

namespace Begins

lemma emit (i : Instruction) (ms : List Move) : Begins (.emit i :: ms) :=
  ⟨i, ms, rfl⟩

lemma append {ms : List Move} (h : Begins ms) (ns : List Move) : Begins (ms ++ ns) := by
  obtain ⟨i, ms, rfl⟩ := h
  exact emit i (ms ++ ns)

lemma guarded {α : Type} {choice : Except Fault α} {next : α → List Move}
    (h : Clean (Move.guarded choice next)) (hnext : ∀ a, Clean (next a) → Begins (next a)) :
    Begins (Move.guarded choice next) := by
  obtain ⟨a, rfl, ha⟩ := clean_guarded.mp h
  exact hnext a ha

/-- An operand, and the moves after it. -/
lemma consumed {e : Expr} {ms ns : List Move} (h : Clean (Move.consumed e ms ++ ns))
    (hms : Clean ms → Begins ms) : Begins (Move.consumed e ms ++ ns) := by
  obtain ⟨hvalue, hclean⟩ := clean_consumed.mp (clean_append.mp h).1
  rw [consumed_of_hasValue hvalue]
  exact (hms hclean).append ns

end Begins

end Move

namespace Expr

open Move (Begins)

variable {config : Config}

lemma begins_argumentMoves {arguments : List Expr}
    (ih : ∀ e ∈ arguments, ∀ first, Clean (e.moves config first) → Begins (e.moves config first))
    {first : Nat} {i : Instruction}
    (h : Clean (argumentMoves config first arguments ++ [.emit i])) :
    Begins (argumentMoves config first arguments ++ [.emit i]) := by
  cases arguments with
  | nil => exact .emit i []
  | cons e es =>
      rw [argumentMoves, List.append_assoc] at h ⊢
      exact .consumed h (ih e List.mem_cons_self first)

/-- Whatever the tree, its code is not empty, and it begins with an instruction. -/
lemma begins_moves (e : Expr) : ∀ first, Clean (e.moves config first) →
    Begins (e.moves config first) := by
  induction e using Expr.induct with
  | literal value => exact fun first _ => .emit _ _
  | load source => exact fun first h => .guarded h fun i _ => .emit _ _
  | receiver => exact fun first _ => .emit _ _
  | getField target field ih =>
      exact fun first h => .guarded h fun access h => .consumed h (ih first)
  | getStatic field => exact fun first h => .guarded h fun access _ => .emit _ _
  | newInstance constructor arguments ih =>
      exact fun first h => .guarded h fun call _ => .emit _ _
  | invoke target method arguments ih ihs =>
      exact fun first h => .guarded h fun call h => .consumed h (ih first)
  | invokeStatic method arguments ih =>
      exact fun first h => .guarded h fun call h => begins_argumentMoves ih h
  | not operand ih => exact fun first h => .consumed h (ih first)
  | or lhs rhs ihl ihr => exact fun first h => .consumed h (ihl first)
  | conditional test onTrue onFalse iht ihl ihr =>
      exact fun first h => .guarded h fun _ h => .consumed h (iht first)
  | eq lhs rhs type ihl ihr =>
      exact fun first h => .guarded h fun comparison h => .consumed h (ihl first)
  | gt lhs rhs type ihl ihr =>
      exact fun first h => .guarded h fun comparison h => .consumed h (ihl first)
  | arithmetic op lhs rhs type ihl ihr =>
      exact fun first h => .guarded h fun i h => .consumed h (ihl first)
  | widen operand source target ih =>
      exact fun first h => .guarded h fun conversion h => .consumed h (ih first)
  | cast target operand ih => exact fun first h => .guarded h fun i h => .consumed h (ih first)
  | newArray element elements ih =>
      exact fun first h => .guarded h fun allocation h => .guarded h fun store h =>
        .guarded h fun length _ => .emit _ _
  | pop operand ih => exact fun first h => .consumed h (ih first)

/-! ### Visits -/

variable {e f c : Expr} {k : Nat} {path : List Nat} {s s' : Session σ}

/-- Lowering a node that succeeds comes to each tree below it, lowers it and goes on. -/
lemma visit_child (hs : s.reachable = true) (hrun : (e.lower config).run s = .ok () s')
    (hc : e.children[k]? = some c) :
    ∃ s₁ s₂ rest, (e.leading config k).run s = .ok () s₁ ∧
      Course 0 s (e.leadingMoves config s.labels.size k) s₁ ∧
      s₁.labels.size = s.labels.size + e.labelsBefore k ∧
      s₁.reachable = true ∧ (c.lower config).run s₁ = .ok () s₂ ∧
      (follow rest).run s₂ = .ok () s' ∧ Course 0 s₂ rest s' := by
  have hclean := (e.course_of_lower_eq_ok config hs hrun).clean
  have hleads := e.moves_lead σ config 0 s hs (Nat.zero_le _)
  obtain ⟨rest, hmoves⟩ := moves_split_of_clean hc hclean
  obtain ⟨hlead, hsize⟩ := e.leading_follows config k s.labels.size s rfl
  rw [lower_eq_follow] at hrun
  rw [hmoves] at hrun hclean
  rw [hmoves, Leads.append_iff] at hleads
  obtain ⟨s₁, hrun₁, hrun⟩ := follow_append_eq_ok.mp hrun
  obtain ⟨s₂, hrun₂, hrun'⟩ := follow_append_eq_ok.mp hrun
  rw [← hlead] at hrun₁
  have hleads₁ := hleads.of_ok (hlead ▸ hrun₁)
  -- the child begins with an instruction, which is only emitted where control can come
  have hs₁ : s₁.reachable = true := by
    obtain ⟨i, ms, hms⟩ := c.begins_moves _ (Move.clean_append.mp (Move.clean_append.mp hclean).2).1
    rw [hms] at hleads₁
    exact hleads₁.1.1
  have hleads₂ := (Leads.append_iff.mp hleads₁).of_ok hrun₂
  rw [← hsize s₁ hrun₁, ← lower_eq_follow] at hrun₂
  exact ⟨s₁, s₂, rest, hrun₁, hleads.course (hlead ▸ hrun₁), hsize s₁ hrun₁, hs₁, hrun₂, hrun',
    hleads₂.course hrun'⟩

/-- **Lowering that succeeds visits every occurrence.**  From the session in which it comes
there, it lowers the tree that occurs, and then it goes on to where it ends. -/
theorem visit (hs : s.reachable = true) (hrun : (e.lower config).run s = .ok () s')
    (hf : e.at? path = some f) :
    ∃ s₁ s₂ lead rest, e.visited? config path s = some s₁ ∧ Course 0 s lead s₁ ∧
      s₁.reachable = true ∧ (f.lower config).run s₁ = .ok () s₂ ∧
      (follow rest).run s₂ = .ok () s' ∧ Course 0 s₂ rest s' := by
  induction path generalizing e s s' with
  | nil =>
      cases hf
      exact ⟨s, s', [], [], rfl, .nil s, hs, hrun, rfl, .nil s'⟩
  | cons k path ih =>
      obtain ⟨c, hc, hf⟩ := Option.bind_eq_some_iff.mp hf
      obtain ⟨s₁, s₂, rest, hlead, hcourse, -, hs₁, hchild, hrest, hcourse'⟩ :=
        visit_child hs hrun hc
      obtain ⟨t₁, t₂, lead, rest', hvisited, ht₁, hreach, hlower, ht₂, ht'⟩ := ih hs₁ hchild hf
      refine ⟨t₁, t₂, _ ++ lead, rest' ++ rest, ?_, hcourse.append ht₁, hreach, hlower,
        follow_append_eq_ok.mpr ⟨s₂, ht₂, hrest⟩, ht'.append hcourse'⟩
      rw [visited?, hc, Option.bind_some, Lowering.final?_eq_some.mpr hlead, Option.bind_some,
        hvisited]

end Expr

end StackLowering
