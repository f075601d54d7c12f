import Mathlib.Tactic.Lemma
import StackLowering.Proofs.Tree
import StackLowering.Session.Compile

/-!
Lowering as a list of elementary moves.

* `Move`: what lowering does at one point: stop, create a label, emit, jump or
  place a label.
* `Expr.moves`: the moves of a tree, with its labels numbered from a given one on.
  They depend on nothing else in the session.
* `Expr.lower_eq_follow`: to lower a tree is to follow its moves, in every session
  and whether or not it succeeds.
* `Expr.labelCount`: how many labels a tree needs.
-/

namespace StackLowering

/-- One elementary step of lowering. -/
inductive Move where
  /-- Stops with a fault. -/
  | refuse (fault : Fault)
  /-- Adds a label. -/
  | create
  /-- Emits an instruction that does not jump. -/
  | emit (i : Instruction)
  | branch (condition : Condition) (target : Label)
  | goto (target : Label)
  /-- Lets a label stand at the point reached. -/
  | place (label : Label)
  deriving DecidableEq, Repr

/-- Whether a move creates a label. -/
def Move.isCreate : Move → Bool
  | create => true
  | _ => false

section Follow

variable {σ : Type} [Sink σ]

/-- What a move does to a session. -/
def Move.perform : Move → Lowering σ Unit
  | refuse fault => throw fault
  | create => do
      let _ ← Lowering.newLabel
  | emit i => Lowering.emit i
  | branch condition target => Lowering.branch condition target
  | goto target => Lowering.goto target
  | place label => Lowering.place label

/-- Makes moves in order, up to the first one that fails. -/
def follow : List Move → Lowering σ Unit
  | [] => pure ()
  | m :: ms => do
      m.perform
      follow ms

lemma follow_append (ms ns : List Move) :
    (follow (ms ++ ns) : Lowering σ Unit) = follow ms >>= fun _ => follow ns := by
  induction ms with
  | nil => rw [List.nil_append, follow, pure_bind]
  | cons m ms ih => rw [List.cons_append, follow, follow, ih, bind_assoc]

lemma follow_append_eq_ok {ms ns : List Move} {s s' : Session σ} :
    (follow (ms ++ ns)).run s = .ok () s' ↔
      ∃ s₁, (follow ms).run s = .ok () s₁ ∧ (follow ns).run s₁ = .ok () s' := by
  rw [follow_append, EStateM.run_bind]
  cases (follow ms).run s with
  | ok u s₁ => simp
  | error fault s₁ => simp

end Follow

/-! ### The moves of a tree -/

namespace Move

/-- The moves that follow a choice. -/
def guarded {α : Type} (choice : Except Fault α) (next : α → List Move) : List Move :=
  match choice with
  | .ok a => next a
  | .error fault => [refuse fault]

/-- The moves of a tree whose value is consumed. -/
def consumed (e : Expr) (moves : List Move) : List Move :=
  guarded (Selection.value e) fun _ => moves

/-- The moves that push 1 for the path reached and 0 for the one that jumps to
`onFalse`; `done` is the number of the next label. -/
def joinTruth (onFalse done : Nat) : List Move :=
  [.emit (.iconst 1), .create, .goto ⟨done⟩, .place ⟨onFalse⟩, .emit (.iconst 0), .place ⟨done⟩]

/-- The moves that turn a branch into the value 0 or 1. -/
def truth (first : Nat) (jumpIfFalse : Condition) : List Move :=
  .create :: .branch jumpIfFalse ⟨first⟩ :: joinTruth first (first + 1)

/-- The moves that compare the two topmost values. -/
def decideBy (first : Nat) (comparison : Selection.Comparison) : List Move :=
  comparison.reduce.toList.map (fun comparator => .emit (.compare comparator))
    ++ truth first comparison.jumpIfFalse

end Move

namespace Expr

open Move (guarded consumed truth joinTruth decideBy)

mutual

/-- The number of labels that a tree creates: two for a negation, a comparison or
a conditional and three for a disjunction. -/
def labelCount : Expr → Nat
  | literal _ | load _ | receiver | getStatic _ => 0
  | getField operand _ | widen operand _ _ | cast _ operand | pop operand => operand.labelCount
  | newInstance _ arguments | invokeStatic _ arguments => labelCounts arguments
  | invoke target _ arguments => target.labelCount + labelCounts arguments
  | not operand => operand.labelCount + 2
  | or lhs rhs => lhs.labelCount + rhs.labelCount + 3
  | conditional test onTrue onFalse =>
      test.labelCount + onTrue.labelCount + onFalse.labelCount + 2
  | eq lhs rhs _ | gt lhs rhs _ => lhs.labelCount + rhs.labelCount + 2
  | arithmetic _ lhs rhs _ => lhs.labelCount + rhs.labelCount
  | newArray _ elements => labelCounts elements

/-- The number of labels that a list of trees creates. -/
def labelCounts : List Expr → Nat
  | [] => 0
  | e :: es => e.labelCount + labelCounts es

end

mutual

/-- The moves of a tree whose labels are numbered from `first` on. -/
def moves (config : Config) (first : Nat) : Expr → List Move
  | literal value => [.emit (value.push config)]
  | load source => guarded (Selection.load source) fun i => [.emit i]
  | receiver => [.emit (.load .reference 0)]
  | getField target field =>
      guarded (Selection.fieldAccess config.naming field true) fun access =>
        consumed target (moves config first target) ++ [.emit (.getField access)]
  | getStatic field =>
      guarded (Selection.fieldAccess config.naming field false) fun access =>
        [.emit (.getStatic access)]
  | newInstance constructor arguments =>
      guarded (Selection.construction config.naming constructor arguments.length) fun call =>
        .emit (.new call.owner) :: .emit .dup ::
          (argumentMoves config first arguments ++ [.emit (.invoke call)])
  | invoke target method arguments =>
      guarded (Selection.call config.naming method true arguments.length) fun call =>
        consumed target (moves config first target) ++
          (argumentMoves config (first + target.labelCount) arguments ++ [.emit (.invoke call)])
  | invokeStatic method arguments =>
      guarded (Selection.call config.naming method false arguments.length) fun call =>
        argumentMoves config first arguments ++ [.emit (.invoke call)]
  | not operand =>
      consumed operand (moves config first operand)
        ++ truth (first + operand.labelCount) (.zero .ne)
  | or lhs rhs =>
      let onTrue := first + lhs.labelCount
      let onFalse := onTrue + 1 + rhs.labelCount
      consumed lhs (moves config first lhs) ++
        (.create :: .branch (.zero .ne) ⟨onTrue⟩ ::
          (consumed rhs (moves config (onTrue + 1) rhs) ++
            (.create :: .branch (.zero .eq) ⟨onFalse⟩ :: .place ⟨onTrue⟩ ::
              joinTruth onFalse (onFalse + 1))))
  | conditional test onTrue onFalse =>
      let otherwise := first + test.labelCount
      let done := otherwise + 1 + onTrue.labelCount
      guarded (Selection.arms onTrue onFalse) fun _ =>
        consumed test (moves config first test) ++
          (.create :: .branch (.zero .eq) ⟨otherwise⟩ ::
            (moves config (otherwise + 1) onTrue ++
              (.create :: .goto ⟨done⟩ :: .place ⟨otherwise⟩ ::
                (moves config (done + 1) onFalse ++ [.place ⟨done⟩]))))
  | eq lhs rhs type =>
      guarded (Selection.equality type) fun comparison =>
        consumed lhs (moves config first lhs) ++
          (consumed rhs (moves config (first + lhs.labelCount) rhs) ++
            decideBy (first + lhs.labelCount + rhs.labelCount) comparison)
  | gt lhs rhs type =>
      guarded (Selection.ordering type) fun comparison =>
        consumed lhs (moves config first lhs) ++
          (consumed rhs (moves config (first + lhs.labelCount) rhs) ++
            decideBy (first + lhs.labelCount + rhs.labelCount) comparison)
  | arithmetic op lhs rhs type =>
      guarded (Selection.arithmetic op type) fun i =>
        consumed lhs (moves config first lhs) ++
          (consumed rhs (moves config (first + lhs.labelCount) rhs) ++ [.emit i])
  | widen operand source target =>
      guarded (Selection.widening source target) fun conversion =>
        consumed operand (moves config first operand) ++ conversion.toList.map .emit
  | cast target operand =>
      guarded (Selection.cast config.naming target) fun i =>
        consumed operand (moves config first operand) ++ [.emit i]
  | newArray element elements =>
      guarded (Selection.newArray config.naming element) fun allocation =>
        guarded (Selection.arrayStore element) fun store =>
          guarded (Selection.arrayLength elements) fun length =>
            .emit (.pushInt config.options.compactConstants (.ofNat length)) ::
              .emit allocation :: elementMoves config store first 0 elements
  | pop operand => consumed operand (moves config first operand) ++ [.emit .pop]

/-- The moves of arguments, from left to right. -/
def argumentMoves (config : Config) (first : Nat) : List Expr → List Move
  | [] => []
  | e :: es =>
      consumed e (moves config first e) ++ argumentMoves config (first + e.labelCount) es

/-- The moves of array elements with their stores, from `index` on. -/
def elementMoves (config : Config) (store : Instruction) (first index : Nat) :
    List Expr → List Move
  | [] => []
  | e :: es =>
      .emit .dup :: .emit (.pushInt config.options.compactConstants (.ofNat index)) ::
        (consumed e (moves config first e) ++
          (.emit store :: elementMoves config store (first + e.labelCount) (index + 1) es))

end

end Expr

/-! ### Lowering follows the moves -/

section Follows

variable {σ : Type} [Sink σ]

/-- From every session with `first` labels, `code` does what the moves do, and
where it succeeds there are `count` labels more. -/
def Follows (first : Nat) (code : Lowering σ Unit) (ms : List Move) (count : Nat) : Prop :=
  ∀ s : Session σ, s.labels.size = first →
    code.run s = (follow ms).run s ∧
      ∀ s', code.run s = .ok () s' → s'.labels.size = first + count

namespace Follows

variable {first count m n : Nat} {code next : Lowering σ Unit} {ms ns : List Move}

lemma pure : Follows first (pure () : Lowering σ Unit) [] 0 := by
  intro s hs
  refine ⟨rfl, ?_⟩
  rintro s' ⟨⟩
  exact hs

lemma bind (h : Follows first code ms m) (h' : Follows (first + m) next ns n)
    (hcount : count = m + n) : Follows first (do code; next) (ms ++ ns) count := by
  intro s hs
  obtain ⟨hrun, hsize⟩ := h s hs
  rw [follow_append, EStateM.run_bind, EStateM.run_bind, ← hrun]
  cases hcode : code.run s with
  | error fault s₁ =>
      refine ⟨rfl, ?_⟩
      rintro s' ⟨⟩
  | ok u s₁ =>
      obtain ⟨hrun', hsize'⟩ := h' s₁ (hsize s₁ hcode)
      refine ⟨hrun', fun s' hs' => ?_⟩
      rw [hsize' s' hs', hcount, Nat.add_assoc]

lemma require {α : Type} {choice : Except Fault α} {after : α → Lowering σ Unit}
    {next : α → List Move} (h : ∀ a, Follows first (after a) (next a) count) :
    Follows first (Lowering.require choice >>= after) (Move.guarded choice next) count := by
  intro s hs
  cases choice with
  | ok a => exact h a s hs
  | error fault =>
      refine ⟨rfl, ?_⟩
      rintro s' ⟨⟩

lemma valueOf {e : Expr} (h : Follows first code ms count) :
    Follows first (Lowering.valueOf e code) (Move.consumed e ms) count :=
  require fun _ => h

lemma newLabel {after : Label → Lowering σ Unit} (h : Follows (first + 1) (after ⟨first⟩) ms n)
    (hcount : count = n + 1) :
    Follows first (Lowering.newLabel >>= after) (.create :: ms) count := by
  intro s hs
  rw [follow, Move.perform, EStateM.run_bind, EStateM.run_bind, EStateM.run_bind,
    Lowering.newLabel, Lowering.run_onLabels, LabelTable.run_create, hs]
  -- the new label has the number of the labels so far, which is why `after` is asked at `first`
  by_cases hlt : first < LabelTable.limit
  · rw [if_pos hlt]
    have hsize : (⟨s.labels.states.push (.pending none)⟩ : LabelTable).size = first + 1 := by
      rw [LabelTable.size, Array.size_push, ← hs, LabelTable.size]
    obtain ⟨hrun', hsize'⟩ := h { s with labels := ⟨s.labels.states.push (.pending none)⟩ } hsize
    refine ⟨hrun', fun s' hs' => ?_⟩
    rw [hsize' s' hs', hcount]
    omega
  · rw [if_neg hlt]
    refine ⟨rfl, ?_⟩
    rintro s' ⟨⟩

/-- A move that creates no label is followed by making it. -/
lemma perform (move : Move)
    (h : ∀ s s' : Session σ, move.perform.run s = .ok () s' → s'.labels.size = s.labels.size) :
    Follows first (move.perform : Lowering σ Unit) [move] 0 := by
  intro s hs
  refine ⟨?_, fun s' hs' => by rw [h s s' hs', hs, Nat.add_zero]⟩
  rw [follow, follow, bind_pure_unit]

lemma emit (i : Instruction) : Follows first (Lowering.emit i : Lowering σ Unit) [.emit i] 0 := by
  refine perform (.emit i) ?_
  rintro s s' ⟨⟩
  rfl

/-- An instruction ahead of other code creates no label. -/
lemma emit_bind (i : Instruction) (h : Follows first next ns count) :
    Follows first (do Lowering.emit i; next) (.emit i :: ns) count :=
  (emit i).bind h (Nat.zero_add _).symm

omit [Sink σ] in
lemma size_reference {target : Label} {s s' : Session σ}
    (h : (Lowering.reference target).run s = .ok () s') : s'.labels.size = s.labels.size := by
  rw [Lowering.run_reference, Lowering.run_onLabels] at h
  split at h
  · cases h
    exact LabelTable.size_reference ‹_›
  · cases h

lemma branch (condition : Condition) (target : Label) :
    Follows first (Lowering.branch condition target : Lowering σ Unit)
      [.branch condition target] 0 := by
  refine perform (.branch condition target) fun s s' h => ?_
  rw [Move.perform, Lowering.branch, EStateM.run_bind, Lowering.run_emit] at h
  rw [size_reference h]

lemma goto (target : Label) :
    Follows first (Lowering.goto target : Lowering σ Unit) [.goto target] 0 := by
  refine perform (.goto target) fun s s' h => ?_
  rw [Move.perform, Lowering.goto, EStateM.run_bind, Lowering.run_emit] at h
  simp only [EStateM.run_bind] at h
  split at h
  · rename_i s₁ href
    have hsize := size_reference href
    cases h
    exact hsize
  · cases h

lemma place (label : Label) :
    Follows first (Lowering.place label : Lowering σ Unit) [.place label] 0 := by
  refine perform (.place label) fun s s' h => ?_
  rw [Move.perform, Lowering.run_place] at h
  split at h
  · cases h
    exact LabelTable.size_place ‹_›
  · cases h

/-- The end of a construct that leaves a truth value. -/
lemma joinTruth (onFalse : Nat) :
    Follows first (Lowering.joinTruth ⟨onFalse⟩ : Lowering σ Unit)
      (Move.joinTruth onFalse first) 1 :=
  (emit _).bind
    (newLabel ((goto _).bind ((place _).bind ((emit _).bind (place _) rfl) rfl) rfl) rfl) rfl

lemma truth (jumpIfFalse : Condition) :
    Follows first (Lowering.truth jumpIfFalse : Lowering σ Unit)
      (Move.truth first jumpIfFalse) 2 :=
  newLabel ((branch _ _).bind (joinTruth first) rfl) rfl

lemma decideBy (comparison : Selection.Comparison) :
    Follows first (Lowering.decideBy comparison : Lowering σ Unit)
      (Move.decideBy first comparison) 2 := by
  rcases comparison with ⟨_ | comparator, jumpIfFalse⟩
  · exact pure.bind (truth jumpIfFalse) rfl
  · exact (emit _).bind (truth jumpIfFalse) rfl

end Follows

namespace Expr

variable (config : Config)

lemma lowerArguments_follows (arguments : List Expr)
    (ih : ∀ e ∈ arguments, ∀ first, Follows first (e.lower config : Lowering σ Unit)
      (e.moves config first) e.labelCount) (first : Nat) :
    Follows first (lowerArguments config arguments : Lowering σ Unit)
      (argumentMoves config first arguments) (labelCounts arguments) := by
  induction arguments generalizing first with
  | nil =>
      simp only [lowerArguments, argumentMoves, labelCounts]
      exact .pure
  | cons e es ihes =>
      simp only [lowerArguments, argumentMoves, labelCounts]
      have hhead := ih e List.mem_cons_self first
      have htail := ihes (fun e' he' => ih e' (List.mem_cons_of_mem _ he')) (first + e.labelCount)
      exact hhead.valueOf.bind htail rfl

lemma lowerElements_follows (store : Instruction) (elements : List Expr)
    (ih : ∀ e ∈ elements, ∀ first, Follows first (e.lower config : Lowering σ Unit)
      (e.moves config first) e.labelCount) (first index : Nat) :
    Follows first (lowerElements config store index elements : Lowering σ Unit)
      (elementMoves config store first index elements) (labelCounts elements) := by
  induction elements generalizing first index with
  | nil =>
      simp only [lowerElements, elementMoves, labelCounts]
      exact .pure
  | cons e es ihes =>
      simp only [lowerElements, elementMoves, labelCounts]
      have hhead := ih e List.mem_cons_self first
      have htail := ihes (fun e' he' => ih e' (List.mem_cons_of_mem _ he')) (first + e.labelCount)
        (index + 1)
      exact .emit_bind _ (.emit_bind _ (hhead.valueOf.bind (.emit_bind _ htail) rfl))

/-- A tree is lowered by its moves. -/
lemma lower_follows (e : Expr) : ∀ first,
    Follows first (e.lower config : Lowering σ Unit) (e.moves config first) e.labelCount := by
  induction e using Expr.induct with
  | literal value =>
      intro first
      simp only [lower, moves, labelCount]
      exact .emit _
  | load source =>
      intro first
      simp only [lower, moves, labelCount]
      exact .require fun i => .emit i
  | receiver =>
      intro first
      simp only [lower, moves, labelCount]
      exact .emit _
  | getField target field ih =>
      intro first
      simp only [lower, moves, labelCount]
      exact .require fun access => (ih first).valueOf.bind (.emit _) rfl
  | getStatic field =>
      intro first
      simp only [lower, moves, labelCount]
      exact .require fun access => .emit _
  | newInstance constructor arguments ih =>
      intro first
      simp only [lower, moves, labelCount]
      have hargs := lowerArguments_follows config arguments ih first
      exact .require fun call => .emit_bind _ (.emit_bind _ (hargs.bind (.emit _) rfl))
  | invoke target method arguments ih ihs =>
      intro first
      simp only [lower, moves, labelCount]
      have hargs := lowerArguments_follows config arguments ihs (first + target.labelCount)
      exact .require fun call => (ih first).valueOf.bind (hargs.bind (.emit _) rfl) rfl
  | invokeStatic method arguments ih =>
      intro first
      simp only [lower, moves, labelCount]
      have hargs := lowerArguments_follows config arguments ih first
      exact .require fun call => hargs.bind (.emit _) rfl
  | not operand ih =>
      intro first
      simp only [lower, moves, labelCount]
      exact (ih first).valueOf.bind (.truth _) rfl
  | or lhs rhs ihl ihr =>
      intro first
      simp only [lower, moves, labelCount]
      refine (ihl first).valueOf.bind (.newLabel ((Follows.branch _ _).bind
        ((ihr _).valueOf.bind (.newLabel ((Follows.branch _ _).bind ((Follows.place _).bind
          (.joinTruth _) rfl) rfl) rfl) rfl) rfl) rfl) ?_
      omega
  | conditional test onTrue onFalse iht ihl ihr =>
      intro first
      simp only [lower, moves, labelCount]
      refine .require fun _ => (iht first).valueOf.bind (.newLabel ((Follows.branch _ _).bind
        ((ihl _).bind (.newLabel ((Follows.goto _).bind ((Follows.place _).bind
          ((ihr _).bind (.place _) rfl) rfl) rfl) rfl) rfl) rfl) rfl) ?_
      omega
  | eq lhs rhs type ihl ihr =>
      intro first
      simp only [lower, moves, labelCount]
      exact .require fun comparison => (ihl first).valueOf.bind
        ((ihr _).valueOf.bind (.decideBy _) rfl) (Nat.add_assoc _ _ _)
  | gt lhs rhs type ihl ihr =>
      intro first
      simp only [lower, moves, labelCount]
      exact .require fun comparison => (ihl first).valueOf.bind
        ((ihr _).valueOf.bind (.decideBy _) rfl) (Nat.add_assoc _ _ _)
  | arithmetic op lhs rhs type ihl ihr =>
      intro first
      simp only [lower, moves, labelCount]
      exact .require fun i => (ihl first).valueOf.bind ((ihr _).valueOf.bind (.emit _) rfl) rfl
  | widen operand source target ih =>
      intro first
      simp only [lower, moves, labelCount]
      refine .require fun conversion => ?_
      cases conversion with
      | none => exact (ih first).valueOf.bind .pure rfl
      | some i => exact (ih first).valueOf.bind (.emit i) rfl
  | cast target operand ih =>
      intro first
      simp only [lower, moves, labelCount]
      exact .require fun i => (ih first).valueOf.bind (.emit _) rfl
  | newArray element elements ih =>
      intro first
      simp only [lower, moves, labelCount]
      refine .require fun allocation => .require fun store => .require fun length => ?_
      have helems := lowerElements_follows config store elements ih first 0
      exact .emit_bind _ (.emit_bind _ helems)
  | pop operand ih =>
      intro first
      simp only [lower, moves, labelCount]
      exact (ih first).valueOf.bind (.emit _) rfl

/-- **Lowering a tree is following its moves**, numbered from the first free
label on, in every session and with every outcome. -/
theorem lower_eq_follow (e : Expr) (s : Session σ) :
    (e.lower config).run s = (follow (e.moves config s.labels.size)).run s :=
  (lower_follows config e _ s rfl).1

end Expr

end Follows

end StackLowering
