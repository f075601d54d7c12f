import StackLowering.Proofs.Decoding

/-!
The instructions that lowering makes use of.

* `Instruction.Encodable`: the format has an encoding for the operands of an instruction.
* `Expr.callSites`: the nodes of a tree that call a method, in the order of their calls.
* `Naming.Answers`: a call is the one of a node, with one argument for each tree that the node has
  as an argument.
* `Move.Serves`, `Expr.serves_moves`: the moves of a tree emit instructions that can be encoded, and
  call for the call sites in order.
* `Session.step_encodable`: so does every step of a session, up to where it fails.
-/

namespace StackLowering

/-! ### Instructions that can be encoded -/

/-- The conditions of the branches that lowering makes use of. -/
def Condition.used : List Condition :=
  [.zero .eq, .zero .ne, .zero .le, .ints .ne, .ints .le, .distinct]

namespace Instruction

/-- The format has an encoding for an instruction with its operands.  The integers with
instructions of their own are those from 0 to 5, arrays of references are allocated by an
instruction of their own, conversions widen, and branches have one of the conditions in use. -/
def Encodable : Instruction → Prop
  | iconst value => value.toNat ≤ 5
  | newArray kind => kind.typeCode?.isSome = true
  | convert source target => source.rank < target.rank
  | branch condition _ => condition ∈ Condition.used
  | _ => True

/-- An instruction can be encoded, and it neither allocates an object nor calls a method. -/
structure Plain (i : Instruction) : Prop where
  encodable : i.Encodable
  ne_new : ∀ type, i ≠ .new type
  call? : i.call? = none

lemma plain_pushInt (compact : Bool) (n : Int32) : (pushInt compact n).Plain := by
  refine ⟨?_, fun type heq => ?_, call?_pushInt compact n⟩
  · simp only [pushInt]
    split_ifs with hcompact hown
    · trivial
    · show (UInt8.ofNat n.toInt.toNat).toNat ≤ 5
      rw [UInt8.toNat_ofNat']
      omega
    all_goals trivial
  · have hpushed := pushedInt?_pushInt compact n
    rw [heq] at hpushed
    cases hpushed

end Instruction

lemma Literal.plain_push (config : Config) (value : Literal) : (value.push config).Plain := by
  have hplain {i : Instruction} (hencodable : i.Encodable) (hnew : ∀ type, i ≠ .new type)
      (hcall : i.call? = none) : i.Plain := ⟨hencodable, hnew, hcall⟩
  cases value with
  | bool value =>
      have hle : ∀ b : Bool, b.toUInt8.toNat ≤ 5 := by decide
      exact hplain (hle value) (by simp [push]) rfl
  | byte n | short n | char n | int n => exact Instruction.plain_pushInt _ _
  | classOf type =>
      show (pushClass config.naming type).Plain
      unfold pushClass
      split <;> exact hplain trivial (by simp) rfl
  | _ => exact hplain trivial (by simp [push]) rfl

namespace Selection

lemma plain_newArray {naming : Naming} {element : Ty} {i : Instruction}
    (h : newArray naming element = .ok i) : i.Plain := by
  obtain ⟨kind, -, rfl⟩ := newArray_eq_ok.mp h
  cases kind <;> exact ⟨by trivial, by simp, rfl⟩

lemma plain_arrayStore {element : Ty} {i : Instruction} (h : arrayStore element = .ok i) :
    i.Plain := by
  obtain ⟨kind, -, rfl⟩ := arrayStore_eq_ok.mp h
  exact ⟨trivial, by simp, rfl⟩

lemma plain_widening {source target : Ty} {i : Instruction}
    (h : widening source target = .ok (some i)) : i.Plain := by
  obtain ⟨s, t, -, -, ⟨-, heq⟩ | ⟨hlt, heq⟩⟩ := widening_eq_ok.mp h
  · cases heq
  · cases heq
    exact ⟨hlt, by simp, rfl⟩

lemma jumpIfFalse_of_equality {type : Ty} {comparison : Comparison}
    (h : equality type = .ok comparison) : comparison.jumpIfFalse ∈ Condition.used := by
  rcases equality_eq_ok.mp h with ⟨-, rfl⟩ | ⟨-, rfl⟩ | ⟨-, rfl⟩ | ⟨-, rfl⟩ | ⟨-, rfl⟩ <;> decide

lemma jumpIfFalse_of_ordering {type : Ty} {comparison : Comparison}
    (h : ordering type = .ok comparison) : comparison.jumpIfFalse ∈ Condition.used := by
  rcases ordering_eq_ok.mp h with ⟨-, rfl⟩ | ⟨-, rfl⟩ | ⟨-, rfl⟩ | ⟨-, rfl⟩ <;> decide

end Selection

/-! ### Call sites -/

namespace Expr

mutual

/-- The nodes of a tree that call a method, each as often as it occurs, in the order of the calls:
the receiver and the arguments of a call come before the call itself. -/
def callSites : Expr → List Expr
  | literal _ | load _ | receiver | getStatic _ => []
  | getField operand _ | not operand | widen operand _ _ | cast _ operand | pop operand =>
      operand.callSites
  | or lhs rhs | eq lhs rhs _ | gt lhs rhs _ | arithmetic _ lhs rhs _ =>
      lhs.callSites ++ rhs.callSites
  | conditional test onTrue onFalse => test.callSites ++ (onTrue.callSites ++ onFalse.callSites)
  | e@(newInstance _ arguments) | e@(invokeStatic _ arguments) => callSitesOf arguments ++ [e]
  | e@(invoke target _ arguments) => target.callSites ++ (callSitesOf arguments ++ [e])
  | newArray _ elements => callSitesOf elements

/-- The call sites of several trees. -/
def callSitesOf : List Expr → List Expr
  | [] => []
  | e :: es => e.callSites ++ callSitesOf es

end

/-- The method that a node calls, and the trees that it has as arguments. -/
def called? : Expr → Option (Method × List Expr)
  | newInstance method arguments | invoke _ method arguments | invokeStatic method arguments =>
      some (method, arguments)
  | _ => none

/-- A node is a call without a receiver. -/
def IsStaticCall (e : Expr) : Prop :=
  ∃ method arguments, e = .invokeStatic method arguments

end Expr

/-- A call is the one of a node: of the method that the node names, with as many arguments as the
node has trees for them, and without a receiver exactly if the node has none. -/
structure Naming.Answers (naming : Naming) (call : Call) (site : Expr) : Prop where
  static : call.dispatch = .static ↔ site.IsStaticCall
  called : ∃ method arguments, site.called? = some (method, arguments) ∧
    call = naming.call method ∧ call.arguments = arguments.length

namespace Naming

variable {naming : Naming} {method : Method} {arguments : List Expr} {call : Call}

/-- The call of a node that has not been refused. -/
lemma answers_of_callWith {site : Expr}
    (hwith : Selection.callWith naming method arguments.length = .ok call)
    (hcalled : site.called? = some (method, arguments))
    (hstatic : method.dispatch = .static ↔ site.IsStaticCall) : naming.Answers call site := by
  obtain ⟨hlength, rfl⟩ := Selection.callWith_eq_ok.mp hwith
  refine ⟨hstatic, method, arguments, hcalled, ?_, rfl⟩
  rw [hlength]
  rfl

lemma answers_newInstance
    (h : Selection.construction naming method arguments.length = .ok call) :
    naming.Answers call (.newInstance method arguments) := by
  obtain ⟨hdispatch, hwith⟩ := Selection.construction_eq_ok.mp h
  exact answers_of_callWith hwith rfl (by simp [hdispatch, Expr.IsStaticCall])

lemma answers_invoke {target : Expr}
    (h : Selection.call naming method true arguments.length = .ok call) :
    naming.Answers call (.invoke target method arguments) := by
  obtain ⟨hreceiver, hwith⟩ := Selection.call_eq_ok.mp h
  refine answers_of_callWith hwith rfl ⟨fun hstatic => ?_, fun ⟨_, _, hsite⟩ => ?_⟩
  · rw [hstatic] at hreceiver
    cases hreceiver
  · cases hsite

lemma answers_invokeStatic
    (h : Selection.call naming method false arguments.length = .ok call) :
    naming.Answers call (.invokeStatic method arguments) := by
  obtain ⟨hreceiver, hwith⟩ := Selection.call_eq_ok.mp h
  refine answers_of_callWith hwith rfl ⟨fun _ => ⟨method, arguments, rfl⟩, fun _ => ?_⟩
  cases hdispatch : method.dispatch with
  | static => rfl
  | _ =>
      rw [hdispatch] at hreceiver
      cases hreceiver

end Naming

/-! ### Moves -/

namespace Move

/-- Moves emit instructions that can be encoded, with a second reference behind each allocation of
an object, and they call for the nodes given, in order.  Behind a refusal no move counts. -/
inductive Serves (naming : Naming) : List Move → List Expr → Prop
  | nil : Serves naming [] []
  | refuse (fault : Fault) (ms : List Move) (sites : List Expr) :
      Serves naming (.refuse fault :: ms) sites
  | cons {m : Move} {ms : List Move} {sites : List Expr}
      (hm : ∀ i, m.event? = some (.emitted i) → i.Plain) (h : Serves naming ms sites) :
      Serves naming (m :: ms) sites
  | new (type : String) {ms : List Move} {sites : List Expr} (h : Serves naming ms sites) :
      Serves naming (.emit (.new type) :: .emit .dup :: ms) sites
  | call {call : Call} {site : Expr} {ms : List Move} {sites : List Expr}
      (hsite : naming.Answers call site) (h : Serves naming ms sites) :
      Serves naming (.emit (.invoke call) :: ms) (site :: sites)

namespace Serves

variable {naming : Naming} {ms ns : List Move} {sites sites' : List Expr}

lemma append (h : Serves naming ms sites) (h' : Serves naming ns sites') :
    Serves naming (ms ++ ns) (sites ++ sites') := by
  induction h with
  | nil => exact h'
  | refuse fault ms sites => exact .refuse fault _ _
  | cons hm _ ih => exact .cons hm ih
  | new type _ ih => exact .new type ih
  | call hsite _ ih => exact .call hsite ih

/-- Moves behind which nothing is called. -/
lemma before (h : Serves naming ms sites) (h' : Serves naming ns []) :
    Serves naming (ms ++ ns) sites :=
  List.append_nil sites ▸ h.append h'

lemma emit {i : Instruction} (hi : i.Plain) (h : Serves naming ms sites) :
    Serves naming (.emit i :: ms) sites :=
  .cons (fun _ hj => Event.emitted.inj (Option.some.inj hj) ▸ hi) h

lemma branch {condition : Condition} (hused : condition ∈ Condition.used) (target : Label)
    (h : Serves naming ms sites) : Serves naming (.branch condition target :: ms) sites := by
  refine .cons (fun i hi => ?_) h
  cases hi
  exact ⟨hused, by simp, rfl⟩

lemma goto (target : Label) (h : Serves naming ms sites) :
    Serves naming (.goto target :: ms) sites := by
  refine .cons (fun i hi => ?_) h
  cases hi
  exact ⟨trivial, by simp, rfl⟩

/-- Moves that emit nothing. -/
lemma silent {m : Move} (hm : ∀ i, m.event? ≠ some (.emitted i)) (h : Serves naming ms sites) :
    Serves naming (m :: ms) sites :=
  .cons (fun i hi => absurd hi (hm i)) h

lemma guarded {α : Type} {choice : Except Fault α} {next : α → List Move}
    (h : ∀ a, choice = .ok a → Serves naming (next a) sites) :
    Serves naming (Move.guarded choice next) sites := by
  cases choice with
  | ok a => exact h a rfl
  | error fault => exact .refuse fault [] sites

lemma consumed {e : Expr} (h : Serves naming ms sites) : Serves naming (Move.consumed e ms) sites :=
  guarded fun _ _ => h

lemma joinTruth (onFalse done : Nat) : Serves naming (Move.joinTruth onFalse done) [] := by
  have htruth {value : UInt8} (hle : value.toNat ≤ 5) : (Instruction.iconst value).Plain :=
    ⟨hle, by simp, rfl⟩
  exact .emit (htruth (by decide)) (.silent (by simp [event?]) (.goto _ (.silent (by simp [event?])
    (.emit (htruth (by decide)) (.silent (by simp [event?]) .nil)))))

lemma truth (first : Nat) {condition : Condition} (hused : condition ∈ Condition.used) :
    Serves naming (Move.truth first condition) [] :=
  .silent (by simp [event?]) (.branch hused _ (.joinTruth _ _))

lemma decideBy (first : Nat) {comparison : Selection.Comparison}
    (hused : comparison.jumpIfFalse ∈ Condition.used) :
    Serves naming (Move.decideBy first comparison) [] := by
  rw [Move.decideBy]
  cases comparison.reduce with
  | none => exact .truth _ hused
  | some comparator => exact .emit ⟨trivial, by simp, rfl⟩ (.truth _ hused)

end Serves

end Move

namespace Expr

open Move (Serves)

variable (config : Config)

lemma serves_argumentMoves {arguments : List Expr}
    (ih : ∀ e ∈ arguments, ∀ first, Serves config.naming (e.moves config first) e.callSites)
    (first : Nat) :
    Serves config.naming (argumentMoves config first arguments) (callSitesOf arguments) := by
  induction arguments generalizing first with
  | nil => exact .nil
  | cons e es ihes =>
      obtain ⟨he, hes⟩ := List.forall_mem_cons.mp ih
      rw [argumentMoves, callSitesOf]
      exact (he first).consumed.append (ihes hes _)

lemma serves_elementMoves {store : Instruction} (hstore : store.Plain) {elements : List Expr}
    (ih : ∀ e ∈ elements, ∀ first, Serves config.naming (e.moves config first) e.callSites)
    (first index : Nat) :
    Serves config.naming (elementMoves config store first index elements)
      (callSitesOf elements) := by
  induction elements generalizing first index with
  | nil => exact .nil
  | cons e es ihes =>
      obtain ⟨he, hes⟩ := List.forall_mem_cons.mp ih
      rw [elementMoves, callSitesOf]
      exact .emit ⟨trivial, by simp, rfl⟩ (.emit (Instruction.plain_pushInt _ _)
        ((he first).consumed.append (.emit hstore (ihes hes _ _))))

/-- Two operands, and moves behind them that call nothing. -/
lemma serves_operands {lhs rhs : Expr} {first : Nat} {ns : List Move}
    (ihl : ∀ first, Serves config.naming (lhs.moves config first) lhs.callSites)
    (ihr : ∀ first, Serves config.naming (rhs.moves config first) rhs.callSites)
    (hns : Serves config.naming ns []) :
    Serves config.naming (Move.consumed lhs (lhs.moves config first) ++
        (Move.consumed rhs (rhs.moves config (first + lhs.labelCount)) ++ ns))
      (lhs.callSites ++ rhs.callSites) :=
  (ihl _).consumed.append ((ihr _).consumed.before hns)

/-- **The moves of a tree** emit instructions that can be encoded, and call for its call sites. -/
theorem serves_moves (e : Expr) : ∀ first,
    Serves config.naming (e.moves config first) e.callSites := by
  have hlast {i : Instruction} (hencodable : i.Encodable) (hnew : ∀ type, i ≠ .new type)
      (hcall : i.call? = none) : Serves config.naming [.emit i] [] :=
    .emit ⟨hencodable, hnew, hcall⟩ .nil
  have hsilent {m : Move} {ms : List Move} {sites : List Expr} (hm : m.event? = none)
      (h : Serves config.naming ms sites) : Serves config.naming (m :: ms) sites :=
    .silent (fun i hi => by rw [hm] at hi; cases hi) h
  have hplaced {label : Label} {ms : List Move} {sites : List Expr}
      (h : Serves config.naming ms sites) : Serves config.naming (.place label :: ms) sites :=
    .silent (fun i hi => by cases hi) h
  induction e using Expr.induct with
  | literal value => exact fun first => .emit (value.plain_push config) .nil
  | load source =>
      refine fun first => .guarded fun i hi => ?_
      obtain ⟨c, -, rfl⟩ := Selection.load_eq_ok.mp hi
      exact hlast trivial (by simp) rfl
  | receiver => exact fun first => hlast trivial (by simp) rfl
  | getField target field ih =>
      exact fun first => .guarded fun access _ =>
        (ih first).consumed.before (hlast trivial (by simp) rfl)
  | getStatic field => exact fun first => .guarded fun access _ => hlast trivial (by simp) rfl
  | newInstance constructor arguments ih =>
      refine fun first => .guarded fun call hok => .new _ ?_
      rw [callSites]
      exact (serves_argumentMoves config ih first).append
        (.call (Naming.answers_newInstance hok) .nil)
  | invoke target method arguments ih ihs =>
      refine fun first => .guarded fun call hok => ?_
      rw [callSites]
      exact (ih first).consumed.append ((serves_argumentMoves config ihs _).append
        (.call (Naming.answers_invoke hok) .nil))
  | invokeStatic method arguments ih =>
      refine fun first => .guarded fun call hok => ?_
      rw [callSites]
      exact (serves_argumentMoves config ih first).append
        (.call (Naming.answers_invokeStatic hok) .nil)
  | not operand ih => exact fun first => (ih first).consumed.before (.truth _ (by decide))
  | or lhs rhs ihl ihr =>
      intro first
      rw [moves, callSites]
      exact (ihl _).consumed.append (hsilent rfl (.branch (by decide) _
        ((ihr _).consumed.before (hsilent rfl (.branch (by decide) _
          (hplaced (.joinTruth _ _)))))))
  | conditional test onTrue onFalse iht ihl ihr =>
      refine fun first => .guarded fun _ _ => ?_
      rw [callSites]
      exact (iht _).consumed.append (hsilent rfl (.branch (by decide) _ ((ihl _).append
        (hsilent rfl (.goto _ (hplaced ((ihr _).before (hplaced .nil))))))))
  | eq lhs rhs type ihl ihr =>
      exact fun first => .guarded fun comparison hok =>
        serves_operands config ihl ihr (.decideBy _ (Selection.jumpIfFalse_of_equality hok))
  | gt lhs rhs type ihl ihr =>
      exact fun first => .guarded fun comparison hok =>
        serves_operands config ihl ihr (.decideBy _ (Selection.jumpIfFalse_of_ordering hok))
  | arithmetic op lhs rhs type ihl ihr =>
      refine fun first => .guarded fun i hi => serves_operands config ihl ihr ?_
      obtain ⟨n, -, rfl⟩ := Selection.arithmetic_eq_ok.mp hi
      exact hlast trivial (by simp) rfl
  | widen operand source target ih =>
      refine fun first => .guarded fun conversion hi => (ih first).consumed.before ?_
      cases conversion with
      | none => exact .nil
      | some i => exact .emit (Selection.plain_widening hi) .nil
  | cast target operand ih =>
      refine fun first => .guarded fun i hi => (ih first).consumed.before ?_
      obtain ⟨-, rfl⟩ := Selection.cast_eq_ok.mp hi
      exact hlast trivial (by simp) rfl
  | newArray element elements ih =>
      refine fun first => .guarded fun allocation hallocation => .guarded fun store hstore =>
        .guarded fun length _ => .emit (Instruction.plain_pushInt _ _)
          (.emit (Selection.plain_newArray hallocation) ?_)
      exact serves_elementMoves config (Selection.plain_arrayStore hstore) ih first 0
  | pop operand ih =>
      exact fun first => (ih first).consumed.before (hlast trivial (by simp) rfl)

end Expr

/-! ### Runs and steps -/

/-- What a sink is told can be encoded: each instruction on its own, a second reference right
behind each allocation of an object, and the calls for the nodes given, one for each in order. -/
structure Event.Encodable (naming : Naming) (items : List Event) (sites : List Expr) : Prop where
  instructions : ∀ i, .emitted i ∈ items → i.Encodable
  doubled : ∀ before type after, items = before ++ .emitted (.new type) :: after →
    ∃ rest, after = .emitted .dup :: rest
  calls : List.Forall₂ naming.Answers (items.filterMap Event.call?) sites

namespace Event.Encodable

variable {naming : Naming} {items : List Event} {sites : List Expr}

lemma nil : Encodable naming [] [] where
  instructions i hi := absurd hi List.not_mem_nil
  doubled before type after h := by simp at h
  calls := .nil

/-- One more event ahead, which does not allocate an object. -/
lemma cons {item : Event} {sites' : List Expr} (hitem : ∀ i, item = .emitted i → i.Encodable)
    (hnew : ∀ type, item ≠ .emitted (.new type))
    (hcalls : List.Forall₂ naming.Answers (item.call?.toList ++ items.filterMap Event.call?) sites')
    (h : Encodable naming items sites) : Encodable naming (item :: items) sites' where
  instructions i hi := by
    rcases List.mem_cons.mp hi with heq | hi
    · exact hitem i heq.symm
    · exact h.instructions i hi
  doubled before type after heq := by
    cases before with
    | nil => exact absurd (List.cons.inj heq).1 (hnew type)
    | cons first before => exact h.doubled before type after (List.cons.inj heq).2
  calls := by
    rw [List.filterMap_cons]
    cases hcall : item.call? <;> rw [hcall] at hcalls <;> exact hcalls

lemma plain {i : Instruction} (hi : i.Plain) (h : Encodable naming items sites) :
    Encodable naming (.emitted i :: items) sites := by
  refine h.cons (fun j hj => Event.emitted.inj hj ▸ hi.encodable)
    (fun type heq => hi.ne_new type (Event.emitted.inj heq)) ?_
  rw [Event.call?, hi.call?]
  exact h.calls

lemma placed (label : Label) (h : Encodable naming items sites) :
    Encodable naming (.placed label :: items) sites :=
  h.cons (fun j hj => by cases hj) (fun type heq => by cases heq) h.calls

lemma call {call : Call} {site : Expr} (hsite : naming.Answers call site)
    (h : Encodable naming items sites) :
    Encodable naming (.emitted (.invoke call) :: items) (site :: sites) :=
  h.cons (fun j hj => Event.emitted.inj hj ▸ trivial) (by simp) (.cons hsite h.calls)

lemma new (type : String) (h : Encodable naming items sites) :
    Encodable naming (.emitted (.new type) :: .emitted .dup :: items) sites := by
  have hdup : Encodable naming (.emitted .dup :: items) sites :=
    h.plain ⟨trivial, by simp, rfl⟩
  refine ⟨fun i hi => ?_, fun before type' after heq => ?_, h.calls⟩
  · rcases List.mem_cons.mp hi with heq | hi
    · cases heq
      trivial
    · exact hdup.instructions i hi
  · cases before with
    | nil => exact ⟨items, (List.cons.inj heq).2.symm⟩
    | cons first before => exact hdup.doubled before type' after (List.cons.inj heq).2

end Event.Encodable

section Runs

variable {σ : Type} [Sink σ] {floor : Nat} {Q : Session σ → Prop} {R : Fault → Session σ → Prop}

/-- The first move of a safe run succeeds, and then the others are made, or the run ends there. -/
lemma Leads.run_cons {m : Move} {ms : List Move} {s : Session σ}
    (h : Leads (Safe floor) Q R (m :: ms) s) :
    (Leads (Safe floor) Q R ms (s.moved m) ∧
      (follow (m :: ms)).run s = (follow ms).run (s.moved m)) ∨
    ∃ fault, (follow (m :: ms)).run s = .error fault s := by
  obtain ⟨hsafe, hnext⟩ := h
  rw [follow, EStateM.run_bind]
  rcases hsafe.run_cases with ⟨hrun, -⟩ | ⟨fault, hrun⟩
  · rw [hrun] at hnext ⊢
    exact .inl ⟨hnext, rfl⟩
  · rw [hrun]
    exact .inr ⟨fault, rfl⟩

/-- An instruction is always emitted. -/
lemma Leads.run_emit {i : Instruction} {ms : List Move} {s : Session σ}
    (h : Leads (Safe floor) Q R (.emit i :: ms) s) :
    Leads (Safe floor) Q R ms (s.emitted i) ∧
      (follow (.emit i :: ms)).run s = (follow ms).run (s.emitted i) :=
  ⟨h.2, rfl⟩

/-- Wherever the run of these moves ends, it has told the sink what can be encoded, with the calls
for a beginning of the sites, and for all of them if it has succeeded. -/
def Move.Encodes (naming : Naming) (ms : List Move) (sites : List Expr) (s : Session σ) : Prop :=
  ∃ items served, (Lowering.last (follow ms) s).sink = Sink.tell s.sink items ∧
    Event.Encodable naming items served ∧ served <+: sites ∧
    ∀ s', (follow ms).run s = .ok () s' → served = sites

/-- A run that fails at its first move tells the sink nothing. -/
lemma Move.Encodes.of_error {naming : Naming} {ms : List Move} {sites : List Expr} {s : Session σ}
    (h : ∃ fault, (follow ms).run s = .error fault s) : Encodes naming ms sites s := by
  obtain ⟨fault, herror⟩ := h
  rw [Encodes, Lowering.last, herror]
  exact ⟨[], [], rfl, .nil, List.nil_prefix, fun s' hs' => by cases hs'⟩

/-- **All moves.**  A safe run of moves tells the sink what can be encoded. -/
theorem Move.Serves.run {naming : Naming} {ms : List Move} {sites : List Expr}
    (h : Serves naming ms sites) {s : Session σ} (hleads : Leads (Safe floor) Q R ms s) :
    Encodes naming ms sites s := by
  induction h generalizing s with
  | nil => exact ⟨[], [], rfl, .nil, List.nil_prefix, fun _ _ => rfl⟩
  | refuse fault ms sites => exact .of_error ⟨fault, rfl⟩
  | @cons m ms sites hm _ ih =>
      rcases hleads.run_cons with ⟨hnext, hrun⟩ | herror
      · obtain ⟨items, served, hsink, hitems, hserved, hall⟩ := ih hnext
        refine ⟨m.event?.toList ++ items, served, ?_, ?_, hserved, fun s' hs' => ?_⟩
        · rw [Lowering.last, hrun, Sink.tell_append, ← s.sink_moved m]
          exact hsink
        · cases hevent : m.event? with
          | none => exact hitems
          | some item =>
              cases item with
              | emitted i => exact hitems.plain (hm i hevent)
              | placed label => exact hitems.placed label
        · rw [hrun] at hs'
          exact hall s' hs'
      · exact .of_error herror
  -- an allocation and its second reference are both emitted, so no run ends between them
  | @new type ms sites _ ih =>
      obtain ⟨hdup, hrun⟩ := hleads.run_emit
      obtain ⟨hnext, hrun'⟩ := hdup.run_emit
      obtain ⟨items, served, hsink, hitems, hserved, hall⟩ := ih hnext
      refine ⟨_, served, ?_, hitems.new type, hserved, fun s' hs' => ?_⟩
      · rw [Lowering.last, hrun, hrun']
        exact hsink
      · rw [hrun, hrun'] at hs'
        exact hall s' hs'
  | @call call site ms sites hsite _ ih =>
      obtain ⟨hnext, hrun⟩ := hleads.run_emit
      obtain ⟨items, served, hsink, hitems, hserved, hall⟩ := ih hnext
      refine ⟨_, site :: served, ?_, hitems.call hsite,
        (List.prefix_cons_inj site).mpr hserved, fun s' hs' => ?_⟩
      · rw [Lowering.last, hrun]
        exact hsink
      · rw [hrun] at hs'
        rw [hall s' hs']

/-- **Only instructions that can be encoded are emitted.**  Take any session that has been reached
and any step in it, with all names and options, whether or not the step fails.  Each instruction
that the step emits has an encoding: an integer with an instruction of its own is at most 5, an
array that is allocated by kind has a kind with a code, a conversion goes to a wider kind, and a
branch has one of the six conditions in use.  Behind each allocation of an object there is at once a
second reference to it.  The calls are those of the call sites of the tree in order, up to where the
step fails: each has the method of its site, as many arguments as there are trees for them, and no
receiver exactly if its site is a call without one. -/
theorem Session.step_encodable {s : Session σ} (hs : s.Reached) (config : Config) (step : Step) :
    ∃ items served, (s.step config step).2.sink = Sink.tell s.sink items ∧
      Event.Encodable config.naming items served ∧ served <+: step.expr.callSites ∧
      ((s.step config step).1 = none → served = step.expr.callSites) := by
  have hleads := step.expr.moves_lead σ config 0 s hs.live (Nat.zero_le _)
  obtain ⟨items, served, hsink, hitems, hserved, hall⟩ :=
    (step.expr.serves_moves config s.labels.size).run hleads
  refine ⟨items, served, ?_, hitems, hserved, fun hfault => ?_⟩
  · rw [step_eq_last, Lowering.last, step.expr.lower_eq_follow]
    exact hsink
  · have hlower := lower_of_step (Prod.ext hfault rfl)
    rw [step.expr.lower_eq_follow] at hlower
    exact hall _ hlower

end Runs

/-- An object whose constructor takes the result of a call, after a step that has failed between
such calls. -/
theorem Session.step_encodable_of_new :
    let int : Ty := .ofPrimitive .int
    let size : Expr := .invokeStatic (.ofStatic (.classOf "java.lang" "Math") int "abs" [int])
      [.literal (.int 7)]
    let point : Expr := .newInstance (.ofConstructor (.classOf "geometry" "Point") [int, int])
      [size, .literal (.int 200)]
    let failing : Step := .lower (.eq point (.pop size) int)
    let s := (Session.start ({} : Trace)).after [({}, failing)]
    (s.Reached ∧ ((Session.start ({} : Trace)).step {} failing).1 = some (.voidValue .void) ∧
      failing.expr.callSites = [size, point, size]) ∧
    ∃ items, (s.step {} (.compile point)).2.sink = Sink.tell s.sink items ∧
      Event.Encodable .jvm items [size, point] := by
  intro int size point failing s
  have hs : s.Reached := (Session.Reached.start _).after _
  have hfailing : ((Session.start ({} : Trace)).step {} failing).1 = some (.voidValue .void) := by
    decide +kernel
  have hsites : point.callSites = [size, point] := rfl
  have hfault : (s.step {} (.compile point)).1 = none := by decide +kernel
  obtain ⟨items, served, hsink, hitems, -, hall⟩ := step_encodable hs {} (.compile point)
  have hserved : served = [size, point] := (hall hfault).trans hsites
  exact ⟨⟨hs, hfailing, rfl⟩, items, hsink, hserved ▸ hitems⟩

end StackLowering
