import StackLowering.Proofs.Descriptor
import StackLowering.Proofs.Safety

/-!
Types and signatures, read back from descriptors.

* `Ty.bare`: a type without its modifiers.
* `Ty.Legible`, `Method.Legible`: names without the characters that descriptors put between names.
* `Ty.Legible.reread`: what is read from the descriptor of a type with such names is the type.
* `Expr.methods`, `Expr.calls_moves`: the methods that a tree names, and that its moves call these
  in order.
* `Descriptor.uniquely_decodable`: descriptors determine types and signatures, and the counts that
  calls carry along are those of the signatures.
-/

namespace StackLowering

/-- The type without its modifiers and those of its components. -/
def Ty.bare : Ty → Ty
  | primitive kind _ => primitive kind ⟨0⟩
  | named package enclosing name _ => named package enclosing name ⟨0⟩
  | array component _ => array component.bare ⟨0⟩

/-! ### Names that can be read back -/

/-- No package has a slash or a semicolon in its name, and no class has a slash, a dollar sign or a
semicolon. -/
def Ty.Legible : Ty → Prop
  | primitive .. => True
  | named package enclosing name _ => ('/' ∉ package.toList ∧ ';' ∉ package.toList) ∧
      ∀ n ∈ enclosing ++ [name], '/' ∉ n.toList ∧ '$' ∉ n.toList ∧ ';' ∉ n.toList
  | array component _ => component.Legible

/-- The types of the parameters and the type that is returned have such names. -/
def Method.Legible (method : Method) : Prop :=
  ∀ t ∈ method.returns :: method.parameters, t.Legible

instance Ty.decidableLegible : DecidablePred Ty.Legible
  | primitive .. => isTrue trivial
  | named .. => inferInstanceAs (Decidable (_ ∧ _))
  | array component _ => decidableLegible component

instance Method.decidableLegible (method : Method) : Decidable method.Legible :=
  inferInstanceAs (Decidable (∀ t ∈ method.returns :: method.parameters, t.Legible))

lemma Ty.Legible.plainNames {type : Ty} (h : type.Legible) : type.PlainNames := by
  induction type with
  | primitive kind m => trivial
  | named package enclosing name m =>
      obtain ⟨hpackage, hpath⟩ := h
      exact List.forall_mem_cons.mpr ⟨hpackage.2, fun n hn => (hpath n hn).2.2⟩
  | array component m ih => exact ih h

namespace Descriptor

lemma cutPackage_of_not_mem {cs : List Char} (h : '/' ∉ cs) : cutPackage cs = (none, cs) := by
  induction cs with
  | nil => rfl
  | cons c cs ih =>
      rw [List.mem_cons, not_or] at h
      simp only [cutPackage, ih h.2, if_neg (Ne.symm h.1)]

lemma cutPackage_append {cs : List Char} (h : '/' ∉ cs) (package : List Char) :
    cutPackage (package ++ '/' :: cs) = (some package, cs) := by
  induction package with
  | nil => simp only [List.nil_append, cutPackage, cutPackage_of_not_mem h, if_true]
  | cons c package ih => rw [List.cons_append, cutPackage, ih]

/-- The path of a class leads back to it. -/
lemma classAt_binaryName {package : String} {enclosing : List String} {name : String}
    (hpackage : '/' ∉ package.toList) (hslash : ∀ n ∈ enclosing ++ [name], '/' ∉ n.toList)
    (hdollar : ∀ n ∈ enclosing ++ [name], '$' ∉ n.toList) :
    classAt (Ty.binaryName package (enclosing ++ [name])).toList
      = .named package enclosing name ⟨0⟩ := by
  have hnesting : '/' ∉ ("$".intercalate (enclosing ++ [name])).toList :=
    Ty.not_mem_intercalate (by decide) hslash
  have hnames : (("$".intercalate (enclosing ++ [name])).toList.splitOn '$').map String.ofList
      = enclosing ++ [name] := by
    have htexts : ∀ cs ∈ (enclosing ++ [name]).map String.toList, '$' ∉ cs :=
      List.forall_mem_map.mpr hdollar
    rw [String.toList_intercalate]
    show (List.splitOn '$' (List.intercalate ['$'] _)).map String.ofList = _
    rw [List.splitOn_intercalate '$' htexts (by simp), List.map_map]
    simp
  have hdots : (package.toList.map fun c => if c = '.' then '/' else c).map
      (fun c => if c = '/' then '.' else c) = package.toList := by
    rw [List.map_map]
    refine .trans (List.map_congr_left fun c hc => ?_) (List.map_id _)
    have hne : c ≠ '/' := fun heq => hpackage (heq ▸ hc)
    by_cases hdot : c = '.' <;> simp [hdot, hne]
  rw [Ty.binaryName, String.toList_append]
  split
  · rename_i hempty
    obtain rfl : package = "" := String.isEmpty_iff.mp hempty
    show classAt ("$".intercalate (enclosing ++ [name])).toList = _
    rw [classAt, cutPackage_of_not_mem hnesting]
    simp only [Option.getD_none, List.map_nil, hnames, String.ofList_nil, List.dropLast_concat,
      List.getLastD_concat]
  · rw [String.toList_append, String.toList_map, List.append_assoc]
    show classAt (_ ++ '/' :: ("$".intercalate (enclosing ++ [name])).toList) = _
    rw [classAt, cutPackage_append hnesting]
    simp only [Option.getD_some, hdots, hnames, String.ofList_toList, List.dropLast_concat,
      List.getLastD_concat]

end Descriptor

/-- **What is read from a descriptor is the type**, without its modifiers. -/
lemma Ty.Legible.reread {type : Ty} (h : type.Legible) : type.reread = type.bare := by
  induction type with
  | primitive kind m => rfl
  | named package enclosing name m =>
      obtain ⟨hpackage, hpath⟩ := h
      exact Descriptor.classAt_binaryName hpackage.1 (fun n hn => (hpath n hn).1)
        fun n hn => (hpath n hn).2.1
  | array component m ih => rw [Ty.reread, ih h, Ty.bare]

namespace Descriptor

/-- The signature of a method is decoded to the types of its parameters and the type that it
returns. -/
lemma decodeMethod_of_legible {method : Method} (h : method.Legible) :
    decodeMethod (Naming.jvm.methodDescriptor method)
      = some (method.parameters.map Ty.bare, method.returns.bare) := by
  obtain ⟨hreturns, hparameters⟩ := List.forall_mem_cons.mp h
  rw [decodeMethod_methodDescriptor hreturns.plainNames fun t ht => (hparameters t ht).plainNames,
    hreturns.reread, List.map_congr_left fun t ht => (hparameters t ht).reread]

/-- A type keeps its descriptor without its modifiers. -/
lemma descriptor_bare (type : Ty) : type.bare.descriptor = type.descriptor := by
  induction type with
  | primitive kind m => rfl
  | named package enclosing name m => rfl
  | array component m ih => rw [Ty.bare, Ty.descriptor, ih, Ty.descriptor]

/-- **Descriptors are free of prefixes**: one that begins another is of the same type. -/
lemma bare_eq_of_begins {t u : Ty} (ht : t.Legible) (hu : u.Legible)
    (h : t.descriptor.toList <+: u.descriptor.toList) : t.bare = u.bare := by
  obtain ⟨rest, hrest⟩ := h
  have hdecode := decodeType_alone hu.plainNames
  -- the longer text begins with the shorter one, so it is also decoded to the type of that
  rw [← hrest, decodeType_descriptor ht.plainNames, ht.reread, hu.reread] at hdecode
  exact congrArg Prod.fst (Option.some.inj hdecode)

lemma descriptor_eq_iff {t u : Ty} (ht : t.Legible) (hu : u.Legible) :
    t.descriptor = u.descriptor ↔ t.bare = u.bare := by
  constructor
  · intro h
    exact bare_eq_of_begins ht hu (h ▸ List.prefix_rfl)
  · intro h
    calc t.descriptor = t.bare.descriptor := (descriptor_bare t).symm
      _ = u.bare.descriptor := by rw [h]
      _ = u.descriptor := descriptor_bare u

end Descriptor

/-! ### The calls of a tree -/

namespace Expr

mutual

/-- The methods that a tree names, in the order in which they are called. -/
def methods : Expr → List Method
  | literal _ | load _ | receiver | getStatic _ => []
  | getField operand _ | not operand | widen operand _ _ | cast _ operand | pop operand =>
      operand.methods
  | or lhs rhs | eq lhs rhs _ | gt lhs rhs _ | arithmetic _ lhs rhs _ =>
      lhs.methods ++ rhs.methods
  | conditional test onTrue onFalse => test.methods ++ (onTrue.methods ++ onFalse.methods)
  | newInstance method arguments | invokeStatic method arguments =>
      methodsOf arguments ++ [method]
  | invoke target method arguments => target.methods ++ (methodsOf arguments ++ [method])
  | newArray _ elements => methodsOf elements

/-- The methods that several trees name. -/
def methodsOf : List Expr → List Method
  | [] => []
  | e :: es => e.methods ++ methodsOf es

end

end Expr

/-- The call that an instruction makes. -/
def Instruction.call? : Instruction → Option Call
  | invoke call => some call
  | _ => none

/-- The call that a sink is told of. -/
def Event.call? : Event → Option Call
  | emitted i => i.call?
  | placed _ => none

lemma Instruction.call?_pushInt (compact : Bool) (n : Int32) :
    (pushInt compact n).call? = none := by
  have hpushed := pushedInt?_pushInt compact n
  cases hi : pushInt compact n with
  | invoke call =>
      rw [hi] at hpushed
      cases hpushed
  | _ => rfl

lemma Literal.call?_push (config : Config) (value : Literal) :
    (value.push config).call? = none := by
  cases value with
  | byte n => exact Instruction.call?_pushInt _ _
  | short n => exact Instruction.call?_pushInt _ _
  | char n => exact Instruction.call?_pushInt _ _
  | int n => exact Instruction.call?_pushInt _ _
  | classOf type =>
      show (pushClass config.naming type).call? = none
      unfold pushClass
      split <;> rfl
  | _ => rfl

namespace Move

/-- The calls that moves make, in order. -/
def calls (ms : List Move) : List Call :=
  (events ms).filterMap Event.call?

lemma calls_append (ms ns : List Move) : calls (ms ++ ns) = calls ms ++ calls ns := by
  rw [calls, events_append, List.filterMap_append, calls, calls]

/-- Moves are to make the calls given: they begin with them, as far as the moves get, and they make
them all if no move stops the run. -/
structure Calls (ms : List Move) (cs : List Call) : Prop where
  begun : ∀ done, done <+: ms → Clean done → calls done <+: cs
  made : Clean ms → calls ms = cs

namespace Calls

variable {ms ns : List Move} {cs ds : List Call}

lemma nil : Calls [] [] where
  begun done hdone _ := by
    rw [List.prefix_nil.mp hdone]
    exact List.prefix_rfl
  made _ := rfl

/-- After a move that stops the run, nothing is called any more. -/
lemma refuse (fault : Fault) (ms : List Move) (cs : List Call) :
    Calls (.refuse fault :: ms) cs where
  begun done hdone hclean := by
    rcases List.prefix_cons_iff.mp hdone with rfl | ⟨done, rfl, -⟩
    · exact List.nil_prefix
    · exact absurd List.mem_cons_self (hclean fault)
  made hclean := absurd List.mem_cons_self (hclean fault)

lemma append (h : Calls ms cs) (h' : Calls ns ds) : Calls (ms ++ ns) (cs ++ ds) where
  begun done hdone hclean := by
    obtain ⟨rest, hrest⟩ := hdone
    rcases List.append_eq_append_iff.mp hrest with ⟨left, hms, -⟩ | ⟨more, rfl, hns⟩
    · exact (h.begun done ⟨left, hms.symm⟩ hclean).trans (List.prefix_append _ _)
    · -- a run that has come to the second part has made all calls of the first
      obtain ⟨hms, hclean⟩ := clean_append.mp hclean
      rw [calls_append, h.made hms]
      exact (List.prefix_append_right_inj cs).mpr (h'.begun more ⟨rest, hns.symm⟩ hclean)
  made hclean := by
    obtain ⟨hms, hns⟩ := clean_append.mp hclean
    rw [calls_append, h.made hms, h'.made hns]

/-- One move, of which the calls are known. -/
lemma single {m : Move} (hm : calls [m] = cs) : Calls [m] cs where
  begun done hdone _ := by
    rcases List.prefix_cons_iff.mp hdone with rfl | ⟨more, rfl, hmore⟩
    · exact List.nil_prefix
    · obtain rfl := List.prefix_nil.mp hmore
      exact hm ▸ List.prefix_rfl
  made _ := hm

/-- A move that calls nothing. -/
lemma cons {m : Move} (hm : m.event?.bind Event.call? = none) (h : Calls ms cs) :
    Calls (m :: ms) cs := by
  have hcalls : calls [m] = [] := by
    cases m with
    | emit i => exact List.filterMap_cons_none hm
    | _ => rfl
  exact (single hcalls).append h

lemma invoke (call : Call) : Calls [.emit (.invoke call)] [call] :=
  single rfl

lemma guarded {α : Type} {choice : Except Fault α} {next : α → List Move}
    (h : ∀ a, choice = .ok a → Calls (next a) cs) : Calls (Move.guarded choice next) cs := by
  cases choice with
  | ok a => exact h a rfl
  | error fault => exact refuse fault [] cs

lemma consumed {e : Expr} (h : Calls ms cs) : Calls (Move.consumed e ms) cs :=
  guarded fun _ _ => h

lemma joinTruth (onFalse done : Nat) : Calls (Move.joinTruth onFalse done) [] :=
  .cons rfl (.cons rfl (.cons rfl (.cons rfl (.cons rfl (.cons rfl .nil)))))

lemma truth (first : Nat) (condition : Condition) : Calls (Move.truth first condition) [] :=
  .cons rfl (.cons rfl (.joinTruth _ _))

lemma decideBy (first : Nat) (comparison : Selection.Comparison) :
    Calls (Move.decideBy first comparison) [] := by
  rw [Move.decideBy]
  cases comparison.reduce with
  | none => exact .truth _ _
  | some comparator => exact .cons rfl (.truth _ _)

/-- Moves after which nothing is called. -/
lemma before (h : Calls ms cs) (h' : Calls ns []) : Calls (ms ++ ns) cs :=
  List.append_nil cs ▸ h.append h'

end Calls

end Move

namespace Expr

open Move (Calls)

variable (config : Config)

lemma calls_argumentMoves {arguments : List Expr}
    (ih : ∀ e ∈ arguments, ∀ first,
      Calls (e.moves config first) (e.methods.map config.naming.call)) (first : Nat) :
    Calls (argumentMoves config first arguments)
      ((methodsOf arguments).map config.naming.call) := by
  induction arguments generalizing first with
  | nil => exact .nil
  | cons e es ihes =>
      obtain ⟨he, hes⟩ := List.forall_mem_cons.mp ih
      rw [argumentMoves, methodsOf, List.map_append]
      exact (he first).consumed.append (ihes hes _)

lemma calls_elementMoves {store : Instruction} (hstore : store.call? = none)
    {elements : List Expr}
    (ih : ∀ e ∈ elements, ∀ first,
      Calls (e.moves config first) (e.methods.map config.naming.call)) (first index : Nat) :
    Calls (elementMoves config store first index elements)
      ((methodsOf elements).map config.naming.call) := by
  induction elements generalizing first index with
  | nil => exact .nil
  | cons e es ihes =>
      obtain ⟨he, hes⟩ := List.forall_mem_cons.mp ih
      rw [elementMoves, methodsOf, List.map_append]
      exact .cons rfl (.cons (Instruction.call?_pushInt _ _)
        ((he first).consumed.append (.cons hstore (ihes hes _ _))))

/-- Two operands, and moves that call nothing after them. -/
lemma calls_operands {lhs rhs : Expr} {first : Nat} {ns : List Move}
    (ihl : ∀ first, Calls (lhs.moves config first) (lhs.methods.map config.naming.call))
    (ihr : ∀ first, Calls (rhs.moves config first) (rhs.methods.map config.naming.call))
    (hns : Calls ns []) :
    Calls (Move.consumed lhs (lhs.moves config first) ++
        (Move.consumed rhs (rhs.moves config (first + lhs.labelCount)) ++ ns))
      ((lhs.methods ++ rhs.methods).map config.naming.call) := by
  rw [List.map_append]
  exact (ihl _).consumed.append ((ihr _).consumed.before hns)

/-- **The calls of a tree** are those of the methods that it names. -/
lemma calls_moves (e : Expr) : ∀ first,
    Calls (e.moves config first) (e.methods.map config.naming.call) := by
  have hinvoke {method : Method} {count : Nat} {call : Call}
      (hok : Selection.callWith config.naming method count = .ok call) :
      Calls [.emit (.invoke call)] [config.naming.call method] := by
    obtain ⟨rfl, rfl⟩ := Selection.callWith_eq_ok.mp hok
    exact .invoke _
  induction e using Expr.induct with
  | literal value => exact fun first => .cons (value.call?_push config) .nil
  | load source =>
      refine fun first => .guarded fun i hi => .cons ?_ .nil
      obtain ⟨c, -, rfl⟩ := Selection.load_eq_ok.mp hi
      rfl
  | receiver => exact fun first => .cons rfl .nil
  | getField target field ih =>
      exact fun first => .guarded fun access _ => (ih first).consumed.before (.cons rfl .nil)
  | getStatic field => exact fun first => .guarded fun access _ => .cons rfl .nil
  | newInstance constructor arguments ih =>
      refine fun first => .guarded fun call hok => .cons rfl (.cons rfl ?_)
      rw [methods, List.map_append]
      exact (calls_argumentMoves config ih first).append
        (hinvoke (Selection.construction_eq_ok.mp hok).2)
  | invoke target method arguments ih ihs =>
      refine fun first => .guarded fun call hok => ?_
      rw [methods, List.map_append, List.map_append]
      exact (ih first).consumed.append ((calls_argumentMoves config ihs _).append
        (hinvoke (Selection.call_eq_ok.mp hok).2))
  | invokeStatic method arguments ih =>
      refine fun first => .guarded fun call hok => ?_
      rw [methods, List.map_append]
      exact (calls_argumentMoves config ih first).append
        (hinvoke (Selection.call_eq_ok.mp hok).2)
  | not operand ih => exact fun first => (ih first).consumed.before (.truth _ _)
  | or lhs rhs ihl ihr =>
      intro first
      rw [moves, methods, List.map_append]
      exact (ihl _).consumed.append (.cons rfl (.cons rfl ((ihr _).consumed.before
        (.cons rfl (.cons rfl (.cons rfl (.joinTruth _ _)))))))
  | conditional test onTrue onFalse iht ihl ihr =>
      refine fun first => .guarded fun _ _ => ?_
      rw [methods, List.map_append, List.map_append]
      exact (iht _).consumed.append (.cons rfl (.cons rfl ((ihl _).append
        (.cons rfl (.cons rfl (.cons rfl ((ihr _).before (.cons rfl .nil))))))))
  | eq lhs rhs type ihl ihr =>
      exact fun first => .guarded fun comparison _ =>
        calls_operands config ihl ihr (.decideBy _ _)
  | gt lhs rhs type ihl ihr =>
      exact fun first => .guarded fun comparison _ =>
        calls_operands config ihl ihr (.decideBy _ _)
  | arithmetic op lhs rhs type ihl ihr =>
      refine fun first => .guarded fun i hi => calls_operands config ihl ihr (.cons ?_ .nil)
      obtain ⟨n, -, rfl⟩ := Selection.arithmetic_eq_ok.mp hi
      rfl
  | widen operand source target ih =>
      refine fun first => .guarded fun conversion hi => (ih first).consumed.before ?_
      obtain ⟨-, -, -, -, ⟨-, rfl⟩ | ⟨-, rfl⟩⟩ := Selection.widening_eq_ok.mp hi
      · exact .nil
      · exact .cons rfl .nil
  | cast target operand ih =>
      refine fun first => .guarded fun i hi => (ih first).consumed.before (.cons ?_ .nil)
      obtain ⟨-, rfl⟩ := Selection.cast_eq_ok.mp hi
      rfl
  | newArray element elements ih =>
      refine fun first => .guarded fun allocation hallocation => .guarded fun store hstore =>
        .guarded fun length _ => .cons (Instruction.call?_pushInt _ _) (.cons ?_ ?_)
      · obtain ⟨kind, -, rfl⟩ := Selection.newArray_eq_ok.mp hallocation
        cases kind <;> rfl
      · obtain ⟨kind, -, rfl⟩ := Selection.arrayStore_eq_ok.mp hstore
        exact calls_elementMoves config rfl ih first 0
  | pop operand ih => exact fun first => (ih first).consumed.before (.cons rfl .nil)

end Expr

/-- Without modifiers, a type is `void` if it is with them. -/
lemma Ty.isVoid_bare (type : Ty) : type.bare.isVoid = type.isVoid := by
  cases type with
  | primitive kind m => cases kind <;> rfl
  | _ => rfl

/-- **A call restates its signature.** -/
lemma Descriptor.decodeMethod_call {method : Method} (h : method.Legible) :
    ∃ parameters returns,
      decodeMethod (Naming.jvm.call method).descriptor = some (parameters, returns) ∧
        (Naming.jvm.call method).arguments = parameters.length ∧
        ((Naming.jvm.call method).returnsValue = true ↔ returns.isVoid = false) := by
  refine ⟨_, _, decodeMethod_of_legible h, ?_, ?_⟩
  · rw [List.length_map]
    rfl
  · rw [Ty.isVoid_bare, ← Bool.not_eq_true']
    rfl

/-- A step calls the methods that its tree names, in order and up to where it fails. -/
lemma Session.calls_step {σ : Type} [Sink σ] {s : Session σ} (hs : s.Reached) (config : Config)
    (step : Step) :
    ∃ items, (s.step config step).2.sink = Sink.tell s.sink items ∧
      items.filterMap Event.call? <+: step.expr.methods.map config.naming.call ∧
      ((s.step config step).1 = none →
        items.filterMap Event.call? = step.expr.methods.map config.naming.call) := by
  obtain ⟨done, rest, hmoves, hcourse, hall⟩ := step_course hs.live config step
  have hcalls := step.expr.calls_moves config s.labels.size
  rw [hmoves] at hcalls
  refine ⟨Move.events done, hcourse.sink, ?_, fun hfault => ?_⟩
  · exact hcalls.begun done (List.prefix_append _ _) hcourse.clean
  · rw [hall hfault, List.append_nil] at hcalls
    exact hcalls.made hcourse.clean

/-- **Descriptors can be decoded in one way only.**  Among types whose names have none of the
characters that descriptors put between names, no descriptor is the beginning of another one, and
equal descriptors are those of types that are equal up to modifiers.  So the descriptor of a method
tells the types of its parameters, how many there are, and the type that it returns.

Whatever a session has been through, a step calls methods of its tree in order, and all of them if
it does not fail.  Each call has as many arguments as its descriptor has parameters, and it leaves a
value exactly if the type that its descriptor returns is not `void`. -/
theorem Descriptor.uniquely_decodable {σ : Type} [Sink σ] :
    (∀ t u : Ty, t.Legible → u.Legible →
      ((Naming.jvm.typeDescriptor t).toList <+: (Naming.jvm.typeDescriptor u).toList →
        Naming.jvm.typeDescriptor t = Naming.jvm.typeDescriptor u) ∧
      (Naming.jvm.typeDescriptor t = Naming.jvm.typeDescriptor u ↔ t.bare = u.bare)) ∧
    (∀ method : Method, method.Legible →
      decodeMethod (Naming.jvm.methodDescriptor method)
        = some (method.parameters.map Ty.bare, method.returns.bare)) ∧
    ∀ (s : Session σ) (options : Options) (step : Step), s.Reached →
      ∃ items, (s.step ⟨.jvm, options⟩ step).2.sink = Sink.tell s.sink items ∧
        items.filterMap Event.call? <+: step.expr.methods.map Naming.jvm.call ∧
        ((s.step ⟨.jvm, options⟩ step).1 = none →
          items.filterMap Event.call? = step.expr.methods.map Naming.jvm.call) ∧
        ∀ call ∈ items.filterMap Event.call?,
          ∃ method ∈ step.expr.methods, call = Naming.jvm.call method ∧
            (method.Legible → ∃ parameters returns,
              decodeMethod call.descriptor = some (parameters, returns) ∧
                call.arguments = parameters.length ∧
                (call.returnsValue = true ↔ returns.isVoid = false)) := by
  refine ⟨fun t u ht hu => ⟨fun h => ?_, descriptor_eq_iff ht hu⟩,
    fun method => decodeMethod_of_legible, fun s options step hs => ?_⟩
  · exact (descriptor_eq_iff ht hu).mpr (bare_eq_of_begins ht hu h)
  · obtain ⟨items, hsink, hbegun, hall⟩ := Session.calls_step hs ⟨.jvm, options⟩ step
    refine ⟨items, hsink, hbegun, hall, fun call hcall => ?_⟩
    obtain ⟨method, hmethod, rfl⟩ := List.mem_map.mp (hbegun.subset hcall)
    exact ⟨method, hmethod, rfl, decodeMethod_call⟩

/-- A call with an array of arrays of a nested type among its parameters, after a step that has
failed.  Two types of the same name are told apart by the classes around them, but not by their
modifiers. -/
theorem Descriptor.uniquely_decodable_of_nested :
    let entry : Ty := .nested "Entry" (.interfaceOf "java.util" "Map")
    let flat : Ty := .classOf "java.util" "Entry"
    let method : Method := .ofStatic flat (.ofPrimitive .long) "count"
      [.arrayOf (.arrayOf entry), .ofPrimitive .int, entry]
    let e : Expr := .invokeStatic method [.literal .null, .literal (.int 1), .literal .null]
    let s := (Session.start ({} : Trace)).after [({}, .compile e), ({}, .lower (.pop (.pop e)))]
    (entry.Legible ∧ flat.Legible ∧ method.Legible ∧ s.Reached) ∧
      Naming.jvm.typeDescriptor entry ≠ Naming.jvm.typeDescriptor flat ∧
      Naming.jvm.typeDescriptor entry.bare = Naming.jvm.typeDescriptor entry ∧
      decodeMethod "([[Ljava/util/Map$Entry;ILjava/util/Map$Entry;)J"
        = some (method.parameters.map Ty.bare, method.returns.bare) ∧
      ∃ items call, (s.step {} (.compile e)).2.sink = Sink.tell s.sink items ∧
        items.filterMap Event.call? = [call] ∧
        call.descriptor = "([[Ljava/util/Map$Entry;ILjava/util/Map$Entry;)J" ∧
        call.arguments = 3 ∧ call.returnsValue = true := by
  intro entry flat method e s
  have hentry : entry.Legible := by decide
  have hflat : flat.Legible := by decide
  have hmethod : method.Legible := by decide
  have hs : s.Reached := (Session.Reached.start _).after _
  have hbare : entry.bare.Legible := by decide
  have htext : Naming.jvm.methodDescriptor method
      = "([[Ljava/util/Map$Entry;ILjava/util/Map$Entry;)J" := by decide +kernel
  have hfault : (s.step {} (.compile e)).1 = none := by decide +kernel
  have hcalled : e.methods = [method] := rfl
  obtain ⟨htypes, hmethods, hsteps⟩ := uniquely_decodable (σ := Trace)
  have hdecoded := hmethods method hmethod
  obtain ⟨items, hsink, -, hall, hcalls⟩ := hsteps s {} (.compile e) hs
  have hitems : items.filterMap Event.call? = [Naming.jvm.call method] := by
    rw [hall hfault, Step.expr, hcalled, List.map_singleton]
  obtain ⟨method', hmem, -, hlegible⟩ := hcalls _ (hitems ▸ List.mem_singleton_self _)
  rw [Step.expr, hcalled, List.mem_singleton] at hmem
  obtain ⟨parameters, returns, hdecode, harguments, hvalue⟩ := hlegible (hmem ▸ hmethod)
  cases hdecode.symm.trans hdecoded
  refine ⟨⟨hentry, hflat, hmethod, hs⟩, ?_, ?_, htext ▸ hdecoded, items, _, hsink, hitems, htext,
    harguments, hvalue.mpr rfl⟩
  · rw [Ne, (htypes entry flat hentry hflat).2]
    decide
  · rw [(htypes entry.bare entry hbare hentry).2]
    rfl

end StackLowering
