import StackLowering.Proofs.Lockstep

/-!
What the names of types and members can have an influence on.

* `Instruction.nameless`: an instruction without the names that a naming provides.
* `Selection.fieldAccess_coupled`, `Selection.callWith_coupled` and others: under any two namings
  the same choices succeed, and they fail with the same fault.
* `Session.step_nameless`: two sessions that differ in their namings do the same, up to
  these names.
-/

namespace StackLowering

/-! ### Instructions without names -/

namespace Instruction

/-- The instruction without the owner and the signature of a member and without the name of a
class.  The name of the member itself stays, and so does all that does not come from a naming. -/
def nameless : Instruction → Instruction
  | getField access => getField { access with owner := "", descriptor := "" }
  | getStatic access => getStatic { access with owner := "", descriptor := "" }
  | invoke call => invoke { call with owner := "", descriptor := "" }
  | new _ => new ""
  | checkCast _ => checkCast ""
  | newRefArray _ => newRefArray ""
  | ldc (.classRef _) => ldc (.classRef "")
  | i => i

/-- Names have no effect on the stack. -/
@[simp] lemma effect_nameless (i : Instruction) : i.nameless.effect = i.effect := by
  cases i with
  | ldc constant => cases constant <;> rfl
  | _ => rfl

/-- Two instructions differ at most in names. -/
def SameButNames (i j : Instruction) : Prop :=
  i.nameless = j.nameless

lemma coupling_sameButNames : Coupling SameButNames where
  effect {i j} h := by rw [← i.effect_nameless, ← j.effect_nameless, h]
  self _ := rfl
  truth _ := rfl

end Instruction

/-! ### Choices under two namings -/

namespace Selection

variable (naming naming' : Naming)

lemma fieldAccess_coupled (field : Field) (onObject : Bool) :
    Coupled (fun a b => (Instruction.getField a).SameButNames (.getField b) ∧
        (Instruction.getStatic a).SameButNames (.getStatic b))
      (fieldAccess naming field onObject) (fieldAccess naming' field onObject) := by
  unfold fieldAccess
  split
  · exact .error _
  · cases category field.type with
    | error fault => exact .error fault
    | ok c => exact .ok ⟨rfl, rfl⟩

/-- Calls differ in names only, and objects are allocated by name. -/
lemma callWith_coupled (method : Method) (arguments : Nat) :
    Coupled (fun a b => (Instruction.new a.owner).SameButNames (.new b.owner) ∧
        (Instruction.invoke a).SameButNames (.invoke b))
      (callWith naming method arguments) (callWith naming' method arguments) := by
  unfold callWith checkArguments
  split
  · exact .ok ⟨rfl, rfl⟩
  · exact .error _

lemma construction_coupled (method : Method) (arguments : Nat) :
    Coupled (fun a b => (Instruction.new a.owner).SameButNames (.new b.owner) ∧
        (Instruction.invoke a).SameButNames (.invoke b))
      (construction naming method arguments) (construction naming' method arguments) := by
  unfold construction
  split
  · exact callWith_coupled naming naming' method arguments
  · exact .error _

lemma call_coupled (method : Method) (onObject : Bool) (arguments : Nat) :
    Coupled (fun a b => (Instruction.invoke a).SameButNames (.invoke b))
      (Selection.call naming method onObject arguments)
      (Selection.call naming' method onObject arguments) := by
  unfold Selection.call
  split
  · exact (callWith_coupled naming naming' method arguments).imp fun _ _ h => h.2
  · exact .error _

lemma cast_coupled (target : Ty) :
    Coupled Instruction.SameButNames (cast naming target) (cast naming' target) := by
  unfold cast
  split
  · exact .error _
  · exact .ok rfl

lemma newArray_coupled (element : Ty) :
    Coupled Instruction.SameButNames (newArray naming element) (newArray naming' element) := by
  unfold newArray
  cases arrayKind element with
  | error fault => exact .error fault
  | ok kind =>
      cases kind with
      | reference => exact .ok rfl
      | _ => exact .ok rfl

end Selection

/-- Under any two namings a literal is pushed by the same instruction, up to the name of a class. -/
lemma Literal.push_sameButNames (naming naming' : Naming) (options : Options) (value : Literal) :
    (value.push ⟨naming, options⟩).SameButNames (value.push ⟨naming', options⟩) := by
  cases value with
  | classOf type =>
      show (pushClass naming type).SameButNames (pushClass naming' type)
      unfold pushClass
      split <;> rfl
  | _ => rfl

/-- Configurations that differ at most in their namings make the same choices. -/
lemma Config.coupled_of_options {config config' : Config} (h : config.options = config'.options) :
    config.Coupled Instruction.SameButNames config' := by
  obtain ⟨naming, options⟩ := config
  obtain ⟨naming', options'⟩ := config'
  obtain rfl : options = options' := h
  exact {
    checkBalance := rfl
    push := Literal.push_sameButNames naming naming' options
    pushInt := fun _ => rfl
    fieldAccess := Selection.fieldAccess_coupled naming naming'
    construction := Selection.construction_coupled naming naming'
    call := Selection.call_coupled naming naming'
    cast := Selection.cast_coupled naming naming'
    newArray := Selection.newArray_coupled naming naming' }

/-- Code that has been produced in step is the same without names. -/
lemma Parallel.map_nameless {c : Code} {s t : Session Code}
    (h : Parallel Instruction.SameButNames c c s t) :
    s.sink.instructions.toList.map Instruction.nameless
      = t.sink.instructions.toList.map Instruction.nameless := by
  obtain ⟨new, new', hs, ht, hnew⟩ := h.instructions
  -- what was there before is the same code, so only the new instructions are compared
  have hmap : new.map Instruction.nameless = new'.map Instruction.nameless := by
    rw [← List.forall₂_eq_eq_eq, List.forall₂_map_left_iff, List.forall₂_map_right_iff]
    exact hnew
  rw [hs, ht, List.map_append, List.map_append, hmap]

/-! ### Sessions -/

/-- **Names influence nothing but names.**  Take two sessions on the same code with the same steps
under the same options, failed steps included, but with any namings; in particular, one session
twice.  A step under one naming in the first session and the same step under another naming in the
second have the same result.  They leave the same labels with the same positions, and the same
depths, and the instructions are the same one by one once the owners and signatures of members and
the names of classes are left out. -/
theorem Session.step_nameless (sink : Code) (options : Options) (naming naming' : Naming)
    (step : Step) {earlier earlier' : List (Config × Step)}
    (hearlier : List.Forall₂ (fun x y => x.1.options = y.1.options ∧ x.2 = y.2) earlier earlier')
    {s s' : Session Code} (hs : s = (Session.start sink).after earlier)
    (hs' : s' = (Session.start sink).after earlier') :
    let one := s.step ⟨naming, options⟩ step
    let other := s'.step ⟨naming', options⟩ step
    one.1 = other.1 ∧ one.2.Agree other.2 ∧
      s.sink.instructions.toList.map Instruction.nameless
        = s'.sink.instructions.toList.map Instruction.nameless ∧
      one.2.sink.instructions.toList.map Instruction.nameless
        = other.2.sink.instructions.toList.map Instruction.nameless := by
  intro one other
  have hbefore : Parallel Instruction.SameButNames sink sink s s' := by
    rw [hs, hs']
    refine (Parallel.start sink sink).after Instruction.coupling_sameButNames ?_
    exact hearlier.imp fun x y hxy => ⟨Config.coupled_of_options hxy.1, hxy.2⟩
  have hconfig : Config.Coupled Instruction.SameButNames ⟨naming, options⟩ ⟨naming', options⟩ :=
    Config.coupled_of_options rfl
  obtain ⟨hresult, hafter⟩ := hbefore.step Instruction.coupling_sameButNames hconfig step
  exact ⟨hresult, hafter.agree, hbefore.map_nameless, hafter.map_nameless⟩

/-- Two sessions have allocated an object under the name of its class and under another name, and
have then failed.  A cast in one arm of a conditional has another name in each of them. -/
theorem Session.step_nameless_of_cast :
    let blank : Naming := { internalName := fun _ => "?", typeDescriptor := fun _ => "?" }
    let point : Ty := .classOf "geometry" "Point"
    let failing : Expr := .newInstance (.ofConstructor point [.ofPrimitive .int])
      [.pop (.literal .null)]
    let s := (Session.start Code.empty).after [({}, .lower failing)]
    let s' := (Session.start Code.empty).after [({ naming := blank }, .lower failing)]
    let e : Expr := .conditional (.load ⟨1, .ofPrimitive .int⟩) (.cast point .receiver)
      (.literal .null)
    let one := s.step {} (.compile e)
    let other := s'.step { naming := blank } (.compile e)
    one.2.sink.instructions.toList ≠ other.2.sink.instructions.toList ∧
      one.1 = other.1 ∧ one.2.Agree other.2 ∧
      one.2.sink.instructions.toList.map Instruction.nameless
        = other.2.sink.instructions.toList.map Instruction.nameless := by
  intro blank point failing s s' e one other
  have hs : s = (Session.start Code.empty).after [({}, .lower failing)] := rfl
  have hs' : s' = (Session.start Code.empty).after [({ naming := blank }, .lower failing)] := rfl
  have hne : one.2.sink.instructions.toList ≠ other.2.sink.instructions.toList := by
    simp only [one, other, e, s, s', failing, point, blank]
    decide +kernel
  clear_value s s' e failing blank
  have hearlier : List.Forall₂ (fun x y : Config × Step => x.1.options = y.1.options ∧ x.2 = y.2)
      [({}, .lower failing)] [({ naming := blank }, .lower failing)] := .cons ⟨rfl, rfl⟩ .nil
  obtain ⟨hresult, hagree, -, hsame⟩ :=
    step_nameless Code.empty {} .jvm blank (.compile e) hearlier hs hs'
  exact ⟨hne, hresult, hagree, hsame⟩

end StackLowering
