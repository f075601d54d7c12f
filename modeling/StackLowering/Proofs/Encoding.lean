import StackLowering.Proofs.Lockstep

/-!
The choice between the compact forms of integers and the pool.

* `Instruction.Compacts`: an instruction that holds an integer, and the one that loads the same
  integer from the pool.
* `Instruction.Uncompacted`: of the instructions that hold an integer, only the truth values.
* `Session.step_encoding`: apart from such instructions, nothing depends on the choice.
-/

namespace StackLowering

/-! ### Two forms of one integer -/

namespace Instruction

/-- The first instruction holds the integer that the second one loads from the pool.  Bytes and
shorts are extended with their sign. -/
inductive Compacts : Instruction → Instruction → Prop
  | iconst (value : UInt8) : Compacts (.iconst value) (.ldc (.int (.ofNat value.toNat)))
  | bipush (value : Int8) : Compacts (.bipush value) (.ldc (.int value.toInt32))
  | sipush (value : Int16) : Compacts (.sipush value) (.ldc (.int value.toInt32))

/-- The instruction holds no integer, or it is one of the truth values. -/
def Uncompacted : Instruction → Prop
  | iconst value => value = 0 ∨ value = 1
  | bipush _ | sipush _ => False
  | _ => True

lemma uncompacted_of_pushedInt? {i : Instruction} (h : i.pushedInt? = none) : i.Uncompacted := by
  cases i with
  | iconst value => cases h
  | bipush value => cases h
  | sipush value => cases h
  | _ => trivial

lemma Compacts.effect {i j : Instruction} (h : i.Compacts j) : i.effect = j.effect := by
  cases h <;> rfl

/-- With compact forms an integer comes from the pool, or from an instruction that holds it. -/
lemma pushInt_true (n : Int32) :
    pushInt true n = .ldc (.int n) ∨ (pushInt true n).Compacts (.ldc (.int n)) := by
  have hpushed := pushedInt?_pushInt true n
  -- which form is chosen does not matter here, only which integer it pushes
  generalize pushInt true n = i at hpushed
  cases i with
  | iconst value =>
      cases hpushed
      exact .inr (.iconst value)
  | bipush value =>
      cases hpushed
      exact .inr (.bipush value)
  | sipush value =>
      cases hpushed
      exact .inr (.sipush value)
  | ldc constant =>
      cases constant with
      | int value =>
          cases hpushed
          exact .inl rfl
      | _ => cases hpushed
  | _ => cases hpushed

/-- Two instructions are the same, or one of them is the compact form of the other. -/
def SameInteger (i j : Instruction) : Prop :=
  i = j ∨ i.Compacts j ∨ j.Compacts i

/-- The second instruction is not compact, and the first one is the same or its compact form. -/
def Expands (i j : Instruction) : Prop :=
  j.Uncompacted ∧ (i = j ∨ i.Compacts j)

lemma coupling_sameInteger : Coupling SameInteger where
  effect h := by
    rcases h with rfl | h | h
    · rfl
    · exact h.effect
    · exact h.effect.symm
  self _ := .inl rfl
  truth _ := .inl rfl

lemma coupling_expands : Coupling Expands where
  effect h := by
    rcases h.2 with rfl | h
    · rfl
    · exact h.effect
  self h := ⟨uncompacted_of_pushedInt? h, .inl rfl⟩
  truth value := by
    refine ⟨?_, .inl rfl⟩
    cases value with
    | false => exact .inl rfl
    | true => exact .inr rfl

lemma sameInteger_pushInt (compact compact' : Bool) (n : Int32) :
    (pushInt compact n).SameInteger (pushInt compact' n) := by
  cases compact with
  | false =>
      cases compact' with
      | false => exact .inl rfl
      | true =>
          rcases pushInt_true n with heq | hcompacts
          · exact .inl heq.symm
          · exact .inr (.inr hcompacts)
  | true =>
      cases compact' with
      | false => exact (pushInt_true n).imp_right .inl
      | true => exact .inl rfl

lemma expands_pushInt (n : Int32) : (pushInt true n).Expands (pushInt false n) :=
  ⟨trivial, pushInt_true n⟩

end Instruction

/-! ### Configurations -/

/-- The configuration with or without the compact forms. -/
def Config.withCompact (config : Config) (compact : Bool) : Config :=
  { config with options := { config.options with compactConstants := compact } }

/-- Two configurations differ at most in whether they have the compact forms. -/
def Config.SameButEncoding (config config' : Config) : Prop :=
  ∃ compact, config' = config.withCompact compact

/-- Configurations that differ at most in how integers are pushed make the same choices. -/
lemma Config.coupled_withCompact {S : Instruction → Instruction → Prop} (hS : Coupling S)
    (config : Config) {compact compact' : Bool}
    (hpush : ∀ n, S (.pushInt compact n) (.pushInt compact' n)) :
    (config.withCompact compact).Coupled S (config.withCompact compact') where
  checkBalance := rfl
  push value := by
    cases value with
    | bool value => exact hS.truth value
    | byte value => exact hpush _
    | short value => exact hpush _
    | char value => exact hpush _
    | int value => exact hpush _
    | classOf type =>
        refine hS.self ?_
        show (Literal.pushClass config.naming type).pushedInt? = none
        unfold Literal.pushClass
        split <;> rfl
    | _ => exact hS.self rfl
  pushInt := hpush
  fieldAccess field onObject := .refl fun access _ => ⟨hS.self rfl, hS.self rfl⟩
  construction method arguments := .refl fun call _ => ⟨hS.self rfl, hS.self rfl⟩
  call method onObject arguments := .refl fun call _ => hS.self rfl
  cast type := .refl fun i hi => by
    obtain ⟨-, rfl⟩ := Selection.cast_eq_ok.mp hi
    exact hS.self rfl
  newArray type := .refl fun i hi => by
    obtain ⟨kind, -, rfl⟩ := Selection.newArray_eq_ok.mp hi
    split <;> exact hS.self rfl

lemma Config.SameButEncoding.coupled {config config' : Config}
    (h : config.SameButEncoding config') : config.Coupled Instruction.SameInteger config' := by
  obtain ⟨compact, rfl⟩ := h
  exact coupled_withCompact Instruction.coupling_sameInteger config
    (Instruction.sameInteger_pushInt config.options.compactConstants compact)

/-! ### Sessions -/

/-- **The compact forms change the encoding of integers and nothing else.**  Take two sessions on
the same code with the same steps, failed ones included, whose configurations differ at most in
whether they have the compact forms; in particular, one session twice.  A step with the compact
forms in the first and the same step without them in the second have the same result.  They leave
the same labels with the same positions, and the same depths.  Their instructions are the same one
by one, except that the first step may have an instruction that holds an integer where the second
loads that integer from the pool; and the second step emits no instruction that holds an integer,
apart from the truth values. -/
theorem Session.step_encoding (sink : Code) (config : Config) (step : Step)
    {earlier earlier' : List (Config × Step)}
    (hearlier : List.Forall₂ (fun x y => x.1.SameButEncoding y.1 ∧ x.2 = y.2) earlier earlier')
    {s s' : Session Code} (hs : s = (Session.start sink).after earlier)
    (hs' : s' = (Session.start sink).after earlier') :
    let compact := s.step (config.withCompact true) step
    let plain := s'.step (config.withCompact false) step
    compact.1 = plain.1 ∧ compact.2.Agree plain.2 ∧
      List.Forall₂ (fun i j => i = j ∨ i.Compacts j ∨ j.Compacts i)
        s.sink.instructions.toList s'.sink.instructions.toList ∧
      ∃ new new', compact.2.sink.instructions.toList = s.sink.instructions.toList ++ new ∧
        plain.2.sink.instructions.toList = s'.sink.instructions.toList ++ new' ∧
        List.Forall₂ (fun i j => i = j ∨ i.Compacts j) new new' ∧
        ∀ i ∈ new', i.Uncompacted := by
  intro compact plain
  have hbefore : Parallel Instruction.SameInteger sink sink s s' := by
    rw [hs, hs']
    refine (Parallel.start sink sink).after Instruction.coupling_sameInteger ?_
    exact hearlier.imp fun x y hxy => ⟨hxy.1.coupled, hxy.2⟩
  have hafter := hbefore.step Instruction.coupling_sameInteger
    (config.coupled_withCompact Instruction.coupling_sameInteger
      (Instruction.sameInteger_pushInt true false)) step
  -- the same step once more, under the finer relation and with what it adds alone: before it, the
  -- instructions of either session may be the compact ones
  have hnew := hbefore.anew.step Instruction.coupling_expands
    (config.coupled_withCompact Instruction.coupling_expands Instruction.expands_pushInt) step
  obtain ⟨old, old', hold, hold', hsame⟩ := hbefore.instructions
  obtain ⟨new, new', hcompact, hplain, hexpands⟩ := hnew.2.instructions
  have hsplit : (∀ j ∈ new', j.Uncompacted) ∧
      List.Forall₂ (fun j i => i = j ∨ i.Compacts j) new' new :=
    (List.forall₂_and_left new' new).mp hexpands.flip
  refine ⟨hafter.1, hafter.2.agree, ?_, new, new', hcompact, hplain, hsplit.2.flip, hsplit.1⟩
  rw [hold, hold']
  exact List.rel_append (List.forall₂_same.mpr fun i _ => .inl rfl) hsame

/-- Two sessions that have failed at the same tree, with and without the compact forms, and then an
array with a negative element and a truth value. -/
theorem Session.step_encoding_of_array :
    let failing : Expr :=
      .arithmetic .add (.literal (.int 7)) (.pop (.literal .null)) (.ofPrimitive .int)
    let s := (Session.start Code.empty).after [({}, .lower failing)]
    let s' := (Session.start Code.empty).after [(Config.withCompact {} false, .lower failing)]
    let e : Expr :=
      .newArray (.ofPrimitive .int) [.literal (.int (-1)), .not (.literal (.char 40000))]
    let compact := s.step (Config.withCompact {} true) (.lower e)
    let plain := s'.step (Config.withCompact {} false) (.lower e)
    s.sink.instructions.toList = [.bipush 7] ∧ s'.sink.instructions.toList = [.ldc (.int 7)] ∧
      compact.1 = plain.1 ∧ compact.2.Agree plain.2 ∧ ∃ new new',
        compact.2.sink.instructions.toList = .bipush 7 :: new ∧
        plain.2.sink.instructions.toList = .ldc (.int 7) :: new' ∧ .bipush (-1) ∈ new ∧
        List.Forall₂ (fun i j => i = j ∨ i.Compacts j) new new' ∧
        ∀ i ∈ new', i.Uncompacted := by
  intro failing s s' e compact plain
  have hs : s = (Session.start Code.empty).after [({}, .lower failing)] := rfl
  have hs' : s' = (Session.start Code.empty).after
    [(Config.withCompact {} false, .lower failing)] := rfl
  have hold : s.sink.instructions.toList = [.bipush 7] := by
    simp only [s, failing]
    decide +kernel
  have hold' : s'.sink.instructions.toList = [.ldc (.int 7)] := by
    simp only [s', failing]
    decide +kernel
  have hmem : .bipush (-1) ∈ compact.2.sink.instructions.toList := by
    simp only [compact, e, s, failing]
    decide +kernel
  clear_value s s' e failing
  have hearlier : List.Forall₂ (fun x y : Config × Step => x.1.SameButEncoding y.1 ∧ x.2 = y.2)
      [({}, .lower failing)] [(Config.withCompact {} false, .lower failing)] :=
    .cons ⟨⟨false, rfl⟩, rfl⟩ .nil
  obtain ⟨hresult, hagree, -, new, new', hnew, hnew', hpairs, hplain⟩ :=
    step_encoding Code.empty {} (.lower e) hearlier hs hs'
  rw [hold, List.singleton_append] at hnew
  rw [hold', List.singleton_append] at hnew'
  refine ⟨hold, hold', hresult, hagree, new, new', hnew, hnew', ?_, hpairs, hplain⟩
  rw [hnew] at hmem
  exact (List.mem_cons.mp hmem).resolve_left (by decide)

end StackLowering
