import StackLowering.Expr.Build
import StackLowering.Proofs.Lockstep

/-!
Trees that are equal, with floating-point literals compared as numbers.

* `Binary.OppositeZeros`: two zeros that differ in their signs.
* `Binary.eq_or_of_numericEq`: data that are equal as numbers have the same bits, or they are two
  such zeros.
* `Instruction.SameButZeros`: two instructions are the same, or they load two such zeros.
* `Expr.eq_of_nonzero`: trees without zeros that are equal are the same.
* `Session.step_equal_trees`: equal trees lead to the same code, up to the signs of zeros.
-/

namespace StackLowering

/-! ### Numbers -/

namespace Binary

variable {f : BinaryFormat} {x y : Binary f}

/-- The bits of a zero are those of its sign. -/
lemma toNat_of_isZero (h : x.isZero = true) :
    x.bits.toNat = if x.isNegative then (BitVec.intMin f.width).toNat else 0 := by
  have hwidth : f.width = f.fractionBits + f.exponentBits + 1 := by
    simp only [BinaryFormat.width]
    omega
  have hplace : f.width - 1 = f.fractionBits + f.exponentBits := by
    rw [hwidth, Nat.add_sub_cancel]
  have hmin : (BitVec.intMin f.width).toNat = 2 ^ (f.fractionBits + f.exponentBits) := by
    rw [BitVec.toNat_intMin_of_pos (by omega), hplace]
  obtain ⟨hexponent, hfraction⟩ :
      x.bits.toNat / 2 ^ f.fractionBits % 2 ^ f.exponentBits = 0 ∧
        x.bits.toNat % 2 ^ f.fractionBits = 0 := by
    simpa [isZero, exponentField, fraction] using h
  -- with an empty fraction and exponent, only the bit of the sign is left
  obtain ⟨sign, hsign⟩ : 2 ^ (f.fractionBits + f.exponentBits) ∣ x.bits.toNat := by
    rw [Nat.pow_add]
    exact Nat.mul_dvd_of_dvd_div (Nat.dvd_of_mod_eq_zero hfraction)
      (Nat.dvd_of_mod_eq_zero hexponent)
  have hlt : x.bits.toNat < 2 * 2 ^ (f.fractionBits + f.exponentBits) :=
    calc x.bits.toNat < 2 ^ f.width := x.bits.isLt
      _ = 2 * 2 ^ (f.fractionBits + f.exponentBits) := by
          rw [hwidth, Nat.pow_succ, Nat.mul_comm]
  have hmsb : x.isNegative = decide (2 ^ (f.fractionBits + f.exponentBits) ≤ x.bits.toNat) := by
    rw [isNegative, BitVec.msb_eq_decide, hplace]
  have hpos := Nat.two_pow_pos (f.fractionBits + f.exponentBits)
  rw [hmsb, hmin]
  generalize 2 ^ (f.fractionBits + f.exponentBits) = place at *
  rw [hsign, Nat.mul_comm] at hlt
  have hcases : sign = 0 ∨ sign = 1 := by
    have hle := Nat.lt_of_mul_lt_mul_right hlt
    omega
  rcases hcases with rfl | rfl
  · simp [hsign, Nat.ne_of_gt hpos]
  · simp [hsign]

/-- Two zeros of different signs. -/
def OppositeZeros (x y : Binary f) : Prop :=
  x.isZero = true ∧ y.isZero = true ∧ x.isNegative ≠ y.isNegative

/-- Data that are equal as numbers are the same, or they are zeros of different signs. -/
lemma eq_or_of_numericEq (h : x.numericEq y = true) : x = y ∨ x.OppositeZeros y := by
  simp only [numericEq, Bool.and_eq_true, Bool.or_eq_true, beq_iff_eq] at h
  obtain ⟨-, heq | ⟨hx, hy⟩⟩ := h
  · exact .inl heq
  · by_cases hsign : x.isNegative = y.isNegative
    · have hbits : x.bits = y.bits := by
        apply BitVec.eq_of_toNat_eq
        rw [toNat_of_isZero hx, toNat_of_isZero hy, hsign]
      cases x
      cases y
      exact .inl (congrArg Binary.mk hbits)
    · exact .inr ⟨hx, hy, hsign⟩

end Binary

/-! ### Literals and instructions -/

namespace Literal

/-- Two literals are the same, or they are zeros of one kind with different signs. -/
inductive SameButZeros : Literal → Literal → Prop
  | same (value : Literal) : SameButZeros value value
  | float {x y : Binary .single} (h : x.OppositeZeros y) : SameButZeros (.float x) (.float y)
  | double {x y : Binary .double} (h : x.OppositeZeros y) : SameButZeros (.double x) (.double y)

/-- Whether a literal is a floating-point zero, of either sign. -/
def isZero : Literal → Bool
  | float x => x.isZero
  | double x => x.isZero
  | _ => false

lemma sameButZeros_of_beq {a b : Literal} (h : (a == b) = true) : a.SameButZeros b := by
  change beq a b = true at h
  cases a with
  | float x =>
      cases b with
      | float y =>
          rcases Binary.eq_or_of_numericEq h with rfl | hzeros
          · exact .same _
          · exact .float hzeros
      | _ => cases h
  | double x =>
      cases b with
      | double y =>
          rcases Binary.eq_or_of_numericEq h with rfl | hzeros
          · exact .same _
          · exact .double hzeros
      | _ => cases h
  | null =>
      cases b with
      | null => exact .same _
      | _ => cases h
  | _ =>
      cases b <;> try cases h
      rw [eq_of_beq h]
      exact .same _

/-- A literal that is no zero is equal to itself only. -/
lemma SameButZeros.eq_of_isZero {a b : Literal} (h : a.SameButZeros b) (ha : a.isZero = false) :
    a = b := by
  cases h with
  | same value => rfl
  | float h => exact absurd h.1 (Bool.eq_false_iff.mp ha)
  | double h => exact absurd h.1 (Bool.eq_false_iff.mp ha)

end Literal

namespace Instruction

/-- Two instructions are the same, or they load zeros of one kind with different signs. -/
inductive SameButZeros : Instruction → Instruction → Prop
  | same (i : Instruction) : SameButZeros i i
  | float {x y : Binary .single} (h : x.OppositeZeros y) :
      SameButZeros (.ldc (.float x)) (.ldc (.float y))
  | double {x y : Binary .double} (h : x.OppositeZeros y) :
      SameButZeros (.ldc (.double x)) (.ldc (.double y))

lemma coupling_sameButZeros : Coupling SameButZeros where
  effect h := by cases h <;> rfl
  self {i} _ := .same i
  truth _ := .same _

end Instruction

lemma Literal.SameButZeros.push {a b : Literal} (h : a.SameButZeros b) (config : Config) :
    (a.push config).SameButZeros (b.push config) := by
  cases h with
  | same value => exact .same _
  | float h => exact .float h
  | double h => exact .double h

/-- With one configuration the same choices are made. -/
lemma Config.coupled_refl {S : Instruction → Instruction → Prop} (hS : ∀ i, S i i)
    (config : Config) : config.Coupled S config where
  checkBalance := rfl
  push _ := hS _
  pushInt _ := hS _
  fieldAccess _ _ := .refl fun _ _ => ⟨hS _, hS _⟩
  construction _ _ := .refl fun _ _ => ⟨hS _, hS _⟩
  call _ _ _ := .refl fun _ _ => hS _
  cast _ := .refl fun i _ => hS i
  newArray _ := .refl fun i _ => hS i

/-! ### Trees -/

namespace Expr

/-- If a node is a floating-point literal, then it is not a zero. -/
def NonzeroLiteral : Expr → Prop
  | literal value => value.isZero = false
  | _ => True

/-- No literal of a tree is a floating-point zero. -/
def Nonzero (e : Expr) : Prop :=
  e.Everywhere NonzeroLiteral

/-- Trees that are equal, one of which has no zeros, are the same. -/
lemma eq_of_nonzero {e e' : Expr} (h : e.Alike Literal.SameButZeros e') (he : e.Nonzero) :
    e = e' := by
  refine h.eq_of_everywhere (he.imp ?_)
  rintro _ hnode a b rfl hab
  exact hab.eq_of_isZero hnode

end Expr

/-! ### Sessions -/

/-- **Equal trees lead to the same code, up to the signs of zeros.**  In any session, take two steps
of one kind on trees that are equal, with floating-point literals compared as numbers.  They have
the same result.  They leave the same labels with the same positions, and the same depths, and their
instructions are the same one by one, except that one may load a zero where the other loads a zero
of the other sign.  If one of the trees has no zeros, then all that the steps leave is the same, the
pool included. -/
theorem Session.step_equal_trees (config : Config) (s : Session Code) {step step' : Step}
    (hstep : step.Coupled (fun e e' => (e == e') = true) step') :
    let one := s.step config step
    let other := s.step config step'
    one.1 = other.1 ∧ one.2.Agree other.2 ∧
      (∃ new new', one.2.sink.instructions.toList = s.sink.instructions.toList ++ new ∧
        other.2.sink.instructions.toList = s.sink.instructions.toList ++ new' ∧
        List.Forall₂ Instruction.SameButZeros new new') ∧
      (step.expr.Nonzero → one = other) := by
  intro one other
  have halike : step.Coupled (Expr.Alike Literal.SameButZeros) step' :=
    hstep.imp fun e e' h => Expr.alike_of_beq (fun _ _ => Literal.sameButZeros_of_beq) h
  have hbefore : Parallel Instruction.SameButZeros s.sink s.sink s s := .refl s
  obtain ⟨hresult, hafter⟩ := hbefore.stepAlike Instruction.coupling_sameButZeros
    (config.coupled_refl .same) (fun h => h.push config) halike
  refine ⟨hresult, hafter.agree, hafter.instructions, fun hnonzero => ?_⟩
  -- without zeros the trees are the same, so this is one step made twice
  have hsame : step = step' := by
    cases halike with
    | compile h => rw [Expr.eq_of_nonzero h hnonzero]
    | lower h => rw [Expr.eq_of_nonzero h hnonzero]
  simp only [one, other, hsame]

/-- After a step that has failed at a NaN, a sum with a zero in one arm of a conditional, and the
same with a zero of the other sign; and a tree without zeros. -/
theorem Session.step_equal_trees_of_zeros :
    let failing : Expr := .arithmetic .add (.literal (.float ⟨0x7FC00001#32⟩))
      (.pop (.literal .null)) (.ofPrimitive .float)
    let s := (Session.start Code.empty).after [({}, .lower failing)]
    let tree (zero : Binary .double) : Expr := .conditional (.not (.load ⟨1, .ofPrimitive .int⟩))
      (.addOf .double (.literal (.double zero)) (.load ⟨2, .ofPrimitive .double⟩))
      (.literal (.double ⟨0x3FF0000000000000#64⟩))
    let plus := tree ⟨0#64⟩
    let minus := tree ⟨0x8000000000000000#64⟩
    let one := s.step {} (.compile plus)
    let other := s.step {} (.compile minus)
    let long : Expr := .literal (.long 1)
    let widened : Expr := .widen long (.ofPrimitive .long) (.ofPrimitive .double)
    (plus == minus) = true ∧
      one.2.sink.instructions.toList ≠ other.2.sink.instructions.toList ∧
      one.1 = other.1 ∧ one.2.Agree other.2 ∧
      (∃ new new', one.2.sink.instructions.toList = s.sink.instructions.toList ++ new ∧
        other.2.sink.instructions.toList = s.sink.instructions.toList ++ new' ∧
        List.Forall₂ Instruction.SameButZeros new new') ∧
      widened.Nonzero ∧ s.step {} (.lower widened) = s.step {} (.lower long.longToDouble) := by
  intro failing s tree plus minus one other long widened
  have heq : (plus == minus) = true := by decide +kernel
  have hne : one.2.sink.instructions.toList ≠ other.2.sink.instructions.toList := by
    simp only [one, other, plus, minus, tree, s, failing]
    decide +kernel
  have hwidened : (widened == long.longToDouble) = true := by decide +kernel
  have hnonzero : widened.Nonzero :=
    .node trivial (List.forall_mem_singleton.mpr (.node rfl (List.forall_mem_nil _)))
  clear_value s plus minus
  obtain ⟨hresult, hagree, hnew, -⟩ := step_equal_trees {} s (.compile heq)
  obtain ⟨-, -, -, hsame⟩ := step_equal_trees {} s (.lower hwidened)
  exact ⟨heq, hne, hresult, hagree, hnew, hnonzero, hsame hnonzero⟩

end StackLowering
