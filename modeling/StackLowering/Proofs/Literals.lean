import Mathlib.Tactic.SplitIfs
import Mathlib.Tactic.Lemma
import StackLowering.Session.Literal

/-!
The instructions that push a literal.

* `Instruction.pushedInt?`: the integer that an instruction pushes, whichever form
  it has.
* `Instruction.pushedInt?_pushInt`: all forms of one integer push that integer.
-/

namespace StackLowering

namespace Instruction

/-- The integer that an instruction pushes. -/
def pushedInt? : Instruction → Option Int32
  | iconst value => some (.ofNat value.toNat)
  | bipush value => some value.toInt32
  | sipush value => some value.toInt32
  | ldc (.int value) => some value
  | _ => none

/-- An integer is pushed as it is, in the compact forms and through the pool. -/
theorem pushedInt?_pushInt (compact : Bool) (n : Int32) :
    (pushInt compact n).pushedInt? = some n := by
  simp only [pushInt]
  split_ifs with hcompact h5 hbyte hshort
  · rfl
  · have hnat : (UInt8.ofNat n.toInt.toNat).toNat = n.toInt.toNat := by
      rw [UInt8.toNat_ofNat']
      omega
    have hval : Int32.ofNat n.toInt.toNat = n := by
      apply Int32.toInt_inj.mp
      rw [Int32.toInt_ofNat_of_lt (by omega)]
      omega
    rw [pushedInt?, hnat, hval]
  · have hval : (Int8.ofInt n.toInt).toInt32 = n := by
      apply Int32.toInt_inj.mp
      rw [Int8.toInt_toInt32, Int8.toInt_ofInt_of_le (by omega) (by omega)]
    rw [pushedInt?, hval]
  · have hval : (Int16.ofInt n.toInt).toInt32 = n := by
      apply Int32.toInt_inj.mp
      rw [Int16.toInt_toInt32, Int16.toInt_ofInt_of_le (by omega) (by omega)]
    rw [pushedInt?, hval]
  · rfl

lemma effect_of_pushedInt? {i : Instruction} {n : Int32} (h : i.pushedInt? = some n) :
    i.effect = ⟨0, 1⟩ := by
  cases i <;> simp_all [pushedInt?, effect]

lemma target?_of_pushedInt? {i : Instruction} {n : Int32} (h : i.pushedInt? = some n) :
    i.target? = none := by
  cases i <;> simp_all [pushedInt?, target?]

@[simp] lemma effect_pushInt (compact : Bool) (n : Int32) :
    (pushInt compact n).effect = ⟨0, 1⟩ :=
  effect_of_pushedInt? (pushedInt?_pushInt compact n)

@[simp] lemma target?_pushInt (compact : Bool) (n : Int32) :
    (pushInt compact n).target? = none :=
  target?_of_pushedInt? (pushedInt?_pushInt compact n)

end Instruction

namespace Literal

@[simp] lemma effect_pushClass (naming : Naming) (type : Ty) :
    (pushClass naming type).effect = ⟨0, 1⟩ := by
  unfold pushClass
  split <;> rfl

@[simp] lemma target?_pushClass (naming : Naming) (type : Ty) :
    (pushClass naming type).target? = none := by
  unfold pushClass
  split <;> rfl

/-- Every literal is one value. -/
@[simp] lemma effect_push (config : Config) (value : Literal) :
    (value.push config).effect = ⟨0, 1⟩ := by
  cases value with
  | byte n => exact Instruction.effect_pushInt _ _
  | short n => exact Instruction.effect_pushInt _ _
  | char n => exact Instruction.effect_pushInt _ _
  | int n => exact Instruction.effect_pushInt _ _
  | classOf type => exact effect_pushClass _ _
  | _ => rfl

@[simp] lemma target?_push (config : Config) (value : Literal) :
    (value.push config).target? = none := by
  cases value with
  | byte n => exact Instruction.target?_pushInt _ _
  | short n => exact Instruction.target?_pushInt _ _
  | char n => exact Instruction.target?_pushInt _ _
  | int n => exact Instruction.target?_pushInt _ _
  | classOf type => exact target?_pushClass _ _
  | _ => rfl

end Literal

end StackLowering
