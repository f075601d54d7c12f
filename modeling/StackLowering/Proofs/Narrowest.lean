import StackLowering.Proofs.Literals
import StackLowering.Proofs.Runs

/-!
How literals are encoded.

* `IntegerForm`: the forms in which an instruction pushes an integer, from the narrowest to the
  widest; `IntegerForm.holds_iff` gives the integers that each of them has room for.
* `Instruction.form_pushInt`: with the compact forms, an integer is pushed in the first form that
  has room for it.
* `Literal.push_inj`: literals of one kind that are pushed alike are the same.
* `Literal.encoding_exact`: **literals are encoded exactly, and integers as narrowly as possible**.
-/

namespace StackLowering

/-! ### Forms of integers -/

/-- The forms in which an instruction pushes an integer: by an instruction of its own, in one byte,
in two bytes, or from the pool. -/
inductive IntegerForm where
  | own
  | byte
  | short
  | pool
  deriving DecidableEq, Repr

/-- The place of a form in the order from the narrowest to the widest. -/
def IntegerForm.rank : IntegerForm → Nat
  | own => 0
  | byte => 1
  | short => 2
  | pool => 3

/-- The form in which an instruction pushes an integer.  Only the integers from 0 to 5 have
instructions of their own. -/
def Instruction.integerForm? : Instruction → Option IntegerForm
  | iconst value => if value.toNat ≤ 5 then some .own else none
  | bipush _ => some .byte
  | sipush _ => some .short
  | ldc (.int _) => some .pool
  | _ => none

namespace IntegerForm

/-- A form has room for an integer if an instruction of this form pushes it. -/
def Holds (form : IntegerForm) (n : Int) : Prop :=
  ∃ i : Instruction, i.integerForm? = some form ∧ i.pushedInt?.map Int32.toInt = some n

/-- The integers that a form has room for lie between these two. -/
def range : IntegerForm → Int × Int
  | own => (0, 5)
  | byte => (-128, 127)
  | short => (-32768, 32767)
  | pool => (-2147483648, 2147483647)

/-- Every form has room for a range of integers. -/
lemma holds_iff {form : IntegerForm} {n : Int} :
    form.Holds n ↔ form.range.1 ≤ n ∧ n ≤ form.range.2 := by
  constructor
  · rintro ⟨i, hform, hpushed⟩
    cases i with
    | iconst value =>
        rw [Instruction.integerForm?] at hform
        split_ifs at hform with hle
        cases hform
        cases hpushed
        rw [Int32.toInt_ofNat_of_lt (by omega)]
        simp only [range]
        omega
    | bipush value =>
        cases hform
        cases hpushed
        rw [Int8.toInt_toInt32]
        exact ⟨value.le_toInt, value.toInt_le⟩
    | sipush value =>
        cases hform
        cases hpushed
        rw [Int16.toInt_toInt32]
        exact ⟨value.le_toInt, value.toInt_le⟩
    | ldc constant =>
        cases constant with
        | int value =>
            cases hform
            cases hpushed
            exact ⟨value.le_toInt, value.toInt_le⟩
        | _ => cases hform
    | _ => cases hform
  · rintro ⟨hlow, hhigh⟩
    cases form with
    | own =>
        simp only [range] at hlow hhigh
        have hnat : (UInt8.ofNat n.toNat).toNat = n.toNat := by
          rw [UInt8.toNat_ofNat']
          omega
        refine ⟨.iconst (.ofNat n.toNat), ?_, ?_⟩
        · rw [Instruction.integerForm?, hnat, if_pos (by omega)]
        · rw [Instruction.pushedInt?, hnat, Option.map_some, Int32.toInt_ofNat_of_lt (by omega)]
          exact congrArg some (Int.toNat_of_nonneg hlow)
    | byte =>
        refine ⟨.bipush (.ofInt n), rfl, ?_⟩
        rw [Instruction.pushedInt?, Option.map_some, Int8.toInt_toInt32,
          Int8.toInt_ofInt_of_le hlow (by simp only [range] at hhigh; omega)]
    | short =>
        refine ⟨.sipush (.ofInt n), rfl, ?_⟩
        rw [Instruction.pushedInt?, Option.map_some, Int16.toInt_toInt32,
          Int16.toInt_ofInt_of_le hlow (by simp only [range] at hhigh; omega)]
    | pool =>
        refine ⟨.ldc (.int (.ofInt n)), rfl, ?_⟩
        rw [Instruction.pushedInt?, Option.map_some,
          Int32.toInt_ofInt_of_le hlow (by simp only [range] at hhigh; omega)]

/-- A form is the first one that has room for an integer. -/
def IsFirst (form : IntegerForm) (n : Int) : Prop :=
  form.Holds n ∧ ∀ narrower : IntegerForm, narrower.rank < form.rank → ¬ narrower.Holds n

end IntegerForm

/-- With the compact forms, an integer is pushed in the first form that has room for it. -/
lemma Instruction.form_pushInt (n : Int32) :
    ∃ form, (pushInt true n).integerForm? = some form ∧ form.IsFirst n.toInt := by
  have hlow := n.le_toInt
  have hhigh := n.toInt_lt
  -- `pushInt` tries the ranges in order, so each branch knows that the narrower ones have failed
  simp only [IntegerForm.IsFirst, IntegerForm.holds_iff, pushInt]
  split_ifs with hcompact hown hbyte hshort
  · cases hcompact
  · have hnat : (UInt8.ofNat n.toInt.toNat).toNat = n.toInt.toNat := by
      rw [UInt8.toNat_ofNat']
      omega
    refine ⟨.own, ?_, hown, fun narrower hlt => absurd hlt (Nat.not_lt_zero _)⟩
    rw [integerForm?, hnat, if_pos (by omega)]
  · refine ⟨.byte, rfl, hbyte, fun narrower hlt => ?_⟩
    cases narrower <;> simp_all [IntegerForm.rank, IntegerForm.range]
  · refine ⟨.short, rfl, hshort, fun narrower hlt => ?_⟩
    cases narrower <;> simp_all [IntegerForm.rank, IntegerForm.range]
  · refine ⟨.pool, rfl, ⟨hlow, by simp only [IntegerForm.range]; omega⟩, fun narrower hlt => ?_⟩
    cases narrower <;> simp_all [IntegerForm.rank, IntegerForm.range]

/-! ### Literals -/

namespace Literal

/-- The integer that a literal of an integer type stands for.  Characters stand for their codes,
which have no sign. -/
def integer? : Literal → Option Int
  | byte value => some value.toInt
  | short value => some value.toInt
  | char value => some value.toNat
  | int value => some value.toInt
  | _ => none

/-- The constant of the pool that stands for a long integer, a number with a fraction or a text. -/
def constant? : Literal → Option Constant
  | long value => some (.long value)
  | float value => some (.float value)
  | double value => some (.double value)
  | string value => some (.string value)
  | _ => none

/-- The kinds of literals. -/
inductive Kind where
  | null
  | bool
  | byte
  | short
  | char
  | int
  | long
  | float
  | double
  | string
  | classOf
  deriving DecidableEq, Repr

/-- The kind of a literal. -/
def kind : Literal → Kind
  | null => .null
  | bool _ => .bool
  | byte _ => .byte
  | short _ => .short
  | char _ => .char
  | int _ => .int
  | long _ => .long
  | float _ => .float
  | double _ => .double
  | string _ => .string
  | classOf _ => .classOf

variable (config : Config)

/-- Whatever its type, an integer is widened without a change before it is pushed. -/
lemma push_of_integer? {l : Literal} {n : Int} (h : l.integer? = some n) :
    ∃ value : Int32, l.push config = .pushInt config.options.compactConstants value ∧
      value.toInt = n := by
  cases l with
  | byte value =>
      cases h
      exact ⟨_, rfl, Int8.toInt_toInt32 value⟩
  | short value =>
      cases h
      exact ⟨_, rfl, Int16.toInt_toInt32 value⟩
  | char value =>
      cases h
      have hlt : value.toNat < 65536 := value.toNat_lt
      exact ⟨_, rfl, Int32.toInt_ofNat_of_lt (by omega)⟩
  | int value =>
      cases h
      exact ⟨value, rfl, rfl⟩
  | _ => cases h

lemma pushedInt?_push {l : Literal} {n : Int} (h : l.integer? = some n) :
    (l.push config).pushedInt?.map Int32.toInt = some n := by
  obtain ⟨value, hpush, hvalue⟩ := push_of_integer? config h
  rw [hpush, Instruction.pushedInt?_pushInt, Option.map_some, hvalue]

lemma push_of_constant? {l : Literal} {c : Constant} (h : l.constant? = some c) :
    l.push config = .ldc c := by
  cases l with
  | long value | float value | double value | string value =>
      cases h
      rfl
  | _ => cases h

/-- Integers of one kind are told apart by their values. -/
lemma eq_of_integer? {l l' : Literal} {n : Int} (hkind : l.kind = l'.kind)
    (h : l.integer? = some n) (h' : l'.integer? = some n) : l = l' := by
  have hsame : l.integer? = l'.integer? := h.trans h'.symm
  cases l with
  | byte value =>
      cases l' <;> cases hkind
      exact congrArg byte (Int8.toInt_inj.mp (Option.some.inj hsame))
  | short value =>
      cases l' <;> cases hkind
      exact congrArg short (Int16.toInt_inj.mp (Option.some.inj hsame))
  | char value =>
      cases l' <;> cases hkind
      exact congrArg char (UInt16.toNat_inj.mp (Int.ofNat_inj.mp (Option.some.inj hsame)))
  | int value =>
      cases l' <;> cases hkind
      exact congrArg int (Int32.toInt_inj.mp (Option.some.inj hsame))
  | _ => cases h

/-- Literals of one kind that are pushed alike are the same.  This is not so for class objects,
since types with the same name may differ in their modifiers. -/
lemma push_inj {l l' : Literal} (hkind : l.kind = l'.kind) (hclass : l.kind ≠ .classOf)
    (h : l.push config = l'.push config) : l = l' := by
  have hinteger {n n' : Int} (hn : l.integer? = some n) (hn' : l'.integer? = some n') : l = l' := by
    have heq := pushedInt?_push config hn
    rw [h, pushedInt?_push config hn'] at heq
    cases heq
    exact eq_of_integer? hkind hn hn'
  cases l with
  | null =>
      cases l' <;> cases hkind
      rfl
  | bool value =>
      cases l' <;> cases hkind
      rename_i value'
      have hbyte : value.toUInt8 = value'.toUInt8 := Instruction.iconst.inj h
      have hinj : ∀ b b' : Bool, b.toUInt8 = b'.toUInt8 → b = b' := by decide
      exact congrArg bool (hinj value value' hbyte)
  | byte value | short value | char value | int value =>
      cases l' <;> cases hkind
      exact hinteger rfl rfl
  | long value | float value | double value | string value =>
      cases l' <;> cases hkind
      cases h
      rfl
  | classOf type => exact absurd rfl hclass

end Literal

/-! ### Encoding -/

/-- **Literals are encoded exactly, and integers as narrowly as possible.**  In every session a
literal becomes one instruction.  For bytes, shorts, characters and integers this instruction pushes
the integer that the literal stands for; and with the compact forms, it has the first form that has
room for this integer, in the order of instructions of their own for 0 to 5, one byte, two bytes and
the pool.  For long integers, numbers with a fraction and texts the instruction loads a constant
that carries the value as it is, bit for bit.  So two literals of one kind become the same
instruction exactly if they have the same value, which for numbers with a fraction is to have the
same bits. -/
theorem Literal.encoding_exact {σ : Type} [Sink σ] (config : Config) :
    (∀ (l : Literal) (s : Session σ),
      ((Expr.literal l).lower config).run s = .ok () (s.emitted (l.push config))) ∧
    (∀ (l : Literal) (n : Int), l.integer? = some n →
      (l.push config).pushedInt?.map Int32.toInt = some n ∧
      (config.options.compactConstants = true →
        ∃ form, (l.push config).integerForm? = some form ∧ form.IsFirst n)) ∧
    (∀ (l : Literal) (c : Constant), l.constant? = some c → l.push config = .ldc c) ∧
    ∀ l l' : Literal, l.kind = l'.kind → l.kind ≠ .classOf →
      (l.push config = l'.push config ↔ l = l') := by
  refine ⟨fun l s => ?_, fun l n hn => ⟨pushedInt?_push config hn, fun hcompact => ?_⟩,
    fun l c => push_of_constant? config,
    fun l l' hkind hclass => ⟨push_inj config hkind hclass, ?_⟩⟩
  · rw [Expr.lower]
    exact Lowering.run_emit _ s
  · obtain ⟨value, hpush, rfl⟩ := push_of_integer? config hn
    rw [hpush, hcompact]
    exact Instruction.form_pushInt value
  · rintro rfl
    rfl

/-- The largest character takes the pool, since two bytes with a sign have no room for it, and the
smallest byte takes one byte; a NaN keeps the bits that other NaNs do not have, and the two zeros
are not mistaken for each other. -/
theorem Literal.encoding_exact_of_limits :
    let nan : Binary .single := ⟨0x7fc00001⟩
    let zero : Binary .double := ⟨0⟩
    let negative : Binary .double := ⟨0x8000000000000000⟩
    (char 65535).integer? = some 65535 ∧ (byte (-128)).integer? = some (-128) ∧
      ((char 65535).push {}).pushedInt?.map Int32.toInt = some 65535 ∧
      ((byte (-128)).push {}).pushedInt?.map Int32.toInt = some (-128) ∧
      (∃ form, ((char 65535).push {}).integerForm? = some form ∧ form.IsFirst 65535 ∧
        form = .pool) ∧
      (∃ form, ((byte (-128)).push {}).integerForm? = some form ∧ form.IsFirst (-128) ∧
        form = .byte) ∧
      (float nan).push {} = .ldc (.float nan) ∧
      (double zero).push {} ≠ (double negative).push {} := by
  intro nan zero negative
  obtain ⟨-, hinteger, hconstant, hsame⟩ := encoding_exact (σ := Trace) {}
  obtain ⟨hchar, hcharForm⟩ := hinteger (char 65535) 65535 rfl
  obtain ⟨hbyte, hbyteForm⟩ := hinteger (byte (-128)) (-128) rfl
  obtain ⟨form, hform, hfirst⟩ := hcharForm rfl
  obtain ⟨form', hform', hfirst'⟩ := hbyteForm rfl
  have hpool : form = .pool := Option.some.inj (hform.symm.trans (by decide))
  have hone : form' = .byte := Option.some.inj (hform'.symm.trans (by decide))
  refine ⟨rfl, rfl, hchar, hbyte, ⟨form, hform, hfirst, hpool⟩, ⟨form', hform', hfirst', hone⟩,
    hconstant _ _ rfl, fun heq => ?_⟩
  have hzeros := (hsame (double zero) (double negative) rfl (by decide)).mp heq
  exact absurd (Literal.double.inj hzeros) (by decide)

end StackLowering
