import Mathlib.Algebra.Order.Field.Power
import Mathlib.Data.Nat.Cast.Order.Field
import Mathlib.Data.Rat.Cast.Defs
import Mathlib.Tactic.Linarith
import Mathlib.Tactic.Positivity
import Mathlib.Tactic.Ring
import StackLowering.Number.Shortest

/-!
Decimals that round to binary data.

* `Binary.magnitude`: the place of a datum in the row of those with its sign.
* `BinaryFormat.boundary`: where the numbers that round to one datum end, and those that round to
  the next one begin.  Boundaries ascend.
* `BinaryFormat.Rounds`, `BinaryFormat.Rounds.eq`: the numbers that round to a datum; a number
  rounds to one only.
* `Binary.shortest_rounds`: the shortest decimal of a datum rounds to it.
-/

namespace StackLowering

/-! ### The place of a datum -/

lemma BinaryFormat.fractions_pos (f : BinaryFormat) : 0 < Nat.pow 2 f.fractionBits :=
  Nat.pow_pos Nat.zero_lt_two

namespace Binary

variable {f : BinaryFormat}

/-- The place of a datum among those with the same sign, in ascending order. -/
def magnitude (x : Binary f) : Nat :=
  x.exponentField * Nat.pow 2 f.fractionBits + x.fraction

lemma fraction_lt (x : Binary f) : x.fraction < Nat.pow 2 f.fractionBits :=
  Nat.mod_lt _ f.fractions_pos

lemma magnitude_div (x : Binary f) : x.magnitude / Nat.pow 2 f.fractionBits = x.exponentField := by
  rw [magnitude, Nat.mul_comm, Nat.mul_add_div f.fractions_pos,
    Nat.div_eq_of_lt x.fraction_lt, Nat.add_zero]

lemma magnitude_mod (x : Binary f) : x.magnitude % Nat.pow 2 f.fractionBits = x.fraction := by
  rw [magnitude, Nat.mul_comm, Nat.mul_add_mod, Nat.mod_eq_of_lt x.fraction_lt]

/-- The bits of a datum without the one for the sign. -/
lemma magnitude_eq_mod (x : Binary f) :
    x.magnitude = x.bits.toNat % 2 ^ (f.exponentBits + f.fractionBits) := by
  rw [Nat.add_comm, Nat.pow_add, Nat.mod_mul, magnitude, exponentField, fraction, Nat.mul_comm,
    Nat.add_comm]
  rfl

/-- The bits of a datum are its place, with the sign in front. -/
lemma toNat_bits (x : Binary f) : x.bits.toNat
    = x.magnitude + 2 ^ (f.exponentBits + f.fractionBits) * x.isNegative.toNat := by
  have hlt : x.bits.toNat < 2 ^ (f.exponentBits + f.fractionBits) * 2 := by
    rw [← Nat.pow_succ]
    exact (x.bits.isLt).trans_eq (congrArg (2 ^ ·) (by rw [BinaryFormat.width]; omega))
  have hwidth : f.width - 1 = f.exponentBits + f.fractionBits := by
    rw [BinaryFormat.width]
    omega
  have hdiv := Nat.mod_add_div x.bits.toNat (2 ^ (f.exponentBits + f.fractionBits))
  rw [magnitude_eq_mod, isNegative, BitVec.msb_eq_decide, hwidth]
  by_cases hle : 2 ^ (f.exponentBits + f.fractionBits) ≤ x.bits.toNat
  · have hone : x.bits.toNat / 2 ^ (f.exponentBits + f.fractionBits) = 1 :=
      Nat.div_eq_of_lt_le (by omega) (by omega)
    rw [hone] at hdiv
    simpa [hle] using hdiv.symm
  · rw [Nat.mod_eq_of_lt (Nat.not_le.mp hle)]
    simp [hle]

/-- A datum is given by its sign and its place. -/
lemma eq_of_magnitude {x y : Binary f} (hsign : x.isNegative = y.isNegative)
    (h : x.magnitude = y.magnitude) : x = y := by
  have hbits : x.bits.toNat = y.bits.toNat := by rw [toNat_bits, toNat_bits, hsign, h]
  obtain ⟨bits⟩ := x
  exact congrArg mk (BitVec.eq_of_toNat_eq hbits)

end Binary

/-! ### Boundaries -/

namespace BinaryFormat

variable (f : BinaryFormat)

/-- The significand of the data at a place. -/
def significandAt (n : Nat) : Nat :=
  if n / Nat.pow 2 f.fractionBits = 0 then n % Nat.pow 2 f.fractionBits
  else Nat.pow 2 f.fractionBits + n % Nat.pow 2 f.fractionBits

/-- How many doublings the data at a place are above the smallest ones. -/
def doublings (n : Nat) : Nat :=
  n / Nat.pow 2 f.fractionBits - 1

/-- The number of quarters from the data at a place down to the boundary. -/
def quartersBelow (n : Nat) : Nat :=
  if n % Nat.pow 2 f.fractionBits = 0 ∧ 1 < n / Nat.pow 2 f.fractionBits then 1 else 2

/-- The halfway point between the data at a place and those before, in quarters of the smallest
datum. -/
def boundary (n : Nat) : Nat :=
  (4 * f.significandAt n - f.quartersBelow n) * 2 ^ f.doublings n

/-- **The halfway point above** a datum is the one below the next, also where exponents change. -/
lemma boundary_succ (n : Nat) :
    f.boundary (n + 1) = (4 * f.significandAt n + 2) * 2 ^ f.doublings n := by
  obtain ⟨p, hp⟩ : ∃ p, Nat.pow 2 f.fractionBits = p := ⟨_, rfl⟩
  have hpos : 0 < p := hp ▸ f.fractions_pos
  simp only [boundary, significandAt, quartersBelow, doublings, hp]
  obtain ⟨field, fraction, rfl, hlt⟩ : ∃ field fraction, n = p * field + fraction ∧ fraction < p :=
    ⟨n / p, n % p, (Nat.div_add_mod n p).symm, Nat.mod_lt _ hpos⟩
  have hdiv {k j : Nat} (h : j < p) : (p * k + j) / p = k := by
    rw [Nat.mul_add_div hpos, Nat.div_eq_of_lt h, Nat.add_zero]
  have hmod {k j : Nat} (h : j < p) : (p * k + j) % p = j := by
    rw [Nat.mul_add_mod, Nat.mod_eq_of_lt h]
  by_cases hnext : fraction + 1 < p
  · have hsum : 4 * (if field = 0 then fraction + 1 else p + (fraction + 1)) - 2
        = 4 * (if field = 0 then fraction else p + fraction) + 2 := by
      split_ifs <;> omega
    have hwide : ¬ (fraction + 1 = 0 ∧ 1 < field) := by omega
    rw [Nat.add_assoc, hdiv hnext, hmod hnext, hdiv hlt, hmod hlt, if_neg hwide, hsum]
  · -- the fraction is used up, and the next datum has the next exponent
    have hcarry : p * field + fraction + 1 = p * (field + 1) + 0 := by
      rw [Nat.mul_succ]
      omega
    rw [hcarry, hdiv hpos, hmod hpos, hdiv hlt, hmod hlt]
    cases field with
    -- the first exponent adds no doubling: the data with it are as dense as those below them
    | zero =>
        simp only [Nat.zero_add, Nat.sub_self, Nat.pow_zero, Nat.mul_one, if_true]
        split_ifs <;> omega
    | succ field =>
        simp only [Nat.add_sub_cancel, Nat.succ_ne_zero, if_false, Nat.pow_succ]
        rw [if_pos ⟨trivial, by omega⟩]
        have hsum : 4 * (p + fraction) + 2 = 2 * (4 * (p + 0) - 1) := by omega
        rw [hsum]
        ring

/-- Boundaries ascend. -/
lemma boundary_strictMono : StrictMono f.boundary := by
  refine strictMono_nat_of_lt_succ fun n => ?_
  rw [boundary_succ, boundary]
  exact Nat.mul_lt_mul_of_pos_right (by omega) (Nat.pow_pos Nat.zero_lt_two)

/-- Where there is a bit for the fraction, every other significand is even. -/
lemma significandAt_mod (hbits : 0 < f.fractionBits) (n : Nat) :
    f.significandAt n % 2 = n % 2 := by
  have heven : 2 ∣ Nat.pow 2 f.fractionBits := dvd_pow_self 2 (Nat.ne_of_gt hbits)
  have hmod : n % Nat.pow 2 f.fractionBits % 2 = n % 2 := Nat.mod_mod_of_dvd n heven
  rw [significandAt]
  split_ifs
  · exact hmod
  · rw [← hmod]
    omega

/-- The exponent of the smallest data. -/
def leastExponent : Int :=
  1 - (Nat.pow 2 (f.exponentBits - 1) - 1 : Nat) - f.fractionBits

/-- A number rounds to the data at a place: it lies between the boundaries, or on one of them if
the place is even. -/
def Rounds (n : Nat) (v : ℚ) : Prop :=
  (f.boundary n : ℚ) * 2 ^ f.leastExponent ≤ 4 * v ∧
    4 * v ≤ (f.boundary (n + 1) : ℚ) * 2 ^ f.leastExponent ∧
    (n % 2 = 0 ∨ ((f.boundary n : ℚ) * 2 ^ f.leastExponent ≠ 4 * v ∧
      4 * v ≠ (f.boundary (n + 1) : ℚ) * 2 ^ f.leastExponent))

variable {f}

lemma Rounds.le {n n' : Nat} {v : ℚ} (h : f.Rounds n v) (h' : f.Rounds n' v) : n' ≤ n := by
  by_contra hlt
  have hscale : (0 : ℚ) < 2 ^ f.leastExponent := by positivity
  obtain ⟨-, hupper, heven⟩ := h
  obtain ⟨hlower, -, heven'⟩ := h'
  -- the boundary above `n` is not above the one below `n'`, and the number lies on both
  have hle : f.boundary n' ≤ f.boundary (n + 1) := by
    have hscaled := hlower.trans hupper
    exact_mod_cast le_of_mul_le_mul_right hscaled hscale
  have hnext : n' = n + 1 := by
    have := f.boundary_strictMono.le_iff_le.mp hle
    omega
  subst hnext
  have heq := le_antisymm hlower hupper
  rcases heven with heven | ⟨-, hne⟩
  · rcases heven' with heven' | ⟨hne, -⟩
    · omega
    · exact hne heq
  · exact hne heq.symm

/-- **A number rounds to one datum only.** -/
lemma Rounds.eq {n n' : Nat} {v : ℚ} (h : f.Rounds n v) (h' : f.Rounds n' v) : n = n' :=
  Nat.le_antisymm (h'.le h) (h.le h')

/-- What rounds to a datum that is not the first one is positive. -/
lemma Rounds.pos {n : Nat} {v : ℚ} (h : f.Rounds n v) (hn : n ≠ 0) : 0 < v := by
  have hboundary : 0 < f.boundary n :=
    Nat.lt_of_le_of_lt (Nat.zero_le _) (f.boundary_strictMono (Nat.pos_of_ne_zero hn))
  have hlower : (0 : ℚ) < (f.boundary n : ℚ) * 2 ^ f.leastExponent := by positivity
  linarith [h.1]

end BinaryFormat

/-! ### Shortest decimals -/

/-- The number that a decimal stands for. -/
def Decimal.value (d : Decimal) : ℚ :=
  d.coefficient * 10 ^ d.exponent

namespace Neighbourhood

variable {n : Neighbourhood}

lemma contains_of_nearest? {step c : Nat} (h : n.nearest? step = some c) :
    n.contains (c * step) = true := by
  rw [nearest?] at h
  cases hbelow : n.contains (n.value / step * step) <;>
    cases habove : n.contains ((n.value / step + 1) * step) <;>
    rw [hbelow, habove] at h
  · cases h
  · cases h
    exact habove
  · cases h
    exact hbelow
  · cases h
    split_ifs
    · exact hbelow
    · exact habove

/-- The shortest decimal is one of the interval. -/
lemma exists_shortest (hvalue : n.contains n.value = true) :
    ∃ c, n.contains c = true ∧ n.shortest.value = c * 10 ^ n.exponent := by
  rw [shortest]
  cases hfound : (List.range (Nat.toDigits 10 n.value).length).reverse.findSome?
      fun (dropped : Nat) => (n.nearest? (Nat.pow 10 dropped)).map fun c =>
        Decimal.mk c (n.exponent + dropped) with
  | none => exact ⟨n.value, hvalue, rfl⟩
  | some d =>
      obtain ⟨dropped, -, hdropped⟩ := List.exists_of_findSome?_eq_some hfound
      obtain ⟨c, hc, rfl⟩ := Option.map_eq_some_iff.mp hdropped
      refine ⟨c * Nat.pow 10 dropped, contains_of_nearest? hc, ?_⟩
      have hten : (10 : ℚ) ≠ 0 := by norm_num
      show (c : ℚ) * 10 ^ (n.exponent + dropped) = _
      rw [zpow_add₀ hten, zpow_natCast, Nat.cast_mul, Nat.pow_eq, Nat.cast_pow, Nat.cast_ofNat]
      ring

end Neighbourhood

namespace Binary

variable {f : BinaryFormat} (x : Binary f)

lemma significand_eq : x.significand = f.significandAt x.magnitude := by
  rw [significand, BinaryFormat.significandAt, magnitude_div, magnitude_mod]

lemma quartersBelow_eq :
    (if x.hasNarrowGap then 1 else 2) = f.quartersBelow x.magnitude := by
  rw [BinaryFormat.quartersBelow, magnitude_div, magnitude_mod, hasNarrowGap]
  simp

/-- The exponent of a datum, from its place. -/
lemma exponent_eq : x.exponent = f.doublings x.magnitude + f.leastExponent := by
  rw [exponent, BinaryFormat.doublings, magnitude_div, BinaryFormat.leastExponent]
  omega

/-- How many units of the interval around a datum there are in its last place, if the datum has the
exponent `q`. -/
def unitsOf (q : Int) : Nat :=
  if 0 ≤ q then Nat.pow 2 q.toNat else Nat.pow 5 (-q).toNat

lemma unitsOf_pos (q : Int) : 0 < unitsOf q := by
  rw [unitsOf]
  split_ifs <;> exact Nat.pow_pos (by decide)

lemma unitsOf_mul (q : Int) : (unitsOf q : ℚ) * 10 ^ min q 0 = 2 ^ q := by
  rw [unitsOf]
  split_ifs with hq
  · have hexponent : (q.toNat : Int) = q := Int.toNat_of_nonneg hq
    rw [min_eq_right hq, zpow_zero, mul_one, Nat.pow_eq, Nat.cast_pow, Nat.cast_ofNat,
      ← zpow_natCast, hexponent]
  · have hneg : q < 0 := lt_of_not_ge hq
    have hexponent : ((-q).toNat : Int) = -q := Int.toNat_of_nonneg (by omega)
    have hfive : (5 : ℚ) ≠ 0 := by norm_num
    rw [min_eq_left hneg.le, Nat.pow_eq, Nat.cast_pow, Nat.cast_ofNat, ← zpow_natCast, hexponent]
    calc (5 : ℚ) ^ (-q) * 10 ^ q = 5 ^ (-q) * (5 * 2) ^ q := by norm_num
      _ = 5 ^ (-q) * (5 ^ q * 2 ^ q) := by rw [mul_zpow]
      _ = 5 ^ (-q + q) * 2 ^ q := by rw [zpow_add₀ hfive, mul_assoc]
      _ = 2 ^ q := by rw [neg_add_cancel, zpow_zero, one_mul]

/-- A bound of the interval, as a number. -/
lemma bound_mul (k : Nat) :
    ((k * unitsOf x.exponent : Nat) : ℚ) * 10 ^ min x.exponent 0
      = (k * 2 ^ f.doublings x.magnitude : Nat) * 2 ^ f.leastExponent := by
  have htwo : (2 : ℚ) ≠ 0 := by norm_num
  calc ((k * unitsOf x.exponent : Nat) : ℚ) * 10 ^ min x.exponent 0
      = (k : ℚ) * (unitsOf x.exponent * 10 ^ min x.exponent 0) := by rw [Nat.cast_mul, mul_assoc]
    _ = k * 2 ^ x.exponent := by rw [unitsOf_mul]
    _ = k * (2 ^ f.doublings x.magnitude * 2 ^ f.leastExponent) := by
        rw [exponent_eq, zpow_add₀ htwo, zpow_natCast]
    _ = (k * 2 ^ f.doublings x.magnitude : Nat) * 2 ^ f.leastExponent := by
        rw [Nat.cast_mul, Nat.cast_pow, Nat.cast_ofNat, mul_assoc]

/-- What lies in the interval of a datum rounds to it. -/
lemma rounds_of_contains (hbits : 0 < f.fractionBits) {c : Nat}
    (h : x.neighbourhood.contains c = true) :
    f.Rounds x.magnitude (c * 10 ^ x.neighbourhood.exponent) := by
  have hten : (0 : ℚ) < 10 ^ x.neighbourhood.exponent := by positivity
  have hlower : (f.boundary x.magnitude : ℚ) * 2 ^ f.leastExponent
      = x.neighbourhood.lower * 10 ^ x.neighbourhood.exponent := by
    rw [BinaryFormat.boundary, ← significand_eq, ← quartersBelow_eq, ← bound_mul]
    rfl
  have hupper : (f.boundary (x.magnitude + 1) : ℚ) * 2 ^ f.leastExponent
      = x.neighbourhood.upper * 10 ^ x.neighbourhood.exponent := by
    rw [BinaryFormat.boundary_succ, ← significand_eq, ← bound_mul]
    rfl
  have hvalue : (4 : ℚ) * (c * 10 ^ x.neighbourhood.exponent)
      = (4 * c : Nat) * 10 ^ x.neighbourhood.exponent := by
    rw [Nat.cast_mul, Nat.cast_ofNat, mul_assoc]
  have hle {a b : Nat} (hab : a ≤ b) : (a : ℚ) * 10 ^ x.neighbourhood.exponent
      ≤ b * 10 ^ x.neighbourhood.exponent :=
    mul_le_mul_of_nonneg_right (Nat.cast_le.mpr hab) hten.le
  have hne {a b : Nat} (hab : a ≠ b) : (a : ℚ) * 10 ^ x.neighbourhood.exponent
      ≠ b * 10 ^ x.neighbourhood.exponent :=
    fun heq => hab (Nat.cast_injective (mul_right_cancel₀ hten.ne' heq))
  have hclosed : x.neighbourhood.closed = true ↔ x.magnitude % 2 = 0 := by
    rw [← f.significandAt_mod hbits, ← significand_eq]
    exact beq_iff_eq
  -- all three are multiples of one power of ten, so integers are left to compare
  rw [BinaryFormat.Rounds, hlower, hupper, hvalue]
  rw [Neighbourhood.contains] at h
  split_ifs at h with heven
  · obtain ⟨hfrom, hto⟩ := of_decide_eq_true h
    exact ⟨hle hfrom, hle hto, .inl (hclosed.mp heven)⟩
  · obtain ⟨hfrom, hto⟩ := of_decide_eq_true h
    exact ⟨hle hfrom.le, hle hto.le, .inr ⟨hne hfrom.ne, hne hto.ne⟩⟩

/-- The value of a datum that is not zero lies in its own interval. -/
lemma contains_value (hzero : x.magnitude ≠ 0) :
    x.neighbourhood.contains x.neighbourhood.value = true := by
  have hunits := unitsOf_pos x.exponent
  have hpos : 0 < x.significand := by
    rw [magnitude] at hzero
    rw [significand]
    split_ifs with hfield
    · rw [hfield, Nat.zero_mul, Nat.zero_add] at hzero
      exact Nat.pos_of_ne_zero hzero
    · exact Nat.add_pos_left f.fractions_pos _
  have hfrom : x.neighbourhood.lower < 4 * x.neighbourhood.value := by
    show (4 * x.significand - if x.hasNarrowGap then 1 else 2) * unitsOf x.exponent
      < 4 * (x.significand * unitsOf x.exponent)
    rw [← Nat.mul_assoc]
    refine Nat.mul_lt_mul_of_pos_right ?_ hunits
    split_ifs <;> omega
  have hto : 4 * x.neighbourhood.value < x.neighbourhood.upper := by
    show 4 * (x.significand * unitsOf x.exponent) < (4 * x.significand + 2) * unitsOf x.exponent
    rw [← Nat.mul_assoc]
    exact Nat.mul_lt_mul_of_pos_right (by omega) hunits
  rw [Neighbourhood.contains]
  split_ifs
  · exact decide_eq_true ⟨hfrom.le, hto.le⟩
  · exact decide_eq_true ⟨hfrom, hto⟩

/-- **The shortest decimal of a datum rounds to the datum.** -/
theorem shortest_rounds (hbits : 0 < f.fractionBits) (hzero : x.magnitude ≠ 0) :
    f.Rounds x.magnitude x.shortest.value := by
  obtain ⟨c, hc, hvalue⟩ := Neighbourhood.exists_shortest (x.contains_value hzero)
  rw [shortest, hvalue]
  exact x.rounds_of_contains hbits hc

end Binary

end StackLowering
