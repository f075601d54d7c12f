import StackLowering.Proofs.Quotation
import StackLowering.Proofs.Rounding

/-!
The texts of whole numbers and of decimals can be read back.

* `readInt`, `readInt_repr`: reading a whole number with its sign.
* `Decimal.read`: the number that digits with a point and an exponent stand for.
* `Decimal.read_text`: in every style, the text of a decimal reads as the decimal.
* `Decimal.exists_text_cons`: the text begins with a digit.
-/

namespace StackLowering

/-! ### Digits -/

/-- All characters are digits. -/
def AllDigits (text : List Char) : Prop :=
  ∀ c ∈ text, c.isDigit = true

lemma AllDigits.append {s t : List Char} (hs : AllDigits s) (ht : AllDigits t) :
    AllDigits (s ++ t) := by
  intro c hc
  rcases List.mem_append.mp hc with hc | hc
  · exact hs c hc
  · exact ht c hc

lemma AllDigits.notMem {text : List Char} (h : AllDigits text) {c : Char}
    (hc : c.isDigit = false) : c ∉ text := by
  intro hmem
  rw [h c hmem] at hc
  cases hc

lemma allDigits_replicate (n : Nat) : AllDigits (List.replicate n '0') := by
  intro c hc
  rw [List.eq_of_mem_replicate hc]
  rfl

lemma allDigits_toDigits (n : Nat) : AllDigits (Nat.toDigits 10 n) :=
  fun _ hc => Nat.isDigit_of_mem_toDigits (by decide) (by decide) hc

/-- A whole number is written with a sign, if it needs one, and its digits. -/
lemma toList_repr (n : Int) :
    n.repr.toList = (if n < 0 then ['-'] else []) ++ Nat.toDigits 10 n.natAbs := by
  cases n with
  | ofNat n =>
      rw [Int.repr, Nat.repr_eq_ofList_toDigits, String.toList_ofList, if_neg (by simp)]
      rfl
  | negSucc n =>
      rw [Int.repr, String.toList_append, Nat.repr_eq_ofList_toDigits, String.toList_ofList,
        String.toList_ofList, if_pos (Int.negSucc_lt_zero n)]
      rfl

/-- The text of a whole number begins with a sign or a digit. -/
lemma exists_repr_cons (n : Int) :
    ∃ c rest, n.repr.toList = c :: rest ∧ (c = '-' ∨ c.isDigit = true) := by
  rw [toList_repr]
  split_ifs
  · exact ⟨'-', _, rfl, .inl rfl⟩
  · obtain ⟨c, rest, hdigits⟩ := List.exists_cons_of_ne_nil
      (Nat.toDigits_ne_nil (n := n.natAbs) (b := 10))
    exact ⟨c, rest, hdigits, .inr (allDigits_toDigits _ c (hdigits ▸ List.mem_cons_self))⟩

/-- The text of a whole number ends with a digit. -/
lemma exists_getLast?_repr (n : Int) :
    ∃ c, n.repr.toList.getLast? = some c ∧ c.isDigit = true := by
  have hne : Nat.toDigits 10 n.natAbs ≠ [] := Nat.toDigits_ne_nil
  rw [toList_repr, List.getLast?_append_of_ne_nil _ hne, List.getLast?_eq_getLast_of_ne_nil hne]
  exact ⟨_, rfl, allDigits_toDigits _ _ (List.getLast_mem hne)⟩

/-- The whole number that a text stands for: digits, perhaps with a sign before them. -/
def readInt (text : List Char) : Int :=
  if text.head? = some '-' then -(Nat.ofDigitChars 10 text.tail 0 : Nat)
  else (Nat.ofDigitChars 10 text 0 : Nat)

/-- **Whole numbers can be read back.** -/
lemma readInt_repr (n : Int) : readInt n.repr.toList = n := by
  rw [toList_repr]
  split_ifs with hneg
  · rw [List.singleton_append, readInt, List.head?_cons, if_pos rfl, List.tail_cons,
      Nat.ofDigitChars_ten_toDigits]
    omega
  · have hsign : (Nat.toDigits 10 n.natAbs).head? ≠ some '-' := by
      intro hhead
      exact (allDigits_toDigits n.natAbs).notMem (c := '-') rfl (List.mem_of_head? hhead)
    rw [List.nil_append, readInt, if_neg hsign, Nat.ofDigitChars_ten_toDigits]
    omega

/-- No two whole numbers have the same text. -/
lemma eq_of_repr {n m : Int} (h : n.repr = m.repr) : n = m := by
  rw [← readInt_repr n, h, readInt_repr]

namespace Decimal

/-! ### Reading -/

open Text (cut cut_append cut_of_notMem)

/-- The number that a text stands for: digits, perhaps with a point between them, and perhaps an
exponent of ten behind an `e`. -/
def read (text : List Char) : ℚ :=
  let parts := cut 'e' text
  let number := cut '.' parts.1
  Nat.ofDigitChars 10 (number.1 ++ number.2) 0 * 10 ^ (readInt parts.2 - number.2.length)

variable {whole fraction : List Char}

lemma notMem_pointed (hwhole : AllDigits whole) (hfraction : AllDigits fraction) :
    'e' ∉ whole ++ '.' :: fraction := by
  rw [List.mem_append, List.mem_cons]
  rintro (hmem | hmem | hmem)
  · exact hwhole.notMem (c := 'e') rfl hmem
  · cases hmem
  · exact hfraction.notMem (c := 'e') rfl hmem

/-- Reading without an exponent. -/
lemma read_plain (hwhole : AllDigits whole) (hfraction : AllDigits fraction) :
    read (whole ++ '.' :: fraction)
      = Nat.ofDigitChars 10 (whole ++ fraction) 0 * 10 ^ (-(fraction.length : Int)) := by
  have hnone : readInt [] = 0 := rfl
  simp only [read, cut_of_notMem (notMem_pointed hwhole hfraction),
    cut_append (hwhole.notMem (c := '.') rfl), hnone, zero_sub]

/-- Reading with an exponent, where a point stands only before other digits. -/
lemma read_power (hwhole : AllDigits whole) (hfraction : AllDigits fraction) (power : Int) :
    read (whole ++ (if fraction.isEmpty then [] else '.' :: fraction) ++ ['e']
        ++ power.repr.toList)
      = Nat.ofDigitChars 10 (whole ++ fraction) 0 * 10 ^ (power - fraction.length) := by
  rw [List.append_assoc, List.singleton_append]
  -- a single digit has no point behind it, so there is none to cut at
  cases fraction with
  | nil =>
      simp only [List.isEmpty_nil, if_true, List.append_nil, read,
        cut_append (hwhole.notMem (c := 'e') rfl), cut_of_notMem (hwhole.notMem (c := '.') rfl),
        readInt_repr]
  | cons c cs =>
      simp only [List.isEmpty_cons, Bool.false_eq_true, if_false, read,
        cut_append (notMem_pointed hwhole hfraction), cut_append (hwhole.notMem (c := '.') rfl),
        readInt_repr]

/-! ### The digits of a decimal -/

variable (d : Decimal)

lemma exists_digits :
    ∃ zeros, Nat.toDigits 10 d.coefficient = d.digits ++ List.replicate zeros '0' := by
  have hzeros : ∀ c ∈ (Nat.toDigits 10 d.coefficient).reverse.takeWhile (· == '0'), c = '0' :=
    fun c hc => by simpa using List.mem_takeWhile_imp hc
  refine ⟨((Nat.toDigits 10 d.coefficient).reverse.takeWhile (· == '0')).length, ?_⟩
  calc Nat.toDigits 10 d.coefficient
      = ((Nat.toDigits 10 d.coefficient).reverse.takeWhile (· == '0') ++
          (Nat.toDigits 10 d.coefficient).reverse.dropWhile (· == '0')).reverse := by
        rw [List.takeWhile_append_dropWhile, List.reverse_reverse]
    _ = d.digits ++ ((Nat.toDigits 10 d.coefficient).reverse.takeWhile (· == '0')).reverse := by
        rw [List.reverse_append, digits]
    _ = _ := by rw [← List.reverse_replicate, ← List.eq_replicate_of_mem hzeros]

lemma allDigits_digits : AllDigits d.digits := by
  intro c hc
  obtain ⟨zeros, hdigits⟩ := d.exists_digits
  refine allDigits_toDigits d.coefficient c ?_
  rw [hdigits]
  exact List.mem_append_left _ hc

/-- The digits that are left out are zeros at the end. -/
lemma exists_coefficient_eq : ∃ zeros : Nat,
    d.coefficient = 10 ^ zeros * Nat.ofDigitChars 10 d.digits 0 ∧
      d.leadingExponent + 1 - d.digits.length = d.exponent + zeros := by
  obtain ⟨zeros, hdigits⟩ := d.exists_digits
  refine ⟨zeros, ?_, ?_⟩
  · rw [← Nat.ofDigitChars_replicate_zero, ← Nat.ofDigitChars_append, ← hdigits,
      Nat.ofDigitChars_ten_toDigits]
  · rw [leadingExponent, hdigits, List.length_append, List.length_replicate]
    omega

lemma digits_ne_nil (h : d.coefficient ≠ 0) : d.digits ≠ [] := by
  intro hnil
  obtain ⟨zeros, hcoefficient, -⟩ := d.exists_coefficient_eq
  rw [hnil, Nat.ofDigitChars_nil, Nat.mul_zero] at hcoefficient
  exact h hcoefficient

/-- A decimal by its digits and the place of the leading one. -/
lemma value_eq : d.value
    = Nat.ofDigitChars 10 d.digits 0 * 10 ^ (d.leadingExponent + 1 - d.digits.length) := by
  have hten : (10 : ℚ) ≠ 0 := by norm_num
  obtain ⟨zeros, hcoefficient, hexponent⟩ := d.exists_coefficient_eq
  rw [value, hexponent, hcoefficient, zpow_add₀ hten, zpow_natCast, Nat.cast_mul, Nat.cast_pow,
    Nat.cast_ofNat]
  ring

/-! ### Texts -/

section Texts

variable {digits : List Char} {leading : Int}

/-- Zeros before the digits do not count. -/
lemma ofDigitChars_zeros (zeros : Nat) (digits : List Char) :
    Nat.ofDigitChars 10 (List.replicate zeros '0' ++ digits) 0 = Nat.ofDigitChars 10 digits 0 := by
  rw [Nat.ofDigitChars_append, Nat.ofDigitChars_replicate_zero, Nat.mul_zero]

/-- A number below one, with the point before all its digits. -/
lemma read_positional_of_neg (h : AllDigits digits) (hleading : leading < 0) :
    read (positional digits leading)
      = Nat.ofDigitChars 10 digits 0 * 10 ^ (leading + 1 - digits.length) := by
  obtain ⟨zeros, hzeros⟩ : ∃ zeros, (-leading).toNat - 1 = zeros := ⟨_, rfl⟩
  have htext : positional digits leading
      = List.replicate 1 '0' ++ '.' :: (List.replicate zeros '0' ++ digits) := by
    rw [positional, if_pos hleading, hzeros]
    rfl
  have hexponent : -((List.replicate zeros '0' ++ digits).length : Int)
      = leading + 1 - digits.length := by
    rw [List.length_append, List.length_replicate]
    omega
  rw [htext, read_plain (allDigits_replicate 1) ((allDigits_replicate zeros).append h),
    ofDigitChars_zeros, ofDigitChars_zeros, hexponent]

/-- A number without a fraction, perhaps with zeros behind its digits. -/
lemma read_positional_of_le (h : AllDigits digits) (hleading : 0 ≤ leading)
    (hlength : digits.length ≤ leading.toNat + 1) :
    read (positional digits leading)
      = Nat.ofDigitChars 10 digits 0 * 10 ^ (leading + 1 - digits.length) := by
  obtain ⟨zeros, hzeros⟩ : ∃ zeros, leading.toNat + 1 - digits.length = zeros := ⟨_, rfl⟩
  have htext : positional digits leading
      = (digits ++ List.replicate zeros '0') ++ '.' :: List.replicate 1 '0' := by
    rw [positional, if_neg (not_lt.mpr hleading)]
    simp only [List.take_of_length_le hlength, List.drop_of_length_le hlength, List.rightpad,
      hzeros, List.isEmpty_nil, if_true, List.append_assoc, List.singleton_append]
    rfl
  have hexponent : leading + 1 - digits.length = zeros := by omega
  have hten : (10 : ℚ) ≠ 0 := by norm_num
  rw [htext, read_plain (h.append (allDigits_replicate zeros)) (allDigits_replicate 1),
    List.append_assoc, List.replicate_append_replicate, Nat.ofDigitChars_append,
    Nat.ofDigitChars_replicate_zero, hexponent, List.length_replicate]
  calc ((10 ^ (zeros + 1) * Nat.ofDigitChars 10 digits 0 : Nat) : ℚ) * 10 ^ (-((1 : Nat) : Int))
      = Nat.ofDigitChars 10 digits 0 * (10 ^ ((zeros + 1 : Nat) : Int) * 10 ^ (-((1 : Nat) : Int)))
        := by
        rw [Nat.cast_mul, Nat.cast_pow, Nat.cast_ofNat, zpow_natCast]
        ring
    _ = Nat.ofDigitChars 10 digits 0 * 10 ^ (zeros : Int) := by
        rw [← zpow_add₀ hten]
        congr 2
        omega

/-- A number with digits on both sides of the point. -/
lemma read_positional_of_lt (h : AllDigits digits) (hleading : 0 ≤ leading)
    (hlength : leading.toNat + 1 < digits.length) :
    read (positional digits leading)
      = Nat.ofDigitChars 10 digits 0 * 10 ^ (leading + 1 - digits.length) := by
  obtain ⟨whole, hwhole⟩ : ∃ whole, leading.toNat + 1 = whole := ⟨_, rfl⟩
  have htext : positional digits leading = digits.take whole ++ '.' :: digits.drop whole := by
    have htake : whole - (digits.take whole).length = 0 := by
      rw [List.length_take]
      omega
    have hdrop : (digits.drop whole).isEmpty = false := by
      rw [List.isEmpty_eq_false_iff, Ne, List.drop_eq_nil_iff]
      omega
    rw [positional, if_neg (not_lt.mpr hleading)]
    simp only [hwhole, hdrop, List.rightpad, htake, List.replicate_zero, List.append_nil,
      Bool.false_eq_true, if_false, List.append_assoc, List.singleton_append]
  have hexponent : -((digits.drop whole).length : Int) = leading + 1 - digits.length := by
    rw [List.length_drop]
    omega
  rw [htext, read_plain (fun c hc => h c (List.mem_of_mem_take hc))
    (fun c hc => h c (List.mem_of_mem_drop hc)), List.take_append_drop, hexponent]

lemma read_positional (h : AllDigits digits) :
    read (positional digits leading)
      = Nat.ofDigitChars 10 digits 0 * 10 ^ (leading + 1 - digits.length) := by
  -- the point stands before the digits, behind them or between them
  rcases lt_or_ge leading 0 with hleading | hleading
  · exact read_positional_of_neg h hleading
  · rcases le_or_gt digits.length (leading.toNat + 1) with hlength | hlength
    · exact read_positional_of_le h hleading hlength
    · exact read_positional_of_lt h hleading hlength

lemma read_scientific (h : AllDigits digits) (hne : digits ≠ []) :
    read (scientific digits leading)
      = Nat.ofDigitChars 10 digits 0 * 10 ^ (leading + 1 - digits.length) := by
  have hpos : 0 < digits.length := List.length_pos_iff.mpr hne
  have hexponent : leading - ((digits.drop 1).length : Int) = leading + 1 - digits.length := by
    rw [List.length_drop]
    omega
  rw [scientific, read_power (fun c hc => h c (List.mem_of_mem_take hc))
    (fun c hc => h c (List.mem_of_mem_drop hc)), List.take_append_drop, hexponent]

end Texts

/-- **The text of a decimal reads as the decimal**, in every style. -/
theorem read_text (style : Style) (h : d.coefficient ≠ 0) : read (d.text style) = d.value := by
  rw [text, value_eq]
  split_ifs
  · exact read_positional d.allDigits_digits
  · exact read_scientific d.allDigits_digits (d.digits_ne_nil h)

/-- The text of a decimal begins with a digit. -/
lemma exists_text_cons (style : Style) (h : d.coefficient ≠ 0) :
    ∃ c rest, d.text style = c :: rest ∧ c.isDigit = true := by
  obtain ⟨c, cs, hdigits⟩ := List.exists_cons_of_ne_nil (d.digits_ne_nil h)
  have hc : c.isDigit = true := d.allDigits_digits c (hdigits ▸ List.mem_cons_self)
  rw [text, hdigits]
  split_ifs
  · rw [positional]
    split_ifs
    · exact ⟨'0', _, rfl, rfl⟩
    · exact ⟨c, _, rfl, hc⟩
  · exact ⟨c, _, rfl, hc⟩

end Decimal

end StackLowering
