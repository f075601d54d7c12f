import StackLowering.Instruction.Text
import StackLowering.Proofs.Numerals

/-!
The texts of constants tell the constants apart.

* `Binary.rounds_read`: the text of a finite datum without its sign reads as a number that rounds to
  the datum.
* `Binary.text_eq_iff`: only data that are not numbers share a text.
* `Constant.Kind.ofText`, `Constant.ofText_text`: a reader finds the kind of a constant by the
  beginning and the end of its text.
* `Constant.text_eq_text_iff`: **constants with the same text are the same**, up to data that are
  not numbers.
-/

namespace StackLowering

/-! ### Binary data -/

namespace Binary

variable {f : BinaryFormat} (style : Decimal.Style)

/-- The text of a datum that is a number or an infinity, without the sign. -/
def magnitudeText (x : Binary f) : List Char :=
  if x.isSpecial then "inf".toList
  else if x.isZero then "0.0".toList
  else x.shortest.text style

variable {x y : Binary f}

lemma toList_text_of_isNaN (h : x.isNaN = true) : (x.text style).toList = "NaN".toList := by
  rw [text, if_pos h]

lemma toList_text (h : x.isNaN = false) :
    (x.text style).toList = (if x.isNegative then ['-'] else []) ++ x.magnitudeText style := by
  rw [text, h, magnitudeText]
  simp only [Bool.false_eq_true, if_false, String.toList_append]
  congr 1
  · split_ifs <;> rfl
  · split_ifs
    · rfl
    · rfl
    · exact String.toList_ofList

lemma isZero_iff : x.isZero = true ↔ x.magnitude = 0 := by
  have hpos := f.fractions_pos
  rw [isZero, magnitude, Bool.and_eq_true, beq_iff_eq, beq_iff_eq, Nat.add_eq_zero_iff,
    Nat.mul_eq_zero]
  constructor
  · rintro ⟨hfield, hfraction⟩
    exact ⟨.inl hfield, hfraction⟩
  · rintro ⟨hfield | hnone, hfraction⟩
    · exact ⟨hfield, hfraction⟩
    · exact absurd hnone hpos.ne'

/-- The shortest decimal of a datum that is not zero is not zero. -/
lemma coefficient_shortest_ne_zero (hbits : 0 < f.fractionBits) (hzero : x.magnitude ≠ 0) :
    x.shortest.coefficient ≠ 0 := by
  intro hnone
  have hpos := (x.shortest_rounds hbits hzero).pos hzero
  rw [Decimal.value, hnone, Nat.cast_zero, zero_mul] at hpos
  exact lt_irrefl 0 hpos

/-- The text of a finite datum begins with a digit, and that of an infinity with a letter. -/
lemma exists_magnitudeText_cons (hbits : 0 < f.fractionBits) (x : Binary f) :
    ∃ c rest, x.magnitudeText style = c :: rest ∧
      (x.isSpecial = true ∧ c = 'i' ∨ x.isSpecial = false ∧ c.isDigit = true) := by
  rw [magnitudeText]
  split_ifs with hspecial hzero
  · exact ⟨'i', _, rfl, .inl ⟨hspecial, rfl⟩⟩
  · exact ⟨'0', _, rfl, .inr ⟨by simpa using hspecial, rfl⟩⟩
  · have hne : x.magnitude ≠ 0 := fun h => hzero (isZero_iff.mpr h)
    obtain ⟨c, rest, htext, hc⟩ :=
      x.shortest.exists_text_cons style (coefficient_shortest_ne_zero hbits hne)
    exact ⟨c, rest, htext, .inr ⟨by simpa using hspecial, hc⟩⟩

/-- **Finite data can be read back**: what their text stands for rounds to them. -/
lemma rounds_read (hbits : 0 < f.fractionBits) (hspecial : x.isSpecial = false) :
    f.Rounds x.magnitude (Decimal.read (x.magnitudeText style)) := by
  rw [magnitudeText, if_neg (by simp [hspecial])]
  split_ifs with hzero
  · have hread : Decimal.read "0.0".toList = 0 := by
      have hplain := Decimal.read_plain (allDigits_replicate 1) (allDigits_replicate 1)
      exact hplain.trans (by simp [Nat.ofDigitChars])
    rw [isZero_iff.mp hzero, hread]
    refine ⟨?_, ?_, .inl rfl⟩
    · simp [BinaryFormat.boundary, BinaryFormat.significandAt]
    · rw [mul_zero]
      positivity
  · have hne : x.magnitude ≠ 0 := fun h => hzero (isZero_iff.mpr h)
    rw [x.shortest.read_text style (coefficient_shortest_ne_zero hbits hne)]
    exact x.shortest_rounds hbits hne

/-- There is one magnitude for infinities. -/
lemma magnitude_of_isSpecial (hspecial : x.isSpecial = true) (hnan : x.isNaN = false) :
    x.magnitude = (Nat.pow 2 f.exponentBits - 1) * Nat.pow 2 f.fractionBits := by
  have hfraction : x.fraction = 0 := by simpa [isNaN, hspecial] using hnan
  rw [magnitude, beq_iff_eq.mp hspecial, hfraction, Nat.add_zero]

lemma magnitude_eq_of_magnitudeText (hbits : 0 < f.fractionBits) (hx : x.isNaN = false)
    (hy : y.isNaN = false) (h : x.magnitudeText style = y.magnitudeText style) :
    x.magnitude = y.magnitude := by
  obtain ⟨c, rest, hxtext, hc⟩ := x.exists_magnitudeText_cons style hbits
  obtain ⟨d, rest', hytext, hd⟩ := y.exists_magnitudeText_cons style hbits
  -- the first character tells infinities from finite data
  obtain ⟨rfl, -⟩ := List.cons.inj (hxtext.symm.trans (h.trans hytext))
  rcases hc with ⟨hspecial, rfl⟩ | ⟨hfinite, hdigit⟩
  · rcases hd with ⟨hspecial', -⟩ | ⟨-, hdigit⟩
    · rw [magnitude_of_isSpecial hspecial hx, magnitude_of_isSpecial hspecial' hy]
    · cases hdigit
  · rcases hd with ⟨-, rfl⟩ | ⟨hfinite', -⟩
    · cases hdigit
    · -- one text reads as one number, and a number rounds to one datum
      have hread := rounds_read style hbits hfinite
      rw [h] at hread
      exact hread.eq (rounds_read style hbits hfinite')

/-- The text of a number or an infinity begins with a sign, a digit or a letter of its own. -/
lemma exists_text_cons (hbits : 0 < f.fractionBits) (hx : x.isNaN = false) :
    ∃ c rest, (x.text style).toList = c :: rest ∧
      (x.isNegative = true ∧ c = '-' ∨ x.isNegative = false ∧ (c = 'i' ∨ c.isDigit = true)) := by
  obtain ⟨c, rest, htext, hc⟩ := x.exists_magnitudeText_cons style hbits
  rw [toList_text style hx]
  cases hsign : x.isNegative with
  | true => exact ⟨'-', _, rfl, .inl ⟨rfl, rfl⟩⟩
  | false => exact ⟨c, rest, htext, .inr ⟨rfl, hc.imp And.right And.right⟩⟩

lemma eq_of_text (hbits : 0 < f.fractionBits) (hx : x.isNaN = false) (hy : y.isNaN = false)
    (h : x.text style = y.text style) : x = y := by
  obtain ⟨c, rest, hxtext, hc⟩ := exists_text_cons style hbits hx
  obtain ⟨d, rest', hytext, hd⟩ := exists_text_cons style hbits hy
  obtain ⟨rfl, -⟩ := List.cons.inj (hxtext.symm.trans ((congrArg String.toList h).trans hytext))
  have hsign : x.isNegative = y.isNegative := by
    rcases hc with ⟨hneg, rfl⟩ | ⟨hpos, hdigit⟩
    · rcases hd with ⟨hneg', -⟩ | ⟨-, hletter | hdigit⟩
      · rw [hneg, hneg']
      · cases hletter
      · cases hdigit
    · rcases hd with ⟨-, rfl⟩ | ⟨hpos', -⟩
      · rcases hdigit with hletter | hdigit
        · cases hletter
        · cases hdigit
      · rw [hpos, hpos']
  have htext := congrArg String.toList h
  rw [toList_text style hx, toList_text style hy, hsign] at htext
  exact eq_of_magnitude hsign
    (magnitude_eq_of_magnitudeText style hbits hx hy (List.append_cancel_left htext))

lemma text_ne_of_isNaN (hbits : 0 < f.fractionBits) (hx : x.isNaN = true) (hy : y.isNaN = false) :
    x.text style ≠ y.text style := by
  intro h
  obtain ⟨c, rest, htext, hc⟩ := exists_text_cons style hbits hy
  have hhead := List.cons.inj
    ((toList_text_of_isNaN style hx).symm.trans ((congrArg String.toList h).trans htext))
  rcases hc with ⟨-, rfl⟩ | ⟨-, rfl | hdigit⟩
  · cases hhead.1
  · cases hhead.1
  · rw [← hhead.1] at hdigit
    cases hdigit

/-- **Only data that are not numbers share a text.** -/
lemma text_eq_iff (hbits : 0 < f.fractionBits) (x y : Binary f) :
    x.text style = y.text style ↔ x = y ∨ x.isNaN = true ∧ y.isNaN = true := by
  constructor
  · intro h
    cases hx : x.isNaN with
    | false =>
        cases hy : y.isNaN with
        | false => exact .inl (eq_of_text style hbits hx hy h)
        | true => exact absurd h.symm (text_ne_of_isNaN style hbits hy hx)
    | true =>
        cases hy : y.isNaN with
        | false => exact absurd h (text_ne_of_isNaN style hbits hx hy)
        | true => exact .inr ⟨rfl, rfl⟩
  · rintro (rfl | ⟨hx, hy⟩)
    · rfl
    · rw [text, text, if_pos hx, if_pos hy]

end Binary

/-! ### Kinds of constants -/

namespace Constant

/-- The kinds of constants. -/
inductive Kind where
  | int
  | long
  | float
  | double
  | string
  | classRef

/-- The kind of a constant. -/
def kind : Constant → Kind
  | int _ => .int
  | long _ => .long
  | float _ => .float
  | double _ => .double
  | string _ => .string
  | classRef _ => .classRef

namespace Kind

/-- The kind of a number by the last character of its text. -/
def ofMark (mark : Char) : Kind :=
  if mark = 'L' then .long
  else if mark = 'F' then .float
  else if mark = 'D' then .double
  else .int

/-- The kind of a constant by its text: strings and classes are found by the first character, and
numbers by the last one. -/
def ofText (text : List Char) : Kind :=
  if text.head? = some '"' then .string
  else if text.head? = some 'c' then .classRef
  else (text.getLast?.map ofMark).getD .int

lemma ofMark_of_isDigit {c : Char} (h : c.isDigit = true) : ofMark c = .int := by
  have hne (mark : Char) (hmark : mark.isDigit = false) : c ≠ mark := by
    rintro rfl
    rw [h] at hmark
    cases hmark
  rw [ofMark, if_neg (hne _ rfl), if_neg (hne _ rfl), if_neg (hne _ rfl)]

/-- A text that begins like a number. -/
lemma ofText_eq {c mark : Char} {rest : List Char} (hquote : c ≠ '"') (hletter : c ≠ 'c')
    (hmark : (c :: rest).getLast? = some mark) : ofText (c :: rest) = ofMark mark := by
  rw [ofText, List.head?_cons, if_neg (by simpa using hquote), if_neg (by simpa using hletter),
    hmark]
  rfl

end Kind

/-- Signs and digits stand neither before strings nor before classes. -/
lemma ne_of_sign_or_digit {c : Char} (h : c = '-' ∨ c.isDigit = true) : c ≠ '"' ∧ c ≠ 'c' := by
  rcases h with rfl | hdigit
  · exact ⟨by decide, by decide⟩
  · constructor
    · rintro rfl
      cases hdigit
    · rintro rfl
      cases hdigit

/-- The first character of the text of a datum. -/
lemma exists_float_cons {f : BinaryFormat} (hbits : 0 < f.fractionBits) (style : Decimal.Style)
    (x : Binary f) : ∃ c rest, (x.text style).toList = c :: rest ∧ c ≠ '"' ∧ c ≠ 'c' := by
  cases hx : x.isNaN with
  | true => exact ⟨'N', _, x.toList_text_of_isNaN style hx, by decide, by decide⟩
  | false =>
      obtain ⟨c, rest, htext, hc⟩ := x.exists_text_cons style hbits hx
      refine ⟨c, rest, htext, ?_⟩
      rcases hc with ⟨-, rfl⟩ | ⟨-, rfl | hdigit⟩
      · exact ⟨by decide, by decide⟩
      · exact ⟨by decide, by decide⟩
      · exact ne_of_sign_or_digit (.inr hdigit)

/-- A number with a mark behind its text. -/
lemma ofText_marked {text : List Char} (h : ∃ c rest, text = c :: rest ∧ c ≠ '"' ∧ c ≠ 'c')
    (mark : Char) : Kind.ofText (text ++ [mark]) = Kind.ofMark mark := by
  obtain ⟨c, rest, rfl, hquote, hletter⟩ := h
  have hlast : ((c :: rest) ++ [mark]).getLast? = some mark := List.getLast?_concat
  exact Kind.ofText_eq hquote hletter hlast

/-- **The text of a constant shows its kind.** -/
lemma ofText_text (p : Constant) : Kind.ofText p.text.toList = p.kind := by
  have hwhole (n : Int) : ∃ c rest, n.repr.toList = c :: rest ∧ c ≠ '"' ∧ c ≠ 'c' := by
    obtain ⟨c, rest, htext, hc⟩ := exists_repr_cons n
    exact ⟨c, rest, htext, ne_of_sign_or_digit hc⟩
  cases p with
  | int n =>
      obtain ⟨c, rest, htext, hquote, hletter⟩ := hwhole n.toInt
      obtain ⟨last, hlast, hdigit⟩ := exists_getLast?_repr n.toInt
      rw [htext] at hlast
      rw [text, htext, Kind.ofText_eq hquote hletter hlast, Kind.ofMark_of_isDigit hdigit]
      rfl
  | long n =>
      rw [text, String.toList_append]
      exact ofText_marked (hwhole n.toInt) 'L'
  | float x =>
      rw [text, String.toList_append]
      exact ofText_marked (exists_float_cons (by decide) decimalStyle x) 'F'
  | double x =>
      rw [text, String.toList_append]
      exact ofText_marked (exists_float_cons (by decide) decimalStyle x) 'D'
  | string s =>
      rw [text, Text.quote, String.toList_ofList]
      rfl
  | classRef name =>
      rw [text, String.toList_append]
      rfl

/-! ### Constants with the same text -/

/-- Two constants are the same, or both are data of one format that are not numbers. -/
def Alike (p q : Constant) : Prop :=
  p = q ∨
    (∃ x y, p = .float x ∧ q = .float y ∧ x.isNaN = true ∧ y.isNaN = true) ∨
    ∃ x y, p = .double x ∧ q = .double y ∧ x.isNaN = true ∧ y.isNaN = true

lemma alike_of_text {p q : Constant} (h : p.text = q.text) : p.Alike q := by
  have hkind : p.kind = q.kind := by rw [← ofText_text, h, ofText_text]
  cases p with
  | int n =>
      cases q with
      | int m => exact .inl (congrArg int (Int32.toInt_inj.mp (eq_of_repr h)))
      | _ => cases hkind
  | long n =>
      cases q with
      | long m =>
          have hrepr : n.toInt.repr = m.toInt.repr := (String.append_left_inj "L").mp h
          exact .inl (congrArg long (Int64.toInt_inj.mp (eq_of_repr hrepr)))
      | _ => cases hkind
  | float x =>
      cases q with
      | float y =>
          have hnumber : x.text decimalStyle = y.text decimalStyle :=
            (String.append_left_inj "F").mp h
          rcases (x.text_eq_iff decimalStyle (by decide) y).mp hnumber with rfl | hnan
          · exact .inl rfl
          · exact .inr (.inl ⟨x, y, rfl, rfl, hnan⟩)
      | _ => cases hkind
  | double x =>
      cases q with
      | double y =>
          have hnumber : x.text decimalStyle = y.text decimalStyle :=
            (String.append_left_inj "D").mp h
          rcases (x.text_eq_iff decimalStyle (by decide) y).mp hnumber with rfl | hnan
          · exact .inl rfl
          · exact .inr (.inr ⟨x, y, rfl, rfl, hnan⟩)
      | _ => cases hkind
  | string s =>
      cases q with
      | string t => exact .inl (congrArg string (Text.quote_inj h))
      | _ => cases hkind
  | classRef s =>
      cases q with
      | classRef t => exact .inl (congrArg classRef ((String.append_right_inj "class ").mp h))
      | _ => cases hkind

/-- Where constants are alike, a reader cannot tell them apart. -/
lemma text_of_alike {p q : Constant} (h : p.Alike q) : p.text = q.text := by
  rcases h with rfl | ⟨x, y, rfl, rfl, hnan⟩ | ⟨x, y, rfl, rfl, hnan⟩
  · rfl
  · exact congrArg (· ++ "F") ((x.text_eq_iff decimalStyle (by decide) y).mpr (.inr hnan))
  · exact congrArg (· ++ "D") ((x.text_eq_iff decimalStyle (by decide) y).mpr (.inr hnan))

/-- **The texts of constants tell them apart.**  The texts of two constants are equal exactly if the
constants are the same, bit for bit, or if both are data of single precision, or both of double
precision, that are not numbers.  So no constant can be taken for one of another kind or of another
value, whatever strings and names of classes there are, and this is so in the list of the
constants as well as behind the instruction that loads them. -/
theorem text_eq_text_iff (p q : Constant) :
    (p.text = q.text ↔ p.Alike q) ∧
      ((Instruction.ldc p).text = (Instruction.ldc q).text ↔ p.Alike q) := by
  have htext : p.text = q.text ↔ p.Alike q := ⟨alike_of_text, text_of_alike⟩
  refine ⟨htext, Iff.trans ?_ htext⟩
  rw [Instruction.text, Instruction.text, Instruction.withOperand, Instruction.withOperand]
  exact String.append_right_inj _

end Constant

end StackLowering
