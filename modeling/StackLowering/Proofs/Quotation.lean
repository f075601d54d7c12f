import Mathlib.Data.List.TakeWhile
import StackLowering.Text.Quoted

/-!
Quoted text can be read back.

* `Text.cut`: a text up to a character, and what comes behind it.
* `Text.readHex_toDigits`: hexadecimal digits can be read back.
* `Text.unescape?`, `Text.unescape?_escape`: the first character that quoted text stands for, and
  what comes behind it, whichever way the character is escaped.
* `Text.quote_inj`: no two strings have the same quotation.
-/

namespace StackLowering.Text

/-- A text up to the first occurrence of a character, and what comes behind it. -/
def cut (c : Char) (text : List Char) : List Char × List Char :=
  (text.takeWhile (· != c), (text.dropWhile (· != c)).drop 1)

lemma cut_append {c : Char} {before after : List Char} (h : c ∉ before) :
    cut c (before ++ c :: after) = (before, after) := by
  have hpass : ∀ a ∈ before, (a != c) = true :=
    fun a ha => bne_iff_ne.mpr fun heq => h (heq ▸ ha)
  rw [cut, List.takeWhile_append_of_pos hpass, List.dropWhile_append_of_pos hpass]
  simp

lemma cut_of_notMem {c : Char} {text : List Char} (h : c ∉ text) : cut c text = (text, []) := by
  have hpass : ∀ a ∈ text, (a != c) = true :=
    fun a ha => bne_iff_ne.mpr fun heq => h (heq ▸ ha)
  rw [cut, List.takeWhile_eq_self_iff.mpr hpass, List.dropWhile_eq_nil_iff.mpr hpass]
  rfl

/-! ### Hexadecimal digits -/

/-- The value of a hexadecimal digit. -/
def hexDigit (c : Char) : Nat :=
  if c.isDigit then c.toNat - '0'.toNat else c.toNat - 'a'.toNat + 10

/-- The number that hexadecimal digits stand for. -/
def readHex (digits : List Char) : Nat :=
  digits.foldl (fun n c => 16 * n + hexDigit c) 0

lemma hexDigit_digitChar {n : Nat} (h : n < 16) : hexDigit n.digitChar = n := by
  have hall : ∀ k : Fin 16, hexDigit (Nat.digitChar k) = k := by decide
  exact hall ⟨n, h⟩

/-- **Hexadecimal digits can be read back.** -/
lemma readHex_toDigits (n : Nat) : readHex (Nat.toDigits 16 n) = n := by
  induction n using Nat.strongRecOn with
  | ind n ih =>
      rw [Nat.toDigits_eq_if (by decide)]
      split_ifs with hlt
      · rw [readHex, List.foldl_cons, List.foldl_nil, hexDigit_digitChar hlt, Nat.mul_zero,
          Nat.zero_add]
      · have hleading : (Nat.toDigits 16 (n / 16)).foldl (fun n c => 16 * n + hexDigit c) 0
            = n / 16 := ih (n / 16) (by omega)
        rw [readHex, List.foldl_append, hleading, List.foldl_cons, List.foldl_nil,
          hexDigit_digitChar (Nat.mod_lt n (by decide)), Nat.div_add_mod]

/-- No digit is a brace. -/
lemma brace_notMem_toDigits (n : Nat) : '\x7d' ∉ Nat.toDigits 16 n := by
  have hdigit (k : Nat) : '\x7d' ∉ [k.digitChar] := by
    rw [List.mem_singleton]
    exact (Nat.digitChar_ne '\x7d' (by decide)).symm
  induction n using Nat.strongRecOn with
  | ind n ih =>
      rw [Nat.toDigits_eq_if (by decide)]
      split_ifs with hlt
      · exact hdigit n
      · rw [List.mem_append, not_or]
        exact ⟨ih (n / 16) (by omega), hdigit _⟩

/-! ### Escapes -/

/-- The character that a letter behind a backslash stands for. -/
def named : Char → Char
  | '0' => '\x00'
  | 't' => '\t'
  | 'n' => '\n'
  | 'r' => '\r'
  | c => c

/-- The first character that quoted text stands for, and the text behind it.  A quote ends the
text. -/
def unescape? : List Char → Option (Char × List Char)
  | [] => none
  | c :: rest =>
      if c = '"' then none
      else if c ≠ '\\' then some (c, rest)
      else if rest.head? = some 'u' then
        -- a brace follows
        let parts := cut '\x7d' (rest.drop 2)
        some (Char.ofNat (readHex parts.1), parts.2)
      else rest.head?.map fun letter => (named letter, rest.tail)

/-- **Escaped characters can be read back**, whatever comes behind them. -/
lemma unescape?_escape (c : Char) (rest : List Char) :
    unescape? (escape c ++ rest) = some (c, rest) := by
  unfold escape
  split
  · rfl
  · rfl
  · rfl
  · rfl
  · rfl
  · rfl
  · rename_i hquote hbackslash
    split_ifs
    · have htext : codePointEscape c ++ rest
          = '\\' :: 'u' :: '\x7b' :: (Nat.toDigits 16 c.toNat ++ '\x7d' :: rest) := by
        rw [codePointEscape, List.append_assoc, List.append_assoc]
        rfl
      have hcut : cut '\x7d' (Nat.toDigits 16 c.toNat ++ '\x7d' :: rest)
          = (Nat.toDigits 16 c.toNat, rest) := cut_append (brace_notMem_toDigits c.toNat)
      rw [htext, unescape?]
      simp [hcut, readHex_toDigits, Char.ofNat_toNat]
    · rw [List.singleton_append, unescape?, if_neg hquote, if_pos hbackslash]

/-- The first character of escaped text. -/
lemma unescape?_flatMap (c : Char) (s rest : List Char) :
    unescape? ((c :: s).flatMap escape ++ rest) = some (c, s.flatMap escape ++ rest) := by
  rw [List.flatMap_cons, List.append_assoc, unescape?_escape]

/-- Escaped texts that are equal up to the quote at their end are texts of the same characters. -/
lemma escaped_inj {s t : List Char}
    (h : s.flatMap escape ++ ['"'] = t.flatMap escape ++ ['"']) : s = t := by
  have hquote : unescape? ([].flatMap escape ++ ['"']) = none := rfl
  induction s generalizing t with
  | nil =>
      cases t with
      | nil => rfl
      | cons c t =>
          rw [h, unescape?_flatMap] at hquote
          cases hquote
  | cons c s ih =>
      cases t with
      | nil =>
          rw [← h, unescape?_flatMap] at hquote
          cases hquote
      | cons d t =>
          have hread := congrArg unescape? h
          rw [unescape?_flatMap, unescape?_flatMap] at hread
          obtain ⟨rfl, hrest⟩ := Prod.mk.inj (Option.some.inj hread)
          rw [ih hrest]

/-- **No two strings have the same quotation.** -/
lemma quote_inj {s t : String} (h : quote s = quote t) : s = t := by
  rw [quote, quote, String.ofList_inj] at h
  exact String.toList_inj.mp (escaped_inj (List.cons.inj h).2)

end StackLowering.Text
