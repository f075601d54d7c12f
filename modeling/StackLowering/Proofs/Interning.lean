import Mathlib.Data.List.Induction
import Mathlib.Data.List.Nodup
import StackLowering.Proofs.Telling

/-!
The pool as an ordered set of constants.

* `Pool.Coherent`: the constants in order and the index of a pool are inverse to each other.
* `Pool.Coherent.intern`, `Pool.Coherent.internAll`: interning keeps them so.
* `Pool.internAll`: the pool after any constants have been interned.
* `Pool.toList_internAll`: it holds each of them once, in the order of their first uses.
* `Pool.ordered_set`: what the pool of any history answers, and what the pool of any code is.
-/

namespace StackLowering

namespace Pool

/-- The pool after constants have been interned in order. -/
def internAll (p : Pool) (cs : List Constant) : Pool :=
  cs.foldl (fun pool c => (pool.intern c).2) p

lemma internAll_append (p : Pool) (cs ds : List Constant) :
    p.internAll (cs ++ ds) = (p.internAll cs).internAll ds :=
  List.foldl_append

/-- Interning leaves the constants of a pool where they are. -/
lemma prefix_foldl_intern (pool : Pool) (constants : List Constant) :
    pool.toList <+: (constants.foldl (fun pool c => (pool.intern c).2) pool).toList := by
  induction constants generalizing pool with
  | nil => exact List.prefix_rfl
  | cons c constants ih =>
      refine List.IsPrefix.trans ?_ (ih (pool.intern c).2)
      cases h : pool.indexOf? c with
      | some number =>
          have hsame : (pool.intern c).2 = pool := congrArg Prod.snd (intern_of_some h)
          exact ⟨[], by rw [hsame, List.append_nil]⟩
      | none =>
          have hpush : (pool.intern c).2.toList = pool.toList ++ [c] := by
            rw [intern_of_none h, toList, toList, Array.toList_push]
          exact ⟨[c], hpush.symm⟩

variable {p q : Pool} {c : Constant} {i : Nat}

lemma get?_eq (p : Pool) (i : Nat) : p.get? i = p.toList[i]? :=
  Array.getElem?_toList.symm

/-- A constant stays where it is as long as no constant before it goes away. -/
lemma get?_of_prefix (h : p.toList <+: q.toList) (hget : p.get? i = some c) :
    q.get? i = some c := by
  obtain ⟨rest, hrest⟩ := h
  rw [get?_eq] at hget ⊢
  rw [← hrest, List.getElem?_append_left (List.getElem?_eq_some_iff.mp hget).1, hget]

/-! ### Order and index -/

/-- The two parts of a pool agree: the index gives for a constant the number under which it stands
in order, and it has no other constants. -/
def Coherent (p : Pool) : Prop :=
  ∀ c i, p.indexOf? c = some i ↔ p.get? i = some c

namespace Coherent

lemma empty : Coherent Pool.empty := by
  intro c i
  simp [indexOf?, get?, Pool.empty]

/-- **One interning.**  A constant that is not in the index does not stand in order either, so that
the number that both parts give to it is new. -/
lemma intern (h : p.Coherent) (c : Constant) : (p.intern c).2.Coherent := by
  cases hc : p.indexOf? c with
  | some number =>
      rw [intern_of_some hc]
      exact h
  | none =>
      rw [intern_of_none hc]
      intro d i
      have hindex : (⟨p.entries.push c, p.index.insert c p.size⟩ : Pool).indexOf? d
          = if c = d then some p.size else p.indexOf? d := by
        simp [indexOf?, Std.HashMap.getElem?_insert]
      have hget : (⟨p.entries.push c, p.index.insert c p.size⟩ : Pool).get? i
          = if i = p.size then some c else p.get? i := Array.getElem?_push
      rw [hindex, hget]
      by_cases hd : c = d
      · subst hd
        rw [if_pos rfl]
        by_cases hi : i = p.size
        · simp [hi]
        · -- elsewhere the constant stood before, and the index would have it
          rw [if_neg hi, ← h, hc, Option.some.injEq]
          exact iff_of_false (Ne.symm hi) (by simp)
      · rw [if_neg hd, h]
        by_cases hi : i = p.size
        · -- the new number is that of the new constant only
          have hnone : p.get? i = none := Array.getElem?_eq_none (Nat.le_of_eq hi.symm)
          rw [if_pos hi, hnone, Option.some.injEq]
          exact iff_of_false (by simp) hd
        · rw [if_neg hi]

/-- **All internings.** -/
lemma internAll (h : p.Coherent) (cs : List Constant) : (p.internAll cs).Coherent := by
  induction cs generalizing p with
  | nil => exact h
  | cons c cs ih => exact ih (h.intern c)

/-- No constant stands twice: the index has one number for it. -/
lemma nodup (h : p.Coherent) : p.toList.Nodup := by
  refine List.nodup_iff_getElem?_ne_getElem?.mpr fun i j hij hj heq => ?_
  obtain ⟨c, hc⟩ : ∃ c, p.toList[j]? = some c := ⟨_, List.getElem?_eq_getElem hj⟩
  rw [hc] at heq
  rw [← get?_eq, ← h] at hc heq
  rw [hc, Option.some.injEq] at heq
  omega

/-- The constants of a pool are those with a number. -/
lemma mem_toList_iff (h : p.Coherent) : c ∈ p.toList ↔ ∃ i, p.indexOf? c = some i := by
  rw [List.mem_iff_getElem?]
  exact exists_congr fun i => by rw [h, get?_eq]

/-- Interning appends a new constant. -/
lemma toList_intern (h : p.Coherent) (c : Constant) :
    (p.intern c).2.toList = if c ∈ p.toList then p.toList else p.toList ++ [c] := by
  cases hc : p.indexOf? c with
  | some number => rw [intern_of_some hc, if_pos (h.mem_toList_iff.mpr ⟨number, hc⟩)]
  | none =>
      have hnot : c ∉ p.toList := fun hmem => by
        obtain ⟨i, hi⟩ := h.mem_toList_iff.mp hmem
        cases hc.symm.trans hi
      rw [intern_of_none hc, if_neg hnot, toList, toList, Array.toList_push]

/-- A constant that is there is not added again. -/
lemma intern_of_mem (h : p.Coherent) (hc : c ∈ p.toList) : (p.intern c).2 = p := by
  obtain ⟨i, hi⟩ := h.mem_toList_iff.mp hc
  rw [intern_of_some hi]

/-- A constant stands under its number once it has been interned. -/
lemma get?_intern (h : p.Coherent) (c : Constant) :
    (p.intern c).2.get? (p.intern c).1 = some c := by
  cases hc : p.indexOf? c with
  | some number =>
      rw [intern_of_some hc]
      exact (h c number).mp hc
  | none =>
      rw [intern_of_none hc]
      exact Array.getElem?_push_size

end Coherent

/-- A new pool into which constants have been interned holds them in the order of their first
uses. -/
lemma toList_internAll (cs : List Constant) :
    (empty.internAll cs).toList = cs.eraseDups := by
  induction cs using List.reverseRecOn with
  | nil => rfl
  | append_singleton cs c ih =>
      have hmem : c ∈ (empty.internAll cs).toList ↔ c ∈ cs := by rw [ih, List.mem_eraseDups]
      rw [internAll_append, List.eraseDups_append, ← ih]
      show ((empty.internAll cs).intern c).2.toList = _
      rw [(Coherent.empty.internAll cs).toList_intern]
      by_cases hc : c ∈ cs
      · rw [if_pos (hmem.mpr hc)]
        simp [List.removeAll, hc]
      · rw [if_neg (mt hmem.mp hc)]
        simp [List.removeAll, hc, List.eraseDups_cons]

end Pool

/-! ### The pool of code -/

namespace Code

variable (items : List Event)

/-- The constants that the instructions of code load, in order. -/
def loaded (c : Code) : List Constant :=
  c.instructions.toList.filterMap Instruction.constant?

/-- The pool of code is the one in which the constants that it loads have been interned. -/
lemma pool_eq_internAll :
    (Sink.tell empty items).pool = Pool.empty.internAll (Sink.tell empty items).loaded := by
  rw [pool_tell, loaded, instructions_tell]
  rfl

end Code

/-- **The pool is an ordered set.**  Take the pool after any constants have been interned.  It holds
each of them once, in the order of their first uses, where constants are told apart by kind and by
bits.  To intern a constant gives its number, and under this number the pool has the constant, then
and after any further constants.  The number of a constant is the one under which the pool has it,
and no other.  To intern a constant that is there changes nothing.  In code that has been told any
instructions and labels, the pool is this set for the constants that the instructions load. -/
theorem Pool.ordered_set (cs : List Constant) (items : List Event) :
    let p := empty.internAll cs
    let code := Sink.tell Code.empty items
    (p.toList = cs.eraseDups ∧ p.toList.Nodup) ∧
      (∀ c later, (p.intern c).2.indexOf? c = some (p.intern c).1 ∧
        ((p.intern c).2.internAll later).indexOf? c = some (p.intern c).1 ∧
        ((p.intern c).2.internAll later).get? (p.intern c).1 = some c) ∧
      (∀ c i, p.indexOf? c = some i ↔ p.get? i = some c) ∧
      (∀ c ∈ cs, (p.intern c).2 = p) ∧
      code.pool = empty.internAll code.loaded ∧ code.pool.toList = code.loaded.eraseDups := by
  intro p code
  have hp : p.Coherent := Coherent.empty.internAll cs
  have hpool : code.pool = empty.internAll code.loaded := Code.pool_eq_internAll items
  refine ⟨⟨toList_internAll cs, hp.nodup⟩, fun c later => ?_, hp, fun c hc => hp.intern_of_mem ?_,
    hpool, ?_⟩
  · have hnext := hp.intern c
    have hget := get?_of_prefix ((p.intern c).2.prefix_foldl_intern later) (hp.get?_intern c)
    exact ⟨(hnext c _).mpr (hp.get?_intern c), (hnext.internAll later c _).mpr hget, hget⟩
  · rw [toList_internAll, List.mem_eraseDups]
    exact hc
  · rw [hpool, toList_internAll]

/-- Constants that agree in some respect and still are kept apart: an integer of two kinds, the two
zeros, two NaNs, and a text that is a string and the name of a class. -/
theorem Pool.ordered_set_of_lookalikes :
    let cs : List Constant := [.int 1, .long 1, .float ⟨0#32⟩, .float ⟨0x80000000#32⟩,
      .double ⟨0x7FF8000000000000#64⟩, .double ⟨0x7FF8000000000001#64⟩, .string "a",
      .classRef "a"]
    let p := empty.internAll (cs ++ cs.reverse)
    p.toList = cs ∧ (p.intern (.float ⟨0x80000000#32⟩)).2 = p ∧
      p.indexOf? (.double ⟨0x7FF8000000000001#64⟩) = some 5 ∧ p.get? 7 = some (.classRef "a") ∧
      (Sink.tell Code.empty ((cs ++ cs.reverse).map fun c => .emitted (.ldc c))).pool.toList
        = cs := by
  intro cs p
  have hdups : (cs ++ cs.reverse).eraseDups = cs := by
    simp only [cs]
    decide +kernel
  have hloaded : (Sink.tell Code.empty
      ((cs ++ cs.reverse).map fun c => .emitted (.ldc c))).loaded = cs ++ cs.reverse := by
    simp only [cs]
    decide +kernel
  obtain ⟨⟨hlist, -⟩, -, hiff, hpresent, -, hcode⟩ := ordered_set (cs ++ cs.reverse)
    ((cs ++ cs.reverse).map fun c => .emitted (.ldc c))
  rw [hdups] at hlist
  rw [hloaded, hdups] at hcode
  have hget (i : Nat) : p.get? i = cs[i]? := by rw [get?_eq, hlist]
  exact ⟨hlist, hpresent _ (by simp [cs]), (hiff _ 5).mpr (hget 5), hget 7, hcode⟩

end StackLowering
