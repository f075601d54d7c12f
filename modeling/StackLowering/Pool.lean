import Std.Data.HashMap
import StackLowering.Constant

/-!
The pool of constants: each constant once, in the order of its first use.

A pool holds its constants twice, in order and by an index from constants to
their numbers.  `Pool.get?` reads the one, `Pool.indexOf?` and `Pool.intern` read
the other.
-/

namespace StackLowering

/-- A pool of constants, numbered from zero, with an index that gives the number
of each constant. -/
structure Pool where
  entries : Array Constant := #[]
  index : Std.HashMap Constant Nat := ∅
  deriving Repr

namespace Pool

/-- The pool without constants. -/
def empty : Pool := {}

/-- The number of constants. -/
def size (p : Pool) : Nat :=
  p.entries.size

/-- Whether there are no constants. -/
def isEmpty (p : Pool) : Bool :=
  p.entries.isEmpty

/-- The constants in the order of their numbers. -/
def toList (p : Pool) : List Constant :=
  p.entries.toList

/-- The constant with a number. -/
def get? (p : Pool) (number : Nat) : Option Constant :=
  p.entries[number]?

/-- The number of a constant. -/
def indexOf? (p : Pool) (c : Constant) : Option Nat :=
  p.index[c]?

/-- The number of a constant and the pool that holds it.  A constant that is not
yet there gets the next number. -/
def intern (p : Pool) (c : Constant) : Nat × Pool :=
  match p.index[c]? with
  | some number => (number, p)
  | none => (p.size, { entries := p.entries.push c, index := p.index.insert c p.size })

variable {p : Pool} {c : Constant}

/-- A constant with a number is not added again. -/
theorem intern_of_some {number : Nat} (h : p.indexOf? c = some number) :
    p.intern c = (number, p) := by
  rw [indexOf?] at h
  simp [intern, h]

/-- A constant without a number gets the next one. -/
theorem intern_of_none (h : p.indexOf? c = none) :
    p.intern c = (p.size, ⟨p.entries.push c, p.index.insert c p.size⟩) := by
  rw [indexOf?] at h
  simp [intern, h]

end Pool

end StackLowering
