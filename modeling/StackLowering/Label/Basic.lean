/-!
Labels: names for positions in code, told apart by number.
-/

namespace StackLowering

/-- A position in code that jumps may target, before it is known where it
lies. -/
structure Label where
  id : Nat
  deriving DecidableEq, Hashable, Ord, Repr

/-- The printed name of a label. -/
def Label.name (l : Label) : String :=
  "L" ++ l.id.repr

end StackLowering
