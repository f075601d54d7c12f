import StackLowering.Naming

/-!
What a session is set up with.
-/

namespace StackLowering

/-- Choices that the result depends on. -/
structure Options where
  /-- Push integers by the shortest instruction that holds them, and not through
  the pool. -/
  compactConstants : Bool := true
  /-- Check at the end of each expression that it left the values it should. -/
  checkBalance : Bool := true
  deriving DecidableEq, Repr

/-- The names and options that code is produced with. -/
structure Config where
  naming : Naming := .jvm
  options : Options := {}

end StackLowering
