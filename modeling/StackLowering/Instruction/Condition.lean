/-!
Conditions of branches: what a branch compares and when it is taken.
-/

namespace StackLowering

/-- How two integers may stand to each other. -/
inductive Relation where
  | eq
  | ne
  | lt
  | ge
  | gt
  | le
  deriving DecidableEq, Repr

/-- The two letters of a relation in mnemonics. -/
def Relation.mnemonic : Relation → String
  | eq => "eq"
  | ne => "ne"
  | lt => "lt"
  | ge => "ge"
  | gt => "gt"
  | le => "le"

/-- The condition under which a branch is taken. -/
inductive Condition where
  /-- An integer stands in a relation to zero. -/
  | zero (relation : Relation)
  /-- Two integers stand in a relation. -/
  | ints (relation : Relation)
  /-- Two references are the same. -/
  | same
  /-- Two references differ. -/
  | distinct
  /-- A reference is null. -/
  | null
  /-- A reference is not null. -/
  | nonNull
  deriving DecidableEq, Repr

namespace Condition

/-- The number of values a branch takes from the stack. -/
def operands : Condition → Nat
  | zero _ | null | nonNull => 1
  | ints _ | same | distinct => 2

/-- The mnemonic of the branch. -/
def mnemonic : Condition → String
  | zero relation => "if" ++ relation.mnemonic
  | ints relation => "if_icmp" ++ relation.mnemonic
  | same => "if_acmpeq"
  | distinct => "if_acmpne"
  | null => "ifnull"
  | nonNull => "ifnonnull"

end Condition

end StackLowering
