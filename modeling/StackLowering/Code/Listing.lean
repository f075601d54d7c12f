import StackLowering.Code.Basic
import StackLowering.Instruction.Text

/-!
The listing of a piece of code: its constants, and then a line for each
instruction with the labels before it.  Labels at the end of the code have a
line of their own.

* `Code.heading`: how the labels of a line are shown.
* `Code.line`: what is shown at an address.
* `Code.listing`: the whole text.
-/

namespace StackLowering.Code

/-- The labels of a line, with a colon after them. -/
def heading (labels : List Label) : String :=
  if labels.isEmpty then "" else ",".intercalate (labels.map Label.name) ++ ":"

/-- What is shown at an address: the instruction with the labels before it, or
only labels, if there are any behind the last instruction. -/
def line (c : Code) (address : Nat) : String :=
  let labels := heading (c.labelsAt address)
  let place := "    " ++ Text.alignRight 4 address.repr ++ " " ++ Text.alignRight 6 labels
  match c.instructions[address]? with
  | some i => place ++ "  " ++ i.text ++ "\n"
  | none => if labels.isEmpty then "" else place ++ "\n"

/-- The lines that show the constants. -/
def constantLines (p : Pool) : String :=
  if p.isEmpty then "  constants: []\n"
  else
    "  constants: [\n"
      ++ String.join (p.toList.mapIdx fun i c =>
          "    [" ++ i.repr ++ "] = " ++ c.text ++ "\n")
      ++ "  ]\n"

/-- The listing of a piece of code.  The addresses run to the one behind the last
instruction. -/
def listing (c : Code) : String :=
  "Code \x7b\n" ++ constantLines c.pool ++ "  instructions:\n"
    ++ String.join ((List.range (c.size + 1)).map c.line) ++ "\x7d"

end StackLowering.Code
