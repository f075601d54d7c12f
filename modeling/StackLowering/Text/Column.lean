/-!
Text set in columns.  A column has a least width; longer text is not cut.
-/

namespace StackLowering.Text

/-- Text at the left of a column. -/
def alignLeft (width : Nat) (s : String) : String :=
  String.ofList (s.toList.rightpad width ' ')

/-- Text at the right of a column. -/
def alignRight (width : Nat) (s : String) : String :=
  String.ofList (s.toList.leftpad width ' ')

end StackLowering.Text
