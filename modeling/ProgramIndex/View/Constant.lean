import ProgramIndex.View.Reference

/-!
Constants.
-/

namespace ProgramIndex

abbrev Constant : Type := View .constant

namespace Constant

def isInt (c : Constant) : Bool := c.shape = ConstantShape.int

def isStr (c : Constant) : Bool := c.shape = ConstantShape.str

/-- The value of a constant as it is written, its text, or the name of its
enumeration. -/
def text (c : Constant) : String := c.record.tagAt 1

/-- The kind of an integer or a real number, or the name of an enumeration's
item. -/
def kind (c : Constant) : String := c.record.tagAt 2

def charCode (c : Constant) : Except Fault Int64 :=
  c.record.arg 0 Kind.constant.tableName

def readInt (c : Constant) : Except Fault Int64 :=
  match Numeral.readInt64 c.text.toList with
  | .ok value => .ok value
  | .error cause =>
      .error (.malformedEntry Kind.constant.tableName (.badInteger c.record.index c.text cause))

/-- The integer that the constant stands for; none for the shapes that stand
for no integer. -/
def intValue? (c : Constant) : Option (Except Fault Int64) :=
  match c.shape with
  | .int => some c.readInt
  | .chr => some c.charCode
  | _ => none

def realValue (c : Constant) : Except Fault Float :=
  match Numeral.readReal c.text.toList with
  | .ok value => .ok value
  | .error cause =>
      .error (.malformedEntry Kind.constant.tableName (.badReal c.record.index c.text cause))

def exp (d : Dictionary) (c : Constant) : Except Fault (View .exp) :=
  d.getAt .exp c.record 0

end Constant

end ProgramIndex
