import ProgramIndex.View.Constant

/-!
Expressions.
-/

namespace ProgramIndex

abbrev Exp : Type := View .exp

namespace Exp

def isConstant (e : Exp) : Bool := e.record.tag = "const"

def isSizeof (e : Exp) : Bool := e.record.tag ∈ ["sizeof", "sizeofe", "sizeofstr"]

def isCast (e : Exp) : Bool := e.record.tag = "caste"

/-- The operator or the text of an expression, where it has one. -/
def text (e : Exp) : String := e.record.tagAt 1

def constant (d : Dictionary) (e : Exp) : Except Fault Constant :=
  d.getAt .constant e.record 0

def typAt (d : Dictionary) (e : Exp) (position : Nat) : Except Fault (View .typ) :=
  d.getAt .typ e.record position

def typPosition (e : Exp) : Nat :=
  match e.shape with
  | .unop => 1
  | .binop => 2
  | .question => 3
  | _ => 0

/-- The type of an expression, or the type that it asks about. -/
def typ (d : Dictionary) (e : Exp) : Except Fault (View .typ) :=
  e.typAt d e.typPosition

def subexpPositions (e : Exp) : List Nat :=
  match e.shape with
  | .expOp => [0]
  | .unop => [0]
  | .binop => [0, 1]
  | .question => [0, 1, 2]
  | .cast => [1]
  | _ => []

/-- The expressions that an expression is made of, in order. -/
def subexps (d : Dictionary) (e : Exp) : Except Fault (List (Target .exp)) :=
  d.followAll e e.subexpPositions

/-- The integer that a constant expression stands for. Characters do not count
here. -/
def intValue? (d : Dictionary) (e : Exp) : Option (Except Fault Int64) :=
  match e.shape with
  | .const =>
      match e.constant d with
      | .ok c => if c.isInt then c.intValue? else none
      | .error fault => some (.error fault)
  | _ => none

end Exp

end ProgramIndex
