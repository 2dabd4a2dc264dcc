import ProgramIndex.View.Reference

/-!
Attributes and their parameters.
-/

namespace ProgramIndex

abbrev AttrParam : Type := View .attrParam

namespace AttrParam

def isInt (param : AttrParam) : Bool := param.shape = AttrParamShape.int

def isStr (param : AttrParam) : Bool := param.shape = AttrParamShape.str

/-- Whether the parameter is built from a name and parameters. -/
def isCons (param : AttrParam) : Bool := param.shape = AttrParamShape.cons

def isStar (param : AttrParam) : Bool := param.shape = AttrParamShape.star

def intValue (param : AttrParam) : Except Fault Int64 :=
  param.record.arg 0 Kind.attrParam.tableName

/-- The text, the name or the operator of a parameter, where it has one. -/
def text (param : AttrParam) : String :=
  param.record.tagAt 1

/-- The type that a parameter asks the size or the alignment of. -/
def typ (d : Dictionary) (param : AttrParam) : Except Fault (View .typ) :=
  d.getAt .typ param.record 0

def operand (d : Dictionary) (param : AttrParam) : Except Fault (Target .attrParam) :=
  d.follow param 0

def operands (d : Dictionary) (param : AttrParam) : Except Fault (List (Target .attrParam)) :=
  d.followEach param

/-- The parameter operated on, for the forms with exactly one. -/
def param? (d : Dictionary) (param : AttrParam) :
    Except Fault (Option (Target .attrParam)) :=
  match param.shape with
  | .unary => (operand d param).map some
  | .star => (operand d param).map some
  | _ => .ok none

def isSelfReferential (param : AttrParam) : Bool :=
  param.record.isSelfReference 0

end AttrParam

namespace Attribute

def name (a : Attribute) : String := a.record.tag

def params (d : Dictionary) (a : Attribute) : Except Fault (List AttrParam) :=
  (List.range a.record.key.args.length).mapM (d.getAt .attrParam a.record)

end Attribute

namespace Attributes

def length (list : Attributes) : Nat := list.record.key.args.length

def isEmpty (list : Attributes) : Bool := list.record.key.args.isEmpty

/-- The attributes in the list. -/
def toList (d : Dictionary) (list : Attributes) : Except Fault (List Attribute) :=
  (List.range list.length).mapM fun position => do
    d.getAttribute (← list.record.argIndex position Kind.attribute.tableName)

end Attributes

end ProgramIndex
