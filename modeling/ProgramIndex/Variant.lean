import ProgramIndex.Table.Record

/-!
The variants of the tagged families: what the tags and arguments of a record
mean. A variant is told by a record's first tag, through a registry. Besides the
variants that have a meaning here, a family has custom ones, told apart by their
names; a record read as one of them has no meaning beyond its family's.
-/

namespace ProgramIndex

/-- Parameters of attributes, such as the `4` in `aligned(4)`. -/
inductive AttrParamShape where
  | int
  | str
  | cons
  | typeOp
  | unary
  | star
  | nary
  | custom (name : String)
  deriving DecidableEq, Repr

/-- Constants. -/
inductive ConstantShape where
  | int
  | str
  | chr
  | real
  | enum
  | custom (name : String)
  deriving DecidableEq, Repr

/-- Expressions. -/
inductive ExpShape where
  | const
  | typeOp
  | expOp
  | sizeofStr
  | unop
  | binop
  | question
  | cast
  | custom (name : String)
  deriving DecidableEq, Repr

/-- Types. -/
inductive TypShape where
  | basic
  | ptr
  | array
  | func
  | comp
  | custom (name : String)
  deriving DecidableEq, Repr

abbrev Family.Shape : Family → Type
  | .attrParam => AttrParamShape
  | .constant => ConstantShape
  | .exp => ExpShape
  | .typ => TypShape

/-- The custom variant of a family with the given name. -/
def Family.customShape : (family : Family) → String → family.Shape
  | .attrParam, name => AttrParamShape.custom name
  | .constant, name => ConstantShape.custom name
  | .exp, name => ExpShape.custom name
  | .typ, name => TypShape.custom name

def AttrParamShape.tagged : List (String × AttrParamShape) := [
  ("aint", .int), ("astr", .str), ("acons", .cons), ("asizeof", .typeOp),
  ("aalignof", .typeOp), ("asizeofe", .unary), ("aalignofe", .unary), ("aunop", .unary),
  ("adot", .unary), ("aaddrof", .unary), ("astar", .star), ("abinop", .nary),
  ("aindex", .nary), ("aquestion", .nary)]

def ConstantShape.tagged : List (String × ConstantShape) := [
  ("int", .int), ("str", .str), ("chr", .chr), ("real", .real), ("enum", .enum)]

def ExpShape.tagged : List (String × ExpShape) := [
  ("const", .const), ("sizeof", .typeOp), ("alignof", .typeOp), ("sizeofe", .expOp),
  ("alignofe", .expOp), ("sizeofstr", .sizeofStr), ("unop", .unop), ("binop", .binop),
  ("question", .question), ("caste", .cast)]

def TypShape.tagged : List (String × TypShape) := [
  ("tvoid", .basic), ("tint", .basic), ("tfloat", .basic), ("tnamed", .basic),
  ("tenum", .basic), ("tbuiltin-va-list", .basic), ("tptr", .ptr), ("tarray", .array),
  ("tfun", .func), ("tcomp", .comp)]

/-- A record of a family read as one of the family's variants. -/
structure View (family : Family) where
  shape : family.Shape
  record : Record

/-- An attribute: a name and its parameters. -/
structure Attribute where
  record : Record
  deriving DecidableEq, Repr

/-- A list of attributes. -/
structure Attributes where
  record : Record
  deriving DecidableEq, Repr

/-- An argument of a function: a name, a type and a list of attributes. -/
structure FunArg where
  record : Record
  deriving DecidableEq, Repr

/-- A list of function arguments. -/
structure FunArgs where
  record : Record
  deriving DecidableEq, Repr

def AttrParamShape.label : AttrParamShape → String
  | .int => "AttrInt"
  | .str => "AttrStr"
  | .cons => "AttrCons"
  | .typeOp => "AttrTypeOp"
  | .unary => "AttrUnary"
  | .star => "AttrStar"
  | .nary => "AttrNary"
  | .custom name => name

def ConstantShape.label : ConstantShape → String
  | .int => "ConstInt"
  | .str => "ConstStr"
  | .chr => "ConstChr"
  | .real => "ConstReal"
  | .enum => "ConstEnum"
  | .custom name => name

def ExpShape.label : ExpShape → String
  | .const => "ExpConst"
  | .typeOp => "ExpTypeOp"
  | .expOp => "ExpExpOp"
  | .sizeofStr => "ExpSizeOfStr"
  | .unop => "ExpUnOp"
  | .binop => "ExpBinOp"
  | .question => "ExpQuestion"
  | .cast => "ExpCastE"
  | .custom name => name

def TypShape.label : TypShape → String
  | .basic => "TypBasic"
  | .ptr => "TypPtr"
  | .array => "TypArray"
  | .func => "TypFun"
  | .comp => "TypComp"
  | .custom name => name

def Family.label : (family : Family) → family.Shape → String
  | .attrParam, shape => AttrParamShape.label shape
  | .constant, shape => ConstantShape.label shape
  | .exp, shape => ExpShape.label shape
  | .typ, shape => TypShape.label shape

/-- A full description of a view: its variant and its record. -/
def View.describe {family : Family} (view : View family) : String :=
  family.label view.shape ++ "(" ++ view.record.describe ++ ")"

def Attribute.describe (a : Attribute) : String :=
  "Attribute(" ++ a.record.describe ++ ")"

def Attributes.describe (list : Attributes) : String :=
  "Attributes(" ++ list.record.describe ++ ")"

def FunArg.describe (arg : FunArg) : String :=
  "FunArg(" ++ arg.record.describe ++ ")"

end ProgramIndex
