import ProgramIndex.View.AttrParam
import ProgramIndex.View.Exp

/-!
Types, and the arguments of function types.
-/

namespace ProgramIndex

abbrev Typ : Type := View .typ

namespace Typ

/-- Whether the type's tag is the given one. The questions below ask about the
tag, whichever variant the registry binds it to. -/
def hasTag (t : Typ) (tag : String) : Bool := t.record.tag = tag

def isVoid (t : Typ) : Bool := t.hasTag "tvoid"

def isInt (t : Typ) : Bool := t.hasTag "tint"

def isFloat (t : Typ) : Bool := t.hasTag "tfloat"

def isPointer (t : Typ) : Bool := t.hasTag "tptr"

def isArray (t : Typ) : Bool := t.hasTag "tarray"

def isFunction (t : Typ) : Bool := t.hasTag "tfun"

def isNamed (t : Typ) : Bool := t.hasTag "tnamed"

def isComp (t : Typ) : Bool := t.hasTag "tcomp"

def isEnum (t : Typ) : Bool := t.hasTag "tenum"

/-- Whether the type is the built-in list of further arguments. -/
def isBuiltinVaargs (t : Typ) : Bool := t.hasTag "tbuiltin-va-list"

/-- The kind of a number type, the name of a defined type or of an enumeration. -/
def name (t : Typ) : String := t.record.tagAt 1

/-- The position of the list of attributes among a type's arguments. -/
def attributesPosition (t : Typ) : Nat :=
  match t.shape with
  | .ptr => 1
  | .array => 2
  | .func => 3
  | .comp => 1
  | _ => 0

def attributes (d : Dictionary) (t : Typ) : Except Fault Attributes :=
  d.getAttributesAt t.record t.attributesPosition

/-- The type that a type is built on, at its first argument. -/
def inner (d : Dictionary) (t : Typ) : Except Fault (Target .typ) :=
  d.follow t 0

/-- The type pointed to, the type of an array's elements or the type that a
function returns. -/
def target? (d : Dictionary) (t : Typ) : Option (Except Fault (Target .typ)) :=
  match t.shape with
  | .ptr => some (t.inner d)
  | .array => some (t.inner d)
  | .func => some (t.inner d)
  | _ => none

def arraySize (d : Dictionary) (t : Typ) : Except Fault (Option Exp) := do
  d.getExp? (← t.record.optArgIndex 1 Kind.exp.tableName)

/-- Whether an array type is given a size, which may be a faulty reference. -/
def hasArraySize (t : Typ) : Bool :=
  match t.record.key.args[1]? with
  | some arg => 0 ≤ arg.toInt
  | none => false

def funArgs (d : Dictionary) (t : Typ) : Except Fault (Option FunArgs) := do
  d.getFunArgs? (← t.record.optArgIndex 1 Kind.funArgs.tableName)

def isVararg (t : Typ) : Bool :=
  t.record.key.args[2]? = some 1

/-- Whether a function type leaves open which arguments it takes. -/
def isDefaultPrototype (d : Dictionary) (t : Typ) : Bool :=
  match t.funArgs d with
  | .ok none => !t.isVararg
  | _ => false

/-- The number of a struct or a union in its translation unit. -/
def ckey (t : Typ) : Except Fault Int64 := do
  t.record.checkShape 1 2 Kind.typ.tableName
  t.record.arg 0 Kind.typ.tableName

end Typ

namespace FunArg

def name (arg : FunArg) : String := arg.record.tag

def typ (d : Dictionary) (arg : FunArg) : Except Fault Typ :=
  d.getAt .typ arg.record 0

def attributes (d : Dictionary) (arg : FunArg) : Except Fault Attributes :=
  d.getAttributesAt arg.record 1

end FunArg

namespace FunArgs

def length (list : FunArgs) : Nat := list.record.key.args.length

def isEmpty (list : FunArgs) : Bool := list.record.key.args.isEmpty

/-- The arguments in the list. -/
def toList (d : Dictionary) (list : FunArgs) : Except Fault (List FunArg) :=
  (List.range list.length).mapM fun position => do
    d.getFunArg (← list.record.argIndex position Kind.funArg.tableName)

end FunArgs

end ProgramIndex
