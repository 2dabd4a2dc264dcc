import ProgramIndex.Registry
import ProgramIndex.Table.Basic

/-!
Dictionaries: one table for each kind of record, and the reading of records
through a registry. References between records are indices; they are followed
only when something is asked about them.
-/

namespace ProgramIndex

/-- The tables that describe the declarations and types of a translation unit. -/
structure Dictionary where
  registry : Registry
  attrParams : Table
  attributes : Table
  attributeLists : Table
  constants : Table
  exps : Table
  funArgs : Table
  funArgLists : Table
  typs : Table

namespace Dictionary

def new (registry : Registry) : Dictionary where
  registry := registry
  attrParams := .new Kind.attrParam.tableName
  attributes := .new Kind.attribute.tableName
  attributeLists := .new Kind.attributes.tableName
  constants := .new Kind.constant.tableName
  exps := .new Kind.exp.tableName
  funArgs := .new Kind.funArg.tableName
  funArgLists := .new Kind.funArgs.tableName
  typs := .new Kind.typ.tableName

def table (d : Dictionary) : Kind → Table
  | .attrParam => d.attrParams
  | .attribute => d.attributes
  | .attributes => d.attributeLists
  | .constant => d.constants
  | .exp => d.exps
  | .funArg => d.funArgs
  | .funArgs => d.funArgLists
  | .typ => d.typs

def withTable (d : Dictionary) (kind : Kind) (table : Table) : Dictionary :=
  match kind with
  | .attrParam => { d with attrParams := table }
  | .attribute => { d with attributes := table }
  | .attributes => { d with attributeLists := table }
  | .constant => { d with constants := table }
  | .exp => { d with exps := table }
  | .funArg => { d with funArgs := table }
  | .funArgs => { d with funArgLists := table }
  | .typ => { d with typs := table }

theorem table_withTable (d : Dictionary) (kind other : Kind) (t : Table) :
    (d.withTable kind t).table other = if other = kind then t else d.table other := by
  cases kind <;> cases other <;> rfl

/-- All tables in their fixed order. -/
def tables (d : Dictionary) : List Table :=
  Kind.all.map d.table

def tableNamed? (d : Dictionary) (name : String) : Option Table :=
  d.tables.find? fun table => table.name = name

def size (d : Dictionary) : Nat :=
  d.tables.foldr (fun table size => table.size + size) 0

/-- Read the record at an index of a family's table. -/
def get (d : Dictionary) (family : Family) (index : Nat) : Except Fault (View family) := do
  d.registry.construct family (← (d.table family.kind).retrieve index)

/-- Read all records of a family, in the order of their indices. -/
def getAll (d : Dictionary) (family : Family) : Except Fault (List (Nat × View family)) :=
  (d.table family.kind).occupied.mapM fun index => (d.get family index).map fun view => (index, view)

/-- Retrieve a record of a kind with a fixed shape and check its numbers of
tags and arguments; `args?` is none where any number of arguments will do. -/
def getFixed (d : Dictionary) (kind : Kind) (tags : Nat) (args? : Option Nat) (index : Nat) :
    Except Fault Record := do
  let record ← (d.table kind).retrieve index
  record.checkShape tags (args?.getD record.key.args.length) kind.tableName
  return record

/-- Read an attribute: a name with any number of parameters. -/
def getAttribute (d : Dictionary) (index : Nat) : Except Fault Attribute :=
  (d.getFixed .attribute 1 none index).map Attribute.mk

def getAttributes (d : Dictionary) (index : Nat) : Except Fault Attributes :=
  (d.getFixed .attributes 0 none index).map Attributes.mk

/-- Read a function argument: a name with a type and a list of attributes. -/
def getFunArg (d : Dictionary) (index : Nat) : Except Fault FunArg :=
  (d.getFixed .funArg 1 (some 2) index).map FunArg.mk

def getFunArgs (d : Dictionary) (index : Nat) : Except Fault FunArgs :=
  (d.getFixed .funArgs 0 none index).map FunArgs.mk

def getExp? (d : Dictionary) : Option Nat → Except Fault (Option (View .exp))
  | none => .ok none
  | some index => (d.get .exp index).map some

/-- Read a list of function arguments that may be absent. -/
def getFunArgs? (d : Dictionary) : Option Nat → Except Fault (Option FunArgs)
  | none => .ok none
  | some index => (d.getFunArgs index).map some

def listing (d : Dictionary) : String :=
  String.join (d.tables.map Table.listing)

/-- A description of the dictionary: the sizes of its tables. -/
def describe (d : Dictionary) : String :=
  let sizes := d.tables.map fun table =>
    "(" ++ Text.quote table.name ++ ", " ++ Numeral.ofNat table.size ++ ")"
  "Dictionary \x7b tables: " ++ Text.bracket sizes ++ " \x7d"

end Dictionary

end ProgramIndex
