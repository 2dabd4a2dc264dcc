import ProgramIndex.Dictionary.Basic

/-!
Adding records to a dictionary. Records of the fixed kinds may only refer to
records that are there; records of the tagged families are not looked into
beyond their first tag.
-/

namespace ProgramIndex.Dictionary

def internIn (d : Dictionary) (kind : Kind) (key : Key) : Nat × Dictionary :=
  let (index, grown) := (d.table kind).intern key
  (index, d.withTable kind grown)

/-- Intern the key that all checks lead to. A check that fails comes before
anything is changed. -/
def internChecked (d : Dictionary) (kind : Kind) :
    Except Fault Key → Dictionary × Except Fault Nat
  | .ok key =>
      let (index, grown) := d.internIn kind key
      (grown, .ok index)
  | .error fault => (d, .error fault)

/-- Intern a record of a family. Its first tag must be registered. -/
def index (d : Dictionary) (family : Family) (key : Key) : Dictionary × Except Fault Nat :=
  d.internChecked family.kind <|
    if d.registry.isRegistered family key.tag then .ok key
    else .error (.unknownVariant family key.tag)

/-- References to the records at the given indices of the table with the given
name. The first index without a record is the fault. -/
def references (d : Dictionary) (name : String) (indices : List Nat) :
    Except Fault (List Int64) :=
  match d.tableNamed? name with
  | none => .error (.missingTable name)
  | some table =>
      indices.mapM fun index => (table.retrieve index).map fun _ => Numeral.ofIndex index

def indexAttribute (d : Dictionary) (name : String) (params : List Nat) :
    Dictionary × Except Fault Nat :=
  d.internChecked .attribute <|
    (d.references Kind.attrParam.tableName params).map fun args => ⟨[name], args⟩

/-- Intern a list of attributes; it may be empty. -/
def indexAttributes (d : Dictionary) (attributes : List Nat) : Dictionary × Except Fault Nat :=
  d.internChecked .attributes <|
    (d.references Kind.attribute.tableName attributes).map fun args => ⟨[], args⟩

/-- Intern a function argument. Its type is looked up before its attributes. -/
def indexFunArg (d : Dictionary) (name : String) (typ attributes : Nat) :
    Dictionary × Except Fault Nat :=
  d.internChecked .funArg do
    let _ ← d.typs.retrieve typ
    let _ ← d.attributeLists.retrieve attributes
    return ⟨[name], [Numeral.ofIndex typ, Numeral.ofIndex attributes]⟩

/-- Intern a list of function arguments; it may be empty. -/
def indexFunArgs (d : Dictionary) (args : List Nat) : Dictionary × Except Fault Nat :=
  d.internChecked .funArgs <|
    (d.references Kind.funArg.tableName args).map fun args => ⟨[], args⟩

/-- One checkpoint in each table. -/
structure Checkpoints where
  token : Kind → Checkpoint

def checkpointAll (d : Dictionary) : Checkpoints × Dictionary :=
  (⟨fun kind => (d.table kind).here⟩,
    Kind.all.foldl (fun d kind => d.withTable kind (d.table kind).checkpoint.2) d)

/-- Change the tables of the given kinds one after the other, up to the first
fault. The tables before it stay changed, and its own table is left as the
change that failed has left it. -/
def changeEach (change : Kind → Table → Table × Except Fault Unit) (d : Dictionary) :
    List Kind → Dictionary × Except Fault Unit
  | [] => (d, .ok ())
  | kind :: rest =>
      match change kind (d.table kind) with
      | (changed, .error fault) => (d.withTable kind changed, .error fault)
      | (changed, .ok ()) => changeEach change (d.withTable kind changed) rest

/-- Take every table back to its checkpoint. -/
def rollbackAll (d : Dictionary) (checkpoints : Checkpoints) : Dictionary × Except Fault Unit :=
  changeEach (fun kind table => table.rollback (checkpoints.token kind)) d Kind.all

/-- Drop the checkpoint of every table and keep the records. -/
def releaseAll (d : Dictionary) (checkpoints : Checkpoints) : Dictionary × Except Fault Unit :=
  changeEach (fun kind table => table.release (checkpoints.token kind)) d Kind.all

end ProgramIndex.Dictionary
