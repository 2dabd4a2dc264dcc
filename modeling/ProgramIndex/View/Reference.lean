import ProgramIndex.Dictionary.Basic

/-!
References between records: an argument of a record is an index, into the
record's own table or into another one. A record may refer to itself.
-/

namespace ProgramIndex

/-- The view that a reference leads to, told apart by whether it is the
referring view itself. -/
inductive Target (family : Family) where
  | itself (view : View family)
  | other (view : View family)

def Target.view {family : Family} : Target family → View family
  | .itself view => view
  | .other view => view

def Target.isItself {family : Family} : Target family → Bool
  | .itself _ => true
  | .other _ => false

def Target.describe {family : Family} : Target family → String
  | .itself _ => "Itself"
  | .other view => "Other(" ++ view.describe ++ ")"

namespace Dictionary

/-- The view that an argument of a record refers to in a family's table. -/
def getAt (d : Dictionary) (family : Family) (record : Record) (position : Nat) :
    Except Fault (View family) := do
  d.get family (← record.argIndex position family.tableName)

/-- The list of attributes that an argument of a record refers to. -/
def getAttributesAt (d : Dictionary) (record : Record) (position : Nat) :
    Except Fault Attributes := do
  d.getAttributes (← record.argIndex position Kind.attributes.tableName)

/-- Follow an argument of a view into the view's own table. The view's own
index leads to the view itself, without a look into the table. -/
def follow {family : Family} (d : Dictionary) (view : View family) (position : Nat) :
    Except Fault (Target family) :=
  if view.record.isSelfReference position then .ok (.itself view)
  else (d.getAt family view.record position).map .other

/-- Follow arguments of a view into its own table, up to the first fault. -/
def followAll {family : Family} (d : Dictionary) (view : View family) (positions : List Nat) :
    Except Fault (List (Target family)) :=
  positions.mapM (d.follow view)

/-- Follow all arguments of a view into its own table. -/
def followEach {family : Family} (d : Dictionary) (view : View family) :
    Except Fault (List (Target family)) :=
  d.followAll view (List.range view.record.key.args.length)

end Dictionary

end ProgramIndex
