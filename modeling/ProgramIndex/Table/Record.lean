import ProgramIndex.Fault
import Std.Data.ExtTreeMap

/-!
Records: what a table stores, and the reading of their tags and arguments.
-/

namespace ProgramIndex

/-- What a record says: its tags, the first of which names its variant, and its
integer arguments. Two records with the same key are the same record. -/
structure Key where
  tags : List String
  args : List Int64
  deriving DecidableEq, Repr

/-- Keys are ordered by their tags and then by their arguments. -/
instance : Ord Key :=
  ⟨compareLex (compareOn Key.tags) (compareOn Key.args)⟩

instance : Std.TransOrd Key :=
  inferInstanceAs (Std.TransCmp (compareLex (compareOn Key.tags) (compareOn Key.args)))

instance : Std.LawfulEqOrd Key where
  eq_of_compare {a b} hEqual := by
    obtain ⟨hTags, hArgs⟩ := Ordering.then_eq_eq.mp hEqual
    cases a
    cases b
    simp_all [compareOn]

/-- The first tag, or the empty text for a record without tags. -/
def Key.tag (key : Key) : String :=
  key.tags.headD ""

def Key.joinedTags (key : Key) : String :=
  String.ofList (Text.join ',' (key.tags.map String.toList))

def Key.joinedArgs (key : Key) : String :=
  String.ofList (Numeral.sequenceDigits key.args)

/-- A key at its index in a table. -/
structure Record where
  index : Nat
  key : Key
  deriving DecidableEq, Repr

namespace Record

/-- The first tag, which names the variant. -/
def tag (record : Record) : String :=
  record.key.tag

/-- The tag at a position, or the empty text where there is none. -/
def tagAt (record : Record) (position : Nat) : String :=
  record.key.tags.getD position ""

def checkShape (record : Record) (tags args : Nat) (name : String) : Except Fault Unit :=
  if record.key.tags.length = tags ∧ record.key.args.length = args then .ok ()
  else
    .error (.valueMismatch record.tag name tags args record.key.tags.length
      record.key.args.length)

def arg (record : Record) (position : Nat) (table : String) : Except Fault Int64 :=
  match record.key.args[position]? with
  | some arg => .ok arg
  | none => .error (.malformedEntry table (.noArgument record.index record.tag position))

/-- The argument at a position as an index. A negative argument is none. -/
def argIndex (record : Record) (position : Nat) (table : String) : Except Fault Nat := do
  let arg ← record.arg position table
  if arg.toInt < 0 then .error (.invalidReference table record.index position arg)
  else .ok arg.toInt.toNat

/-- The argument that stands for an absent reference. -/
def noReference : Int64 := -1

/-- The argument at a position as an index that may be absent. -/
def optArgIndex (record : Record) (position : Nat) (table : String) :
    Except Fault (Option Nat) := do
  let arg ← record.arg position table
  if arg = noReference then .ok none
  else (record.argIndex position table).map some

/-- Whether the argument at a position is the record's own index. -/
def isSelfReference (record : Record) (position : Nat) : Bool :=
  match record.key.args[position]? with
  | some arg => 0 ≤ arg.toInt ∧ arg.toInt = record.index
  | none => false

def line (record : Record) : String :=
  Numeral.ofNat record.index ++ ": [" ++ record.key.joinedTags ++ "] ["
    ++ record.key.joinedArgs ++ "]"

def describe (record : Record) : String :=
  "Record \x7b index: " ++ Numeral.ofNat record.index
    ++ ", tags: " ++ Text.bracket (record.key.tags.map Text.quote)
    ++ ", args: " ++ Text.bracket (record.key.args.map Numeral.ofInt64) ++ " \x7d"

end Record

end ProgramIndex
