import ProgramIndex.Table.Record
import Std.Data.ExtTreeSet

/-!
Tables that give every record a stable index. Equal keys share one index; an
index is given up only when the table goes back to an earlier checkpoint, is
reset or is read anew. What can fail has the table that it leaves behind as a
result, next to its outcome.
-/

namespace ProgramIndex

/-- A table of records. `indices` and `records` hold the same records, found by
key and by index; `next` is the index of the next new record. The `frontiers`
are the values that `next` had when the standing checkpoints were taken, oldest
first. -/
structure Table where
  name : String
  indices : Std.ExtTreeMap Key Nat
  records : Std.ExtTreeMap Nat Record
  next : Nat
  reserved : Std.ExtTreeSet Nat
  frontiers : List Nat
  deriving DecidableEq

/-- What is needed to find a checkpoint again: the number of checkpoints below
it and its frontier. It is a plain value, so it also fits another checkpoint of
the same depth and frontier. -/
structure Checkpoint where
  depth : Nat
  frontier : Nat
  deriving DecidableEq, Repr

namespace Table

def new (name : String) : Table :=
  ⟨name, ∅, ∅, 0, ∅, []⟩

/-- The table without its records, reserved indices and checkpoints. -/
def reset (table : Table) : Table :=
  new table.name

def size (table : Table) : Nat :=
  table.records.size

def isEmpty (table : Table) : Bool :=
  table.records.isEmpty

/-- The occupied indices in ascending order. -/
def occupied (table : Table) : List Nat :=
  table.records.keys

/-- The records in the order of their indices. -/
def toList (table : Table) : List Record :=
  table.records.toList.map Prod.snd

def contains (table : Table) (index : Nat) : Bool :=
  table.records.contains index

/-- Whether an index is reserved for the record it holds. -/
def isReserved (table : Table) (index : Nat) : Bool :=
  table.reserved.contains index

/-- The index of a key, if it is stored. -/
def lookup? (table : Table) (key : Key) : Option Nat :=
  table.indices[key]?

def retrieve (table : Table) (index : Nat) : Except Fault Record :=
  match table.records[index]? with
  | some record => .ok record
  | none => .error (.missingIndex table.name index table.size)

/-- Store a record that is not there yet and move the counter beyond it. -/
def insert (table : Table) (record : Record) : Table :=
  { table with
    indices := table.indices.insert record.key record.index
    records := table.records.insert record.index record
    next := max table.next (record.index + 1) }

/-- Give a key that is not stored yet the next index. The counter is a word: once
the last index is given out it starts again at zero, and a record that it comes
upon there is replaced. -/
def allocate (table : Table) (key : Key) : Table :=
  { table with
    indices := table.indices.insert key table.next
    records := table.records.insert table.next ⟨table.next, key⟩
    next := Numeral.nextWord table.next }

/-- The index of a key and the table that holds it: a key that is not stored
yet gets the next index. -/
def intern (table : Table) (key : Key) : Nat × Table :=
  match table.lookup? key with
  | some index => (index, table)
  | none => (table.next, table.allocate key)

def reserve (table : Table) (key : Key) : Nat × Table :=
  let (index, held) := table.intern key
  (index, { held with reserved := held.reserved.insert index })

def hasCheckpoint (table : Table) : Bool :=
  !table.frontiers.isEmpty

/-- The checkpoint that would be taken now. -/
def here (table : Table) : Checkpoint :=
  ⟨table.frontiers.length, table.next⟩

def checkpoint (table : Table) : Checkpoint × Table :=
  (table.here, { table with frontiers := table.frontiers ++ [table.next] })

/-- Whether a checkpoint with this depth and frontier stands. -/
def stands (table : Table) (token : Checkpoint) : Bool :=
  table.frontiers[token.depth]? = some token.frontier

/-- The table without a checkpoint and the newer ones. -/
def dropCheckpoint (table : Table) (token : Checkpoint) : Table :=
  { table with frontiers := table.frontiers.take token.depth }

/-- The index of each key but those of the given records. -/
def forgetKeys (indices : Std.ExtTreeMap Key Nat) (cut : List Record) : Std.ExtTreeMap Key Nat :=
  cut.foldl (fun indices record => indices.erase record.key) indices

/-- The table without the records and reserved indices from `frontier` on. The
records are cut off first, and then the key of each of them is removed. -/
def discardFrom (table : Table) (frontier : Nat) : Table :=
  let cut := table.records.filter fun index _ => frontier ≤ index
  { table with
    indices := forgetKeys table.indices (cut.toList.map Prod.snd)
    records := table.records.filter fun index _ => index < frontier
    next := frontier
    reserved := table.reserved.filter fun index => index < frontier }

/-- Go back to a standing checkpoint: drop it with all newer ones and discard
the records stored since. -/
def rollback (table : Table) (token : Checkpoint) : Table × Except Fault Unit :=
  if table.stands token then
    ((table.dropCheckpoint token).discardFrom token.frontier, .ok ())
  else (table, .error (.staleCheckpoint table.name token.frontier))

/-- Drop a standing checkpoint with all newer ones and keep the records. -/
def release (table : Table) (token : Checkpoint) : Table × Except Fault Unit :=
  if table.stands token then (table.dropCheckpoint token, .ok ())
  else (table, .error (.staleCheckpoint table.name token.frontier))

/-- Store a record at its own index. A record that is there already at that
index changes nothing; any other overlap is a fault. -/
def install (table : Table) (record : Record) : Except Fault Table :=
  match table.records[record.index]?, table.lookup? record.key with
  | some existing, _ =>
      if existing.key = record.key then .ok table
      else if table.isReserved record.index then
        .error (.reservedIndexConflict table.name record.index)
      else .error (.malformedEntry table.name (.indexTwice record.index))
  | none, some other => .error (.malformedEntry table.name (.recordTwice record.index other))
  | none, none =>
      if record.index < Numeral.maxIndex then .ok (table.insert record)
      else .error (.malformedEntry table.name (.indexOutOfRange record.index))

/-- Store records one after the other up to the first fault. The records before
it stay stored. -/
def installAll (table : Table) : List Record → Table × Except Fault Unit
  | [] => (table, .ok ())
  | record :: rest =>
      match table.install record with
      | .error fault => (table, .error fault)
      | .ok grown => grown.installAll rest

/-- Store records with their own indices, which no standing checkpoint may
cut off. -/
def load (table : Table) (entries : List Record) : Table × Except Fault Unit :=
  if table.hasCheckpoint then (table, .error (.checkpointActive table.name))
  else table.installAll entries

/-- The table in lines: its name and size, then its records. -/
def listing (table : Table) : String :=
  String.join
    ((table.name ++ " (" ++ Numeral.ofNat table.size ++ " entries)\n")
      :: table.toList.map fun record => "  " ++ record.line ++ "\n")

end Table

end ProgramIndex
