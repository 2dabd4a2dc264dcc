import Std.Data.ExtTreeMap

/-!
Maps between the local ids of many files and global ids, in both directions.
Within one file no two local ids have the same global id.
-/

namespace ProgramIndex

/-- The local ids of one file with their global ids. -/
abbrev LocalMap : Type := Std.ExtTreeMap Int64 Int64

/-- A map in both directions. `forward` holds the local ids of every file;
`reverse` holds for every global id the files that have a local id for it, in
the order in which they got one. -/
structure Bimap where
  forward : Std.ExtTreeMap Nat LocalMap
  reverse : Std.ExtTreeMap Int64 (List (Nat × Int64))
  deriving DecidableEq

namespace Bimap

def empty : Bimap :=
  ⟨∅, ∅⟩

def locals (map : Bimap) (fid : Nat) : LocalMap :=
  map.forward.getD fid ∅

def global? (map : Bimap) (fid : Nat) (id : Int64) : Option Int64 :=
  (map.locals fid)[id]?

/-- Make room for the local ids of a file, unless it has any already. -/
def enter (map : Bimap) (fid : Nat) : Bimap :=
  { map with forward := map.forward.insertIfNew fid ∅ }

/-- The files that have a local id for a global id, each with that id, in the
order in which they got one. -/
def references (map : Bimap) (global : Int64) : List (Nat × Int64) :=
  map.reverse.getD global []

/-- The local id that a file has for a global id. -/
def local? (map : Bimap) (global : Int64) (fid : Nat) : Option Int64 :=
  (map.references global).lookup fid

/-- Give a file a local id in a list of references. A file that is in the list
keeps its place, a new one comes last. -/
def putReference (fid : Nat) (id : Int64) : List (Nat × Int64) → List (Nat × Int64)
  | [] => [(fid, id)]
  | (f, i) :: rest => if f = fid then (f, id) :: rest else (f, i) :: putReference fid id rest

/-- A list of references without a file; the others keep their order. -/
def removeReference (fid : Nat) (references : List (Nat × Int64)) : List (Nat × Int64) :=
  references.filter fun reference => reference.1 ≠ fid

/-- Take back that a file has the given local id for a global id. No empty list
of references is kept. -/
def forget (map : Bimap) (global : Int64) (fid : Nat) (id : Int64) : Bimap :=
  let remaining :=
    if map.local? global fid = some id then removeReference fid (map.references global)
    else map.references global
  { map with
    reverse :=
      if remaining.isEmpty then map.reverse.erase global
      else map.reverse.insert global remaining }

def setForward (map : Bimap) (fid : Nat) (id global : Int64) : Bimap :=
  { map with forward := map.forward.insert fid ((map.locals fid).insert id global) }

def dropForward (map : Bimap) (fid : Nat) (id : Int64) : Bimap :=
  { map with forward := map.forward.insert fid ((map.locals fid).erase id) }

def setReverse (map : Bimap) (fid : Nat) (id global : Int64) : Bimap :=
  { map with
    reverse := map.reverse.insert global (putReference fid id (map.references global)) }

/-- What a new pair of ids replaced: the other global id that the local id had,
and the other local id that the file had for the global id. -/
structure Replaced where
  global? : Option Int64
  local? : Option Int64
  deriving DecidableEq, Repr

def replacedBy (map : Bimap) (fid : Nat) (id global : Int64) : Replaced where
  global? := (map.global? fid id).filter fun old => old ≠ global
  local? := (map.local? global fid).filter fun stale => stale ≠ id

/-- Give a local id of a file a global id. Whatever the two ids were paired
with in this file before is given up. -/
def insert (map : Bimap) (fid : Nat) (id global : Int64) : Bimap :=
  let replaced := map.replacedBy fid id global
  let freed :=
    match replaced.global? with
    | some old => (map.setForward fid id global).forget old fid id
    | none => map.setForward fid id global
  let paired := freed.setReverse fid id global
  match replaced.local? with
  | some stale => paired.dropForward fid stale
  | none => paired

end Bimap

end ProgramIndex
