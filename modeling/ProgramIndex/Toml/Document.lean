import ProgramIndex.Toml.Value

/-!
TOML documents: the lines of a document and the tree of tables that they build.
Every key is bound once, and a table is opened by one header only.
-/

namespace ProgramIndex.Toml

open Reader

/-- How a table has come into the document: by a header of its own, on the way
of another header, or by the points in a key. -/
inductive Origin where
  | header
  | passing
  | points
  deriving DecidableEq, Repr

mutual

/-- What a key is bound to. Of an array of tables only the newest is kept. -/
inductive Entry where
  | value (v : Value)
  | table (t : Branch)
  | tables (newest : Branch)

/-- A table. -/
inductive Branch where
  | node (origin : Origin) (entries : List (String × Entry))

end

namespace Branch

def origin : Branch → Origin
  | .node origin _ => origin

def entries : Branch → List (String × Entry)
  | .node _ entries => entries

def get? (branch : Branch) (key : String) : Option Entry :=
  branch.entries.lookup key

def put (branch : Branch) (key : String) (entry : Entry) : Branch :=
  .node branch.origin ((branch.entries.filter (·.1 ≠ key)) ++ [(key, entry)])

/-- Change the table that keys lead to, making the tables that are missing on
the way. Points in a key do not lead into a table that has a header. -/
def changeAt (points : Bool) (change : Branch → Option Branch) :
    List String → Branch → Option Branch
  | [], branch => change branch
  | key :: rest, branch =>
      match branch.get? key with
      | none =>
          (changeAt points change rest (.node (if points then .points else .passing) [])).map
            fun inner => branch.put key (.table inner)
      | some (.value _) => none
      | some (.tables newest) =>
          (changeAt points change rest newest).map fun inner => branch.put key (.tables inner)
      | some (.table inner) =>
          if points ∧ inner.origin = .header then none
          else (changeAt points change rest inner).map fun inner => branch.put key (.table inner)

/-- Bind a key that is not bound yet to a value. Whether points have led to the
table must agree with how the table has come into the document. -/
def bindValue (pointed : Bool) (key : String) (v : Value) (branch : Branch) : Option Branch :=
  if pointed = decide (branch.origin = .points) ∧ (branch.get? key).isNone then
    some (branch.put key (.value v))
  else none

/-- Open a table by its header. It may be there already on the way of another
header. -/
def openTable (key : String) (branch : Branch) : Option Branch :=
  match branch.get? key with
  | none => some (branch.put key (.table (.node .header [])))
  | some (.table inner) =>
      if inner.origin = .passing then
        some (branch.put key (.table (.node .header inner.entries)))
      else none
  | some _ => none

def openNext (key : String) (branch : Branch) : Option Branch :=
  match branch.get? key with
  | none => some (branch.put key (.tables (.node .header [])))
  | some (.tables _) => some (branch.put key (.tables (.node .header [])))
  | some _ => none

end Branch

/-- What a line of a document says. -/
inductive Statement where
  | nothing
  | header (key : List String)
  | nextHeader (key : List String)
  | binding (key : List String) (v : Value)

/-- One line, to its end. -/
def statement : Reader Statement :=
  (do comment; lineEnd; return .nothing)
    <|> (do let _ ← lineBreak; return .nothing)
    <|> (do
      let _ ← exactly "[[".toList
      let key ← key
      let _ ← exactly "]]".toList
      lineRest
      return .nextHeader key)
    <|> (do
      let _ ← char '['
      let key ← key
      let _ ← char ']'
      lineRest
      return .header key)
    <|> (do
      let key ← key
      let _ ← char '='
      let _ ← blanks
      let v ← value maxDepth
      lineRest
      return .binding key v)

/-- All lines of a document. One byte order mark in front is dropped. -/
def statements : Reader (List Statement) := do
  let _ ← optional (char '\ufeff')
  let _ ← blanks
  let lines ← many do
    let line ← statement
    let _ ← blanks
    return line
  atEnd
  return lines

/-- The tables of a document so far, and the key of the table that is open. -/
structure Layout where
  root : Branch
  current : List String

namespace Layout

def empty : Layout :=
  ⟨.node .header [], []⟩

/-- Change the table that holds what the last part of a key names. -/
def changeHolder (layout : Layout) (key : List String) (change : String → Branch → Option Branch) :
    Option Branch :=
  match key.getLast? with
  | none => none
  | some last => layout.root.changeAt false (change last) key.dropLast

def step (layout : Layout) : Statement → Option Layout
  | .nothing => some layout
  | .header key => (layout.changeHolder key Branch.openTable).map fun root => ⟨root, key⟩
  | .nextHeader key => (layout.changeHolder key Branch.openNext).map fun root => ⟨root, key⟩
  | .binding key v =>
      match key.getLast? with
      | none => none
      | some last =>
          let pointed := key.dropLast ≠ []
          let bind := Branch.changeAt true (Branch.bindValue pointed last v) key.dropLast
          (layout.root.changeAt false bind layout.current).map fun root => { layout with root }

end Layout

/-- Read a document; none if it is not well formed. -/
def parse (text : String) : Option Branch := do
  let (lines, _) ← statements.run text.toList
  let layout ← lines.foldlM Layout.step Layout.empty
  return layout.root

end ProgramIndex.Toml
