import ProgramIndex.Dictionary.Basic
import ProgramIndex.Table.Codec

/-!
Dictionaries as elements: a section for each table.
-/

namespace ProgramIndex.Dictionary

def rootName : String := "c-dictionary"

/-- The element that stores a dictionary. The first table that cannot be stored
is the fault. -/
def toElement (d : Dictionary) : Except Fault Element :=
  (d.tables.mapM Table.toElement).map fun sections => ⟨rootName, [], sections⟩

/-- What the section of a table stores. The first section of the table's name
counts. -/
def readSection (root : Element) (table : Table) : Except Fault Table :=
  match root.find? table.name with
  | none => .error (.missingTable table.name)
  | some e => Table.ofElement table.name e

/-- Replace the tables of some kinds, one after the other. -/
def replaceEach (d : Dictionary) (fresh : List (Kind × Table)) : Dictionary :=
  fresh.foldl (fun d entry => d.withTable entry.1 entry.2) d

/-- Replace all tables by what their sections store. All sections are read before
the first table is replaced. -/
def read (d : Dictionary) (root : Element) : Dictionary × Except Fault Unit :=
  match Kind.all.mapM fun kind => (readSection root (d.table kind)).map (kind, ·) with
  | .ok fresh => (d.replaceEach fresh, .ok ())
  | .error fault => (d, .error fault)

def ofElement (registry : Registry) (root : Element) : Except Fault Dictionary :=
  match (new registry).read root with
  | (loaded, .ok ()) => .ok loaded
  | (_, .error fault) => .error fault

end ProgramIndex.Dictionary
