import ProgramIndex.Markup.Document
import ProgramIndex.Table.Basic

/-!
Tables as elements: one child for each record, with the tags, the arguments and
the index of the record as attributes.
-/

namespace ProgramIndex

def entryName : String := "n"

/-- Write the attributes of a stored record. Tags are written whenever there
are any, so that one empty tag differs from no tags. -/
def Record.writeTo (record : Record) (e : Element) : Element :=
  let tagged := if record.key.tags.isEmpty then e else e.set "t" record.key.joinedTags
  let args := record.key.joinedArgs
  let full := if args.isEmpty then tagged else tagged.set argsAttribute args
  full.set "ix" (Numeral.ofNat record.index)

def Record.toElement (record : Record) : Element :=
  record.writeTo (Element.named entryName)

/-- The integers in an attribute; none if it is absent or empty. -/
def Element.integers (e : Element) (key : String) :
    Except Numeral.SequenceFault (List Int64) :=
  match e.get? key with
  | none => .ok []
  | some text => Numeral.readSequence text.toList

/-- Read a stored record. `table` is the name of the table it is read for. -/
def Record.ofElement (table : String) (e : Element) : Except Fault Record :=
  match e.get? "ix" with
  | none => .error (.malformedEntry table .noIndex)
  | some text =>
      match Numeral.readIndex text.toList with
      | .error cause => .error (.malformedEntry table (.badIndex text cause))
      | .ok index =>
          let tags :=
            match e.get? "t" with
            | none => []
            | some text => (Text.split ',' text.toList).map String.ofList
          match e.integers argsAttribute with
          | .error cause => .error (.malformedEntry table (.badArgs index cause))
          | .ok args => .ok ⟨index, ⟨tags, args⟩⟩

/-- The first tag of a record that holds a comma, which would split it in two
when it is read back. -/
def Record.commaTag? (record : Record) : Option String :=
  record.key.tags.find? fun tag => tag.toList.contains ','

/-- The element that stores a record of the given table, unless one of its tags
cannot be stored. -/
def Record.encode (table : String) (record : Record) : Except Fault Element :=
  match record.commaTag? with
  | some tag => .error (.unencodableTag table tag)
  | none => .ok record.toElement

namespace Table

/-- The element that stores a table, named after it. -/
def toElement (table : Table) : Except Fault Element :=
  (table.toList.mapM (Record.encode table.name)).map fun entries => ⟨table.name, [], entries⟩

/-- A new table with the records stored in an element. All entries are read
before the first one is stored. -/
def ofElement (name : String) (e : Element) : Except Fault Table := do
  let entries ← (e.findAll entryName).mapM (Record.ofElement name)
  match (new name).load entries with
  | (table, .ok ()) => .ok table
  | (_, .error fault) => .error fault

/-- Replace a table by what an element stores. The new table is complete before it
takes the place of the old one. -/
def read (table : Table) (e : Element) : Table × Except Fault Unit :=
  match ofElement table.name e with
  | .ok fresh => (fresh, .ok ())
  | .error fault => (table, .error fault)

end Table

end ProgramIndex
