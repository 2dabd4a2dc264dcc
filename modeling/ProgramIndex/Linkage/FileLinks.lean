import ProgramIndex.Disk
import ProgramIndex.Linkage.Bimap
import ProgramIndex.Linkage.Fault
import ProgramIndex.Markup.Document

/-!
The cross-references of one file, and the document that stores them.
-/

namespace ProgramIndex

/-- The global ids of one file's struct keys and variables. -/
structure FileLinks where
  ckeys : LocalMap
  vids : LocalMap
  deriving DecidableEq

namespace FileLinks

def empty : FileLinks :=
  ⟨∅, ∅⟩

def isEmpty (links : FileLinks) : Bool :=
  links.ckeys.isEmpty && links.vids.isEmpty

/-- How one kind of cross-references is stored: in a section of entries with a
local and a global id each. -/
structure Section where
  kind : EntryKind
  name : String
  entryName : String
  localKey : String
  globalKey : String

def ckeySection : Section where
  kind := .comp
  name := "compinfo-xrefs"
  entryName := "cxref"
  localKey := "ckey"
  globalKey := "gckey"

def vidSection : Section where
  kind := .var
  name := "varinfo-xrefs"
  entryName := "vxref"
  localKey := "vid"
  globalKey := "gvid"

/-- The name of the element that stores the cross-references of a file. -/
def rootName : String := "global-xrefs"

def Section.entry (form : Section) (ids : Int64 × Int64) : Element :=
  ⟨form.entryName,
    [(form.localKey, Numeral.ofInt64 ids.1), (form.globalKey, Numeral.ofInt64 ids.2)], []⟩

/-- The element that stores a section, in ascending order of the local ids. -/
def Section.toElement (form : Section) (ids : LocalMap) : Element :=
  ⟨form.name, [], ids.toList.map form.entry⟩

/-- The element that stores the cross-references of a file. Both sections are
written even when they are empty. -/
def toElement (links : FileLinks) : Element :=
  ⟨rootName, [], [ckeySection.toElement links.ckeys, vidSection.toElement links.vids]⟩

/-- Read an id from an attribute; blanks around it are permitted. -/
def Section.readId (form : Section) (entry : Element) (key : String) :
    Except LinkFault Int64 :=
  match entry.get? key with
  | none => .error (.missingAttribute form.kind key)
  | some text =>
      match Numeral.readInt64 (Text.trim text.toList) with
      | .ok id => .ok id
      | .error _ => .error (.invalidInteger form.kind key text)

def Section.readEntry (form : Section) (entry : Element) : Except LinkFault (Int64 × Int64) := do
  let id ← form.readId entry form.localKey
  let global ← form.readId entry form.globalKey
  return (id, global)

/-- Read the first section of the given form; an absent section is empty. Of
two entries for one local id the later one counts. -/
def Section.ofElement (form : Section) (root : Element) : Except LinkFault LocalMap :=
  match root.find? form.name with
  | none => .ok ∅
  | some e =>
      ((e.findAll form.entryName).mapM form.readEntry).map fun entries =>
        entries.foldl (fun ids entry => ids.insert entry.1 entry.2) ∅

/-- The element with the cross-references of a file: the given one or its first
child of the right name, or else the given one whatever its name. -/
def rootOf (e : Element) : Element :=
  if e.name = rootName then e else (e.find? rootName).getD e

/-- Read the cross-references of a file, struct keys first. -/
def ofElement (e : Element) : Except LinkFault FileLinks := do
  let root := rootOf e
  let ckeys ← ckeySection.ofElement root
  let vids ← vidSection.ofElement root
  return ⟨ckeys, vids⟩

def parse (text : String) : Except LinkFault FileLinks :=
  match Element.parse text with
  | .ok e => ofElement e
  | .error cause => .error (.document cause)

/-- Read the cross-references of a file from a document. -/
def load (disk : Disk) (path : String) : Except LinkFault FileLinks :=
  match disk.readText? path with
  | none => .error .storage
  | some text => parse text

end FileLinks

end ProgramIndex
