import ProgramIndex.Linkage.FileLinks
import ProgramIndex.Linkage.Notice
import ProgramIndex.Linkage.Settings

/-!
The identity of variables and struct keys across the files of a program. Every
file numbers its variables and structs on its own; global ids tell which of
these numbers denote the same thing.
-/

namespace ProgramIndex

/-- What is known about the files of a program. In a program of a single file
every local id is its own global id, whatever the maps say. -/
structure Linkage where
  singleFile : Bool
  settings? : Option Settings
  vids : Bimap
  ckeys : Bimap
  definitions : Std.ExtTreeMap Int64 Nat
  vidCeilings : Std.ExtTreeMap Nat Int64

/-- What a program's file says about itself: its number, where it is, and the
local ids of the variables and functions that it defines. -/
structure SourceFile where
  fid : Nat
  directory? : Option String
  name : String
  vars : List Int64
  functions : List (String × Int64)
  deriving DecidableEq, Repr

namespace Linkage

def new (singleFile : Bool) : Linkage :=
  ⟨singleFile, none, .empty, .empty, ∅, ∅⟩

/-- Nothing known yet but where to find the stored cross-references. -/
def ofSettings (settings : Settings) : Linkage :=
  { new settings.singleFile with settings? := some settings }

/-! ### Questions -/

def globalVar? (m : Linkage) (var : FileVar) : Option Int64 :=
  if m.singleFile then some var.vid else m.vids.global? var.fid var.vid

/-- The variable of a file with the given global id. -/
def localVar? (m : Linkage) (fid : Nat) (global : Int64) : Option Int64 :=
  if m.singleFile then some global else m.vids.local? global fid

/-- The variable that a file is registered with for a global id. -/
def reference? (m : Linkage) (global : Int64) (fid : Nat) : Option Int64 :=
  m.vids.local? global fid

def hasReference (m : Linkage) (global : Int64) (fid : Nat) : Bool :=
  (m.reference? global fid).isSome

/-- All variables registered for a global id, in the order of registration. -/
def references (m : Linkage) (global : Int64) : List FileVar :=
  (m.vids.references global).map fun (fid, vid) => ⟨fid, vid⟩

/-- The variables of other files that denote the same thing as a variable. -/
def otherReferences (m : Linkage) (var : FileVar) : List FileVar :=
  if m.singleFile then []
  else
    match m.vids.global? var.fid var.vid with
    | none => []
    | some global => (m.references global).filter fun other => other.fid ≠ var.fid

/-- The variable of another file that denotes the same thing as a variable. A
variable converted to its own file is itself, known or not. -/
def convertVar? (m : Linkage) (var : FileVar) (target : Nat) : Option Int64 :=
  if var.fid = target then some var.vid
  else (m.globalVar? var).bind fun global => m.vids.local? global target

def globalKey? (m : Linkage) (key : FileKey) : Option Int64 :=
  if m.singleFile then some key.ckey else m.ckeys.global? key.fid key.ckey

/-- The struct of another file that denotes the same thing as a struct. -/
def convertKey? (m : Linkage) (key : FileKey) (target : Nat) : Option Int64 :=
  if key.fid = target then some key.ckey
  else (m.globalKey? key).bind fun global => m.ckeys.local? global target

def definition? (m : Linkage) (global : Int64) : Option Nat :=
  m.definitions[global]?

/-- The ceiling of the numbers for variables that are made up in a file. -/
def vidCeiling? (m : Linkage) (fid : Nat) : Option Int64 :=
  m.vidCeilings[fid]?

def fileLinks (m : Linkage) (fid : Nat) : FileLinks :=
  ⟨m.ckeys.locals fid, m.vids.locals fid⟩

/-! ### Notices of questions -/

def convertVarNotices (m : Linkage) (var : FileVar) (target : Nat) : List Notice :=
  if var.fid = target then []
  else
    match m.globalVar? var with
    | none => []
    | some global =>
        if (m.vids.local? global target).isNone then [.varNotConverted var target global] else []

/-- What is worth knowing when a global key is asked for. -/
def globalKeyNotices (m : Linkage) (key : FileKey) : List Notice :=
  if (m.globalKey? key).isNone then [.keyUnknown key] else []

def convertKeyNotices (m : Linkage) (key : FileKey) (target : Nat) : List Notice :=
  if key.fid = target then []
  else
    match m.globalKey? key with
    | none => m.globalKeyNotices key
    | some global =>
        if (m.ckeys.local? global target).isNone then [.keyNotConverted key target global]
        else []

/-! ### Registration -/

/-- The notice of a local id that had to give way. -/
def staleNotices (fid : Nat) (id global : Int64) (replaced : Bimap.Replaced) : List Notice :=
  match replaced.local? with
  | some stale => [.replacedLocal fid stale id global]
  | none => []

def addVar (m : Linkage) (var : FileVar) (global : Int64) : Noted Linkage :=
  let replaced := m.vids.replacedBy var.fid var.vid global
  ⟨{ m with vids := m.vids.insert var.fid var.vid global },
    staleNotices var.fid var.vid global replaced ++
      match replaced.global? with
      | some old => [.replacedGlobalVar var old global]
      | none => []⟩

def addKey (m : Linkage) (key : FileKey) (global : Int64) : Noted Linkage :=
  let replaced := m.ckeys.replacedBy key.fid key.ckey global
  ⟨{ m with ckeys := m.ckeys.insert key.fid key.ckey global },
    staleNotices key.fid key.ckey global replaced ++
      match replaced.global? with
      | some old => [.replacedGlobalKey key old global]
      | none => []⟩

/-- Give a file's variables and structs the global ids of its cross-references:
the structs first, each kind in ascending order of the local ids. The file has a
place in both maps afterwards, also if it has no ids there. -/
def addLinks (m : Linkage) (fid : Nat) (links : FileLinks) : Noted Linkage := do
  let keyed ← links.ckeys.toList.foldlM (fun m ids => m.addKey ⟨fid, ids.1⟩ ids.2)
    { m with ckeys := m.ckeys.enter fid }
  links.vids.toList.foldlM (fun m ids => m.addVar ⟨fid, ids.1⟩ ids.2)
    { keyed with vids := keyed.vids.enter fid }

/-- Give a file the ids of the cross-references that have been read for it. Nothing
is given if they could not be read. -/
def addRead (m : Linkage) (fid : Nat) :
    Except LinkFault FileLinks → Noted (Linkage × Except LinkFault Unit)
  | .ok links => do return (← m.addLinks fid links, .ok ())
  | .error fault => pure (m, .error fault)

/-- Read cross-references from an element and give a file the ids in them. -/
def addElement (m : Linkage) (fid : Nat) (e : Element) :
    Noted (Linkage × Except LinkFault Unit) :=
  m.addRead fid (FileLinks.ofElement e)

/-- Give a file the ids in a stored document of cross-references. -/
def loadLinks (m : Linkage) (disk : Disk) (fid : Nat) (path : String) :
    Noted (Linkage × Except LinkFault Unit) :=
  m.addRead fid (FileLinks.load disk path)

/-! ### Files -/

/-- The first number for variables that are made up in a file. It lies above
the numbers of the variables that the file declares. -/
def firstVidCeiling : Int64 := 1000000

/-- Note that a file defines the variable with a local id, if it has a global
id. -/
def addDefinition (m : Linkage) (var : FileVar) : Linkage :=
  match m.globalVar? var with
  | none => m
  | some global => { m with definitions := m.definitions.insert global var.fid }

def functionNotices (m : Linkage) (fid : Nat) (function : String × Int64) : List Notice :=
  match m.globalVar? ⟨fid, function.2⟩ with
  | none => []
  | some global => [.functionDefined function.1 global fid]

def addDefinitions (m : Linkage) (file : SourceFile) : Noted Linkage :=
  let ids := file.vars ++ file.functions.map Prod.snd
  ⟨ids.foldl (fun m vid => m.addDefinition ⟨file.fid, vid⟩) m,
    file.functions.flatMap (m.functionNotices file.fid)⟩

/-- The text of the stored cross-references of a file, given what its path
leads to: none if there is no file at the path. -/
def storedText? (m : Linkage) (disk : Disk) (file : SourceFile) :
    Option (Except LinkFault String) :=
  match m.settings? with
  | none => none
  | some settings =>
      let path := settings.linksPath file.directory? file.name
      if disk.isFile path then
        match disk.readText? path with
        | some text => some (.ok text)
        | none => some (.error .storage)
      else none

/-- Note the ceiling of a file at the beginning. -/
def withCeiling (m : Linkage) (fid : Nat) : Linkage :=
  { m with vidCeilings := m.vidCeilings.insert fid firstVidCeiling }

/-- Bring a file into the program, where `stored?` is the text of its stored
cross-references, if it has any. In a program of a single file they are not
looked at. Nothing more is done with a file whose cross-references cannot be read. -/
def addFileWith (m : Linkage) (file : SourceFile) (stored? : Option (Except LinkFault String)) :
    Noted (Linkage × Except LinkFault Unit) :=
  if m.singleFile then pure (m.withCeiling file.fid, .ok ())
  else do
    let (linked, outcome) ←
      match stored? with
      | none => pure (m, .ok ())
      | some stored => m.addRead file.fid (stored.bind FileLinks.parse)
    match outcome with
    | .error fault => return (linked, .error fault)
    | .ok () => return ((← linked.addDefinitions file).withCeiling file.fid, .ok ())

/-- Bring a file into the program, with its stored cross-references. -/
def addFile (m : Linkage) (disk : Disk) (file : SourceFile) :
    Noted (Linkage × Except LinkFault Unit) :=
  m.addFileWith file (m.storedText? disk file)

def saveLinks (m : Linkage) (disk : Disk) (fid : Nat) (path : String) :
    Disk × Except LinkFault Unit :=
  match disk.store path (m.fileLinks fid).toElement.document.toUTF8 with
  | (stored, true) => (stored, .ok ())
  | (stored, false) => (stored, .error .storage)

/-- Store the cross-references of a file where they are looked for, if that is
known. -/
def saveFile (m : Linkage) (disk : Disk) (file : SourceFile) : Disk × Except LinkFault Bool :=
  match m.settings? with
  | none => (disk, .ok false)
  | some settings =>
      let (stored, result) :=
        m.saveLinks disk file.fid (settings.linksPath file.directory? file.name)
      (stored, result.map fun _ => true)

end Linkage

end ProgramIndex
