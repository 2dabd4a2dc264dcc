import ProgramIndex.Text.Delimited
import Std.Data.ExtTreeMap

/-!
Files and directories as a value. Paths are resolved one component after the
other; there are no links and no permissions.
-/

namespace ProgramIndex

/-- A place in the tree of directories, as the names on the way from the root. -/
abbrev Place : Type := List String

/-- What stands at a place. -/
inductive Node where
  | directory
  | file (content : ByteArray)

/-- A tree of directories and files with a working directory. The root is a
directory whether or not it is listed. -/
structure Disk where
  nodes : Std.ExtTreeMap Place Node
  working : Place

namespace Disk

/-- The disk with nothing but an empty working directory below the root. -/
def empty : Disk where
  nodes := (∅ : Std.ExtTreeMap Place Node).insert ["work"] .directory
  working := ["work"]

def node? (disk : Disk) (place : Place) : Option Node :=
  if place = [] then some .directory else disk.nodes[place]?

def isDirectory (disk : Disk) (place : Place) : Bool :=
  match disk.node? place with
  | some .directory => true
  | _ => false

/-- The components of a path. A slash at the end asks for a directory, as a
single point does. -/
def components (path : String) : List String :=
  let names := ((Text.split '/' path.toList).filter (· ≠ [])).map String.ofList
  if path.toList.getLast? = some '/' then names ++ ["."] else names

def origin (disk : Disk) (path : String) : Place :=
  if path.toList.head? = some '/' then [] else disk.working

/-- The longest path, in bytes. -/
def maxPathLength : Nat := 4095

def isPossible (path : String) : Bool :=
  path ≠ "" && !path.toList.contains '\x00' && path.utf8ByteSize ≤ maxPathLength

/-- The pieces of a path without those at its end that name nothing, empty ones
and single points. The first piece stays: it says where the path starts. -/
def trimmed : List (List Char) → List (List Char)
  | [] => []
  | first :: rest =>
      first :: (rest.reverse.dropWhile fun piece => piece = [] || piece = ['.']).reverse

/-- The path of the directory that a path leads into, written as in the path
itself. It is empty if nothing of the path is left. -/
def enclosing (path : String) : String :=
  String.ofList (Text.join '/' (trimmed (trimmed (Text.split '/' path.toList)).dropLast))

/-- The longest name of a file or a directory, in bytes. -/
def maxNameLength : Nat := 255

/-- Whether a component names something other than a directory that is known
without its name. -/
def isName (component : String) : Bool :=
  component ≠ "." && component ≠ ".." && component.utf8ByteSize ≤ maxNameLength

/-- Walk along components. Everything but the end of the way is a directory. -/
def walk (disk : Disk) (place : Place) : List String → Option Place
  | [] => some place
  | component :: rest =>
      if !disk.isDirectory place then none
      else if component = "." then disk.walk place rest
      else if component = ".." then disk.walk place.dropLast rest
      else if (disk.node? (place ++ [component])).isSome then
        disk.walk (place ++ [component]) rest
      else none

/-- The place that a path leads to, if there is something. -/
def resolve (disk : Disk) (path : String) : Option Place :=
  if isPossible path then disk.walk (disk.origin path) (components path) else none

def read? (disk : Disk) (path : String) : Option ByteArray :=
  match (disk.resolve path).bind disk.node? with
  | some (.file content) => some content
  | _ => none

/-- The text of a file; none if the file is no UTF-8. -/
def readText? (disk : Disk) (path : String) : Option String :=
  (disk.read? path).bind String.fromUTF8?

def isFile (disk : Disk) (path : String) : Bool :=
  (disk.read? path).isSome

/-- Walk along components and make the directories that are missing on the way,
as far as that can be done. The way is none where something else stands in it. -/
def makeWay (disk : Disk) (place : Place) : List String → Disk × Option Place
  | [] => (disk, if disk.isDirectory place then some place else none)
  | component :: rest =>
      if !disk.isDirectory place then (disk, none)
      else if component = "." then disk.makeWay place rest
      else if component = ".." then disk.makeWay place.dropLast rest
      else
        let next := place ++ [component]
        if (disk.node? next).isSome then disk.makeWay next rest
        else if isName component then
          { disk with nodes := disk.nodes.insert next .directory }.makeWay next rest
        else (disk, none)

/-- Write a file at a path. The directory must be there, and nothing but a file
may stand at the end of the path. -/
def write? (disk : Disk) (path : String) (content : ByteArray) : Option Disk :=
  let way := components path
  match isPossible path, way.getLast?, disk.walk (disk.origin path) way.dropLast with
  | true, some name, some directory =>
      let place := directory ++ [name]
      if isName name && disk.isDirectory directory && !disk.isDirectory place then
        some { disk with nodes := disk.nodes.insert place (.file content) }
      else none
  | _, _, _ => none

/-- Write a file at a path and make the missing directories on the way to it.
The directories stay even when the file cannot be written. The way to the file
is a path of its own: a name or a length that makes the whole path impossible
does not keep the directories from being made. -/
def store (disk : Disk) (path : String) (content : ByteArray) : Disk × Bool :=
  let way := enclosing path
  if way ≠ "" && !isPossible way then (disk, false)
  else
    match disk.makeWay (disk.origin path) (components way) with
    | (prepared, none) => (prepared, false)
    | (prepared, some _) =>
        match prepared.write? path content with
        | some written => (written, true)
        | none => (prepared, false)

/-- The paths of all files below the working directory, relative to it and in
ascending order. -/
def listing (disk : Disk) : List String :=
  let paths := disk.nodes.toList.filterMap fun (place, node) =>
    match node, disk.working.isPrefixOf place with
    | .file _, true => some ("/".intercalate (place.drop disk.working.length))
    | _, _ => none
  paths.mergeSort fun a b => a ≤ b

end Disk

end ProgramIndex
