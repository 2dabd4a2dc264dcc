import ProgramIndex.Fault
import ProgramIndex.Markup.Element
import ProgramIndex.Markup.Event

/-!
Documents: the tree of elements that a sequence of events stands for, and the
text in which a tree is written.
-/

namespace ProgramIndex

open Markup

/-- An element whose end has not been met yet, with the children that are
complete so far, last child first. -/
structure OpenElement where
  tag : Tag
  children : List Element

/-- The element once its end is met. -/
def OpenElement.close (e : OpenElement) : Element :=
  ⟨e.tag.name, e.tag.attributes, e.children.reverse⟩

/-- What the events so far have built: the elements still open, innermost
first, and the root once it is complete. -/
structure Build where
  opened : List OpenElement
  root? : Option Element

namespace Build

def empty : Build :=
  ⟨[], none⟩

/-- Put a complete element in its place: into the innermost open element, or
at the root. There is room for one root only. -/
def attach (build : Build) (e : Element) : Except Fault Build :=
  match build.opened, build.root? with
  | parent :: outer, _ =>
      .ok { build with opened := { parent with children := e :: parent.children } :: outer }
  | [], some first => .error (.malformedEntry first.name (.secondRoot e.name))
  | [], none => .ok { build with root? := some e }

/-- Take in one event. An end closes the innermost open element. -/
def step (build : Build) : Event → Except Fault Build
  | .start tag => .ok { build with opened := ⟨tag, []⟩ :: build.opened }
  | .empty tag => build.attach ⟨tag.name, tag.attributes, []⟩
  | .finish _ =>
      match build.opened with
      | [] => .ok build
      | innermost :: outer => { build with opened := outer }.attach innermost.close
  | .aside => .ok build

/-- The tree that has been built at the end of the document. An element that is
still open is reported by its outermost one. -/
def finish (build : Build) : Except Fault Element :=
  match build.opened.getLast?, build.root? with
  | some outermost, _ => .error (.malformedEntry outermost.tag.name .openAtEnd)
  | none, some root => .ok root
  | none, none => .error (.malformedEntry "<document>" .noRoot)

end Build

namespace Element

/-- The tree that a sequence of events stands for. -/
def ofEvents (events : List Event) : Except Fault Element :=
  events.foldlM Build.step Build.empty >>= Build.finish

/-- Read a document. Of a misplaced element and a fault in the markup, the one
that is met first decides. -/
def parse (text : String) : Except Fault Element :=
  let scan := Markup.scan text
  match scan.fault? with
  | none => ofEvents scan.events
  | some fault =>
      match scan.events.foldlM Build.step Build.empty with
      | .error earlier => .error earlier
      | .ok _ => .error (.markup fault)

/-- An attribute in a tag, with a space before it. -/
def writeAttribute (entry : String × String) : List Char :=
  ' ' :: entry.1.toList ++ '=' :: '"' :: escape entry.2.toList ++ ['"']

/-- A tag without its brackets: the name, then the attributes in order. -/
def writeTag (name : String) (attributes : List (String × String)) : List Char :=
  name.toList ++ attributes.flatMap writeAttribute

/-- The spaces at the start of a line, two for every level. -/
def indent (depth : Nat) : List Char :=
  List.replicate (2 * depth) ' '

/-- The lines of an element, one for each tag. An element without children is a
single tag. -/
def lines (depth : Nat) : Element → List (List Char)
  | ⟨name, attributes, children⟩ =>
      let opening := indent depth ++ '<' :: writeTag name attributes
      if children.isEmpty then [opening ++ ['/', '>']]
      else
        (opening ++ ['>']) :: (children.flatMap fun child => child.lines (depth + 1))
          ++ [indent depth ++ '<' :: '/' :: name.toList ++ ['>']]

/-- An element in lines of their own, each with a line break before it. -/
def write (depth : Nat) (e : Element) : List Char :=
  (e.lines depth).flatMap ('\n' :: ·)

/-- The line that every document starts with. -/
def declaration : String :=
  "<?xml version=\"1.0\" encoding=\"UTF-8\"?>"

/-- The tree as a document, without a line break at its end. Names are written
as they are, whether or not they can be read back. -/
def document (e : Element) : String :=
  String.ofList (declaration.toList ++ e.write 0)

end Element

end ProgramIndex
