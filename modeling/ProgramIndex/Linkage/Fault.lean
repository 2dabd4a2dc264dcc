import ProgramIndex.Fault

/-!
What can go wrong with the cross-references of a program's files.
-/

namespace ProgramIndex

/-- The two kinds of entries in a document of cross-references. -/
inductive EntryKind where
  | comp
  | var
  deriving DecidableEq, Repr

def EntryKind.title : EntryKind → String
  | .comp => "Compinfo"
  | .var => "Varinfo"

/-- What can go wrong with cross-references. What the system says about a file
or about settings that cannot be read is not kept. -/
inductive LinkFault where
  | missingAttribute (entry : EntryKind) (key : String)
  | invalidInteger (entry : EntryKind) (key : String) (value : String)
  | document (cause : Fault)
  | storage
  | settings
  deriving DecidableEq, Repr

/-- The wording of a fault; there is none of its own for storage and settings. -/
def LinkFault.message? : LinkFault → Option String
  | .missingAttribute entry key => some (entry.title ++ " xref without " ++ key ++ " attribute")
  | .invalidInteger entry key value =>
      some ("Invalid integer " ++ Text.quote value ++ " in attribute " ++ key ++ " of "
        ++ entry.title)
  | .document cause => some cause.message
  | .storage => none
  | .settings => none

end ProgramIndex
