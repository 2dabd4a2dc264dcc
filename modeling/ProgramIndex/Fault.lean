import ProgramIndex.Family
import ProgramIndex.Markup.Fault
import ProgramIndex.Numeral.Real
import ProgramIndex.Numeral.Sequence
import ProgramIndex.Text.Quoted

/-!
What can go wrong with a dictionary, its tables and its documents. Each fault
names its cause; the wording is made in one place.
-/

namespace ProgramIndex

/-- What is wrong with a stored entry or with the document that stores it. -/
inductive Flaw where
  | secondRoot (name : String)
  | openAtEnd
  | noRoot
  | noIndex
  | badIndex (text : String) (cause : Numeral.Fault)
  | badArgs (index : Nat) (cause : Numeral.SequenceFault)
  | indexTwice (index : Nat)
  | recordTwice (index other : Nat)
  | indexOutOfRange (index : Nat)
  | noArgument (index : Nat) (tag : String) (position : Nat)
  | badInteger (index : Nat) (text : String) (cause : Numeral.Fault)
  | badReal (index : Nat) (text : String) (cause : Numeral.RealFault)
  deriving DecidableEq, Repr

/-- What can go wrong with a dictionary. The string `table` is the name of the
table concerned, or of an element where a document has gone wrong. -/
inductive Fault where
  | missingIndex (table : String) (index size : Nat)
  | unknownVariant (family : Family) (tag : String)
  | missingTable (table : String)
  | valueMismatch (tag name : String) (expectedTags expectedArgs foundTags foundArgs : Nat)
  | duplicateTag (family : Family) (tag : String)
  | staleCheckpoint (table : String) (frontier : Nat)
  | checkpointActive (table : String)
  | reservedIndexConflict (table : String) (index : Nat)
  | malformedEntry (table : String) (flaw : Flaw)
  | invalidReference (table : String) (index position : Nat) (arg : Int64)
  | unencodableTag (table tag : String)
  | markup (cause : Markup.Fault)
  deriving DecidableEq, Repr

open Numeral (ofNat ofInt64)
open Text (quote)

/-- The wording of a faulty list of integers in an attribute. -/
def Numeral.SequenceFault.message (fault : Numeral.SequenceFault) (key : String) : String :=
  "invalid integer " ++ quote fault.piece ++ " in " ++ key ++ ": " ++ fault.cause.message

/-- The name of the attribute that holds the arguments of a stored entry. -/
def argsAttribute : String := "a"

def Flaw.message : Flaw → String
  | .secondRoot name => "second root element " ++ name
  | .openAtEnd => "document ends inside an open element"
  | .noRoot => "document has no root element"
  | .noIndex => "entry without ix attribute"
  | .badIndex text cause => "invalid index " ++ quote text ++ ": " ++ cause.message
  | .badArgs index cause => "entry " ++ ofNat index ++ ": " ++ cause.message argsAttribute
  | .indexTwice index => "index " ++ ofNat index ++ " occurs twice with different records"
  | .recordTwice index other =>
      "record at index " ++ ofNat index ++ " duplicates index " ++ ofNat other
  | .indexOutOfRange index => "index " ++ ofNat index ++ " is out of range"
  | .noArgument index tag position =>
      "record " ++ ofNat index ++ " (" ++ tag ++ ") has no argument " ++ ofNat position
  | .badInteger index text cause =>
      "constant " ++ ofNat index ++ ": cannot parse " ++ quote text ++ ": " ++ cause.message
  | .badReal index text cause =>
      "constant " ++ ofNat index ++ ": cannot parse " ++ quote text ++ ": " ++ cause.message

def Fault.message : Fault → String
  | .missingIndex table index size =>
      "Unable to retrieve item " ++ ofNat index ++ " from table " ++ table
        ++ " (size " ++ ofNat size ++ ")"
  | .unknownVariant family tag => "Unknown " ++ family.title ++ " variant: " ++ quote tag
  | .missingTable table => "Dictionary table " ++ table ++ " not found"
  | .valueMismatch tag name expectedTags expectedArgs foundTags foundArgs =>
      "Dictionary record mismatch for " ++ tag ++ " in " ++ name ++ ": Expected "
        ++ ofNat expectedTags ++ " tags and " ++ ofNat expectedArgs ++ " args, but found "
        ++ ofNat foundTags ++ " tags and " ++ ofNat foundArgs
  | .duplicateTag family tag =>
      "Tag " ++ quote tag ++ " is already registered for " ++ family.title
  | .staleCheckpoint table frontier =>
      "Checkpoint at " ++ ofNat frontier ++ " in table " ++ table ++ " is no longer active"
  | .checkpointActive table =>
      "Cannot bulk load table " ++ table ++ " while a checkpoint is active"
  | .reservedIndexConflict table index =>
      "Reserved index " ++ ofNat index ++ " in table " ++ table
        ++ " cannot hold a different record"
  | .malformedEntry table flaw => "Malformed entry in table " ++ table ++ ": " ++ flaw.message
  | .invalidReference table index position arg =>
      "Record " ++ ofNat index ++ " in " ++ table ++ " has invalid reference argument "
        ++ ofInt64 arg ++ " at position " ++ ofNat position
  | .unencodableTag table tag =>
      "Tag " ++ quote tag ++ " in table " ++ table ++ " cannot be encoded in a comma-joined list"
  | .markup cause => "XML error: " ++ cause.message

end ProgramIndex
