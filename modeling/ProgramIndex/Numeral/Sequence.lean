import ProgramIndex.Numeral.Bounded
import ProgramIndex.Text.Blank
import ProgramIndex.Text.Delimited

/-!
Lists of signed integers written with commas between them. Blanks around an
integer are permitted when reading and never written.
-/

namespace ProgramIndex.Numeral

/-- The first piece of a list that is no integer, as it stands in the text. -/
structure SequenceFault where
  piece : String
  cause : Fault
  deriving DecidableEq, Repr

def readPiece (piece : List Char) : Except SequenceFault Int64 :=
  match readInt64 (Text.trim piece) with
  | .ok value => .ok value
  | .error cause => .error ⟨String.ofList piece, cause⟩

/-- Read a list of integers; the empty text is the empty list. -/
def readSequence : List Char → Except SequenceFault (List Int64)
  | [] => .ok []
  | text => (Text.split ',' text).mapM readPiece

def sequenceDigits (values : List Int64) : List Char :=
  Text.join ',' (values.map int64Digits)

end ProgramIndex.Numeral
