/-!
Texts made of pieces with one separator character between them. Splitting never
loses a piece: the empty text is one empty piece.
-/

namespace ProgramIndex.Text

/-- The pieces of a text between the occurrences of a separator, in order. -/
def split (separator : Char) : List Char → List (List Char)
  | [] => [[]]
  | c :: rest =>
      if c = separator then [] :: split separator rest
      else
        match split separator rest with
        | [] => [[c]]
        | piece :: pieces => (c :: piece) :: pieces

/-- The pieces one after the other with the separator between them. -/
def join (separator : Char) : List (List Char) → List Char
  | [] => []
  | [piece] => piece
  | piece :: pieces => piece ++ separator :: join separator pieces

end ProgramIndex.Text
