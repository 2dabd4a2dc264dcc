import ProgramIndex.View.Layout

/-!
The text of a view: its layout with the views it mentions put in. The views may
be nested as deep as the dictionary has records; records that refer to each
other in a circle have no text.
-/

namespace ProgramIndex

/-- The text of a piece, where `show?` gives the text of the items in it. -/
def Piece.render (show? : Item → Option String) : Piece → Option String
  | .text s => some s
  | .item i => show? i
  | .fault f => some f.message
  | .unseen _ => some ""

/-- The text of an item with views nested at most `depth` deep. -/
def Item.render (d : Dictionary) : Nat → Item → Option String
  | 0, _ => none
  | depth + 1, item =>
      ((item.layout d).mapM (Piece.render (Item.render d depth))).map String.join

def Dictionary.text? (d : Dictionary) (item : Item) : Option String :=
  item.render d d.size

def Dictionary.targetText? {family : Family} (d : Dictionary) :
    Target family → Option String
  | .itself _ => some "self"
  | .other view => d.text? (.view family view)

end ProgramIndex
