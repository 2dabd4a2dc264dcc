import ProgramIndex.View.Typ

/-!
How the views of a dictionary are laid out: as pieces of text with the texts of
other views among them. A layout shows one view; the views it mentions are not
laid out with it.
-/

namespace ProgramIndex

/-- What a dictionary can show. -/
inductive Item where
  | view (family : Family) (view : View family)
  | attribute (a : Attribute)
  | attributes (list : Attributes)
  | funArg (arg : FunArg)
  | funArgs (list : FunArgs)

/-- A piece of a layout. A fault that came up is shown by its message where it
came up, except that `unseen` ones leave no trace in the text. -/
inductive Piece where
  | text (s : String)
  | item (i : Item)
  | fault (f : Fault)
  | unseen (f : Fault)

namespace Piece

/-- The pieces of a result, or its fault between angle brackets. -/
def shown {α : Type} (result : Except Fault α) (pieces : α → List Piece) : List Piece :=
  match result with
  | .ok value => pieces value
  | .error f => [.text "<", .fault f, .text ">"]

def int64 (i : Int64) : List Piece :=
  [.text (Numeral.ofInt64 i)]

def ofView {family : Family} (view : View family) : List Piece :=
  [.item (.view family view)]

/-- What a reference leads to. A reference to the referring view itself is not
followed further. -/
def ofTarget {family : Family} : Target family → List Piece
  | .itself _ => [.text "self"]
  | .other view => ofView view

/-- Layouts one after the other with a text between them. -/
def separated (between : String) (layouts : List (List Piece)) : List Piece :=
  [Piece.text between].intercalate layouts

/-- A layout inside round brackets with a text before them. -/
def call (head : String) (inside : List Piece) : List Piece :=
  .text (head ++ "(") :: inside ++ [.text ")"]

end Piece

open Piece

namespace AttrParam

def layout (d : Dictionary) (p : AttrParam) : List Piece :=
  let tag := p.record.tag
  match p.shape with
  | .int => call "aint" (shown (intValue p) int64)
  | .str => call "astr" [.text (text p)]
  | .cons =>
      call "acons" (.text (text p ++ ",") ::
        shown (operands d p) fun targets => separated "," (targets.map ofTarget))
  | .typeOp => call tag (shown (typ d p) ofView)
  | .unary =>
      let operand := shown (operand d p) ofTarget
      if tag = "aunop" then call tag (.text (text p ++ ",") :: operand)
      else if tag = "adot" then call tag (operand ++ [.text ("." ++ text p)])
      else call tag operand
  | .star =>
      if isSelfReferential p then call "astar" []
      else call "astar" (shown (operand d p) ofTarget)
  | .nary =>
      call tag (shown (operands d p) fun targets =>
        match tag, targets.map ofTarget with
        | "abinop", [a, b] => a ++ .text (" " ++ text p ++ " ") :: b
        | "aindex", [a, b] => a ++ .text "[" :: b ++ [.text "]"]
        | "aquestion", [a, b, c] => a ++ .text " ? " :: b ++ .text " : " :: c
        | _, operands => separated "," operands)
  | .custom _ => call "custom" [.text tag]

end AttrParam

def Attribute.layout (d : Dictionary) (a : Attribute) : List Piece :=
  .text (a.name ++ ": ") :: shown (a.params d) fun params => separated " " (params.map ofView)

def Attributes.layout (d : Dictionary) (list : Attributes) : List Piece :=
  match list.toList d with
  | .ok attributes => separated "," (attributes.map fun a => [.item (.attribute a)])
  | .error f => [.text "<", .fault f, .text (" in " ++ Kind.attributes.tableName ++ ">")]

namespace Constant

/-- The longest text that is shown in full, in characters. -/
def maxShownText : Nat := 25

def layout (d : Dictionary) (c : Constant) : List Piece :=
  match c.shape with
  | .int => [.text c.text]
  | .str =>
      if maxShownText < c.text.length then
        [.text (Numeral.ofNat c.text.length ++ "-char string")]
      else call "str" [.text c.text]
  | .chr => call "chr" (shown c.charCode int64)
  | .real => [.text c.text]
  | .enum => call (c.text ++ ":" ++ c.kind) (shown (c.exp d) ofView)
  | .custom _ => call "custom" [.text c.record.tag]

end Constant

namespace Exp

def trimEndOf (last : Char) (text : String) : String :=
  String.ofList (text.toList.reverse.dropWhile (· = last)).reverse

/-- The layout of the part of an expression at an argument. -/
def partLayout (d : Dictionary) (e : Exp) (position : Nat) : List Piece :=
  shown (d.follow e position) ofTarget

def layout (d : Dictionary) (e : Exp) : List Piece :=
  let part := e.partLayout d
  match e.shape with
  | .const => shown (e.constant d) ofView
  | .typeOp => call e.record.tag (shown (e.typ d) ofView)
  | .expOp => call (trimEndOf 'e' e.record.tag) (part 0)
  | .sizeofStr => [.text ("sizeof(\"" ++ e.text ++ "\")")]
  | .unop => call "" (.text (e.text ++ " ") :: part 0)
  | .binop => call "" (part 0 ++ .text (" " ++ e.text ++ " ") :: part 1)
  | .question => call "" (part 0 ++ .text " ? " :: part 1 ++ .text " : " :: part 2)
  | .cast => call "caste" (shown (e.typ d) ofView ++ .text "," :: part 1)
  | .custom _ => call "custom" [.text e.record.tag]

end Exp

namespace Typ

/-- A type's layout with its attributes behind it, if there are any. A list of
attributes that cannot be read is left out. -/
def withAttributes (d : Dictionary) (t : Typ) (layout : List Piece) : List Piece :=
  match t.attributes d with
  | .ok attributes =>
      if attributes.isEmpty then layout
      else layout ++ [.text " [", .item (.attributes attributes), .text "]"]
  | .error f => layout ++ [.unseen f]

def bareLayout (d : Dictionary) (t : Typ) : List Piece :=
  let inner := shown (t.inner d) ofTarget
  match t.shape with
  | .basic =>
      if t.isVoid then [.text "void"]
      else if t.isBuiltinVaargs then [.text "__builtin_va_list"]
      else if t.isEnum then [.text ("enum " ++ t.name)]
      else [.text t.name]
  | .ptr => call "" (inner ++ [.text " *"])
  | .array =>
      let size := shown (t.arraySize d) fun
        | some e => ofView e
        | none => [.text "?"]
      inner ++ .text "[" :: size ++ [.text "]"]
  | .func =>
      let args := shown (t.funArgs d) fun
        | some list => [.item (.funArgs list)]
        | none => []
      call "" inner ++ call "" (if t.isVararg then args ++ [.text ", ..."] else args)
  | .comp => .text "struct " :: shown t.ckey int64
  | .custom _ => call "custom" [.text t.record.tag]

/-- The layout of a type. Types without a meaning of their own are shown
without attributes. -/
def layout (d : Dictionary) (t : Typ) : List Piece :=
  match t.shape with
  | .custom _ => t.bareLayout d
  | _ => t.withAttributes d (t.bareLayout d)

end Typ

def FunArg.layout (d : Dictionary) (arg : FunArg) : List Piece :=
  shown (arg.typ d) ofView ++ [.text (" " ++ arg.name)]

def FunArgs.layout (d : Dictionary) (list : FunArgs) : List Piece :=
  shown (list.toList d) fun args => separated ", " (args.map fun arg => [.item (.funArg arg)])

def Item.layout (d : Dictionary) : Item → List Piece
  | .view .attrParam p => AttrParam.layout d p
  | .view .constant c => Constant.layout d c
  | .view .exp e => Exp.layout d e
  | .view .typ t => Typ.layout d t
  | .attribute a => a.layout d
  | .attributes list => list.layout d
  | .funArg arg => arg.layout d
  | .funArgs list => list.layout d

end ProgramIndex
