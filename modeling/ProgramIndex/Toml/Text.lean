import ProgramIndex.Numeral.Bounded
import ProgramIndex.Toml.Reader

/-!
Blanks, comments, line ends and quoted texts in TOML.
-/

namespace ProgramIndex.Toml

open Reader

/-- The blanks within a line. -/
def isBlank (c : Char) : Bool :=
  c = ' ' || c = '\t'

/-- The characters that may stand in a comment: no controls but the tab. -/
def isCommentChar (c : Char) : Bool :=
  c = '\t' || (0x20 ≤ c.toNat && c.toNat ≠ 0x7F)

/-- The characters that stand for themselves in a text between double quotes. -/
def isBasicChar (c : Char) : Bool :=
  isCommentChar c && c ≠ '"' && c ≠ '\\'

/-- The characters that may stand in a text between single quotes. -/
def isLiteralChar (c : Char) : Bool :=
  isCommentChar c && c ≠ '\''

/-- The blanks within a line, if there are any. -/
def blanks : Reader (List Char) :=
  charsWhile isBlank

/-- The end of a line. A carriage return counts only before a line feed. -/
def lineBreak : Reader Char :=
  char '\n' <|> (do let _ ← char '\r'; char '\n')

/-- A comment, without the end of its line. -/
def comment : Reader Unit := do
  let _ ← char '#'
  let _ ← charsWhile isCommentChar

def lineEnd : Reader Unit :=
  (do let _ ← lineBreak) <|> atEnd

/-- What may follow a complete entry on its line. -/
def lineRest : Reader Unit := do
  let _ ← blanks
  let _ ← optional comment
  lineEnd

/-- A line break with the comment before it. -/
def commentedBreak : Reader Unit := do
  let _ ← optional comment
  let _ ← lineBreak

/-- Blanks, line breaks and comments. A comment ends with its line. -/
def space : Reader Unit := do
  let _ ← many ((do let _ ← many1 (charWhere isBlank)) <|> commentedBreak)

/-- A character given by its code point in a fixed number of digits. -/
def codePoint (digits : Nat) : Reader Char := do
  let written ← exactCount (fun c => (Numeral.digit? 16 c).isSome) digits
  let code := written.foldl (fun code c => 16 * code + (Numeral.digit? 16 c).getD 0) 0
  require (decide code.isValidChar)
  return Char.ofNat code

def escaped : Reader Char := do
  let _ ← char '\\'
  let c ← charWhere fun _ => true
  match c with
  | 'b' => return '\x08'
  | 't' => return '\t'
  | 'n' => return '\n'
  | 'f' => return '\x0c'
  | 'r' => return '\r'
  | '"' => return '"'
  | '\\' => return '\\'
  | 'u' => codePoint 4
  | 'U' => codePoint 8
  | _ => failure

def basicText : Reader (List Char) := do
  let _ ← char '"'
  let text ← many (charWhere isBasicChar <|> escaped)
  let _ ← char '"'
  return text

/-- A text on one line between single quotes, where nothing is escaped. -/
def literalText : Reader (List Char) := do
  let _ ← char '\''
  let text ← charsWhile isLiteralChar
  let _ ← char '\''
  return text

/-- A line break after a backslash, with all blanks and breaks behind it, which
are no part of the text. -/
def foldedBreak : Reader Unit := do
  let _ ← char '\\'
  let _ ← blanks
  let _ ← lineBreak
  let _ ← many (charWhere isBlank <|> lineBreak)

/-- One or two quotes inside a text of many lines, where three would end it. -/
def innerQuotes (quote : Char) (follow : Reader Unit) : Reader (List Char) :=
  (do let quotes ← exactly [quote, quote]; ahead follow; return quotes)
    <|> (do let quotes ← exactly [quote]; ahead follow; return quotes)

/-- A text of many lines between triple quotes. `piece` reads what stands for
itself or is escaped. A line break right after the opening quotes is dropped,
and up to two more quotes may stand right before the closing ones. -/
def longText (quote : Char) (piece : Reader (List Char)) : Reader (List Char) := do
  let fence := exactly [quote, quote, quote]
  let notQuote : Reader Unit := do let _ ← charWhere (· ≠ quote)
  let _ ← fence
  let _ ← optional lineBreak
  let start ← many piece
  let middle ← many do
    let quotes ← innerQuotes quote notQuote
    let pieces ← many1 piece
    return quotes ++ pieces.flatten
  let last ← optional (innerQuotes quote (do let _ ← fence))
  let _ ← fence
  return start.flatten ++ middle.flatten ++ last.getD []

def longBasicText : Reader (List Char) :=
  longText '"' <|
    (do let c ← charWhere isBasicChar; return [c])
      <|> (do foldedBreak; return [])
      <|> (do let c ← escaped; return [c])
      <|> (do let c ← lineBreak; return [c])

def longLiteralText : Reader (List Char) :=
  longText '\'' <|
    (do let c ← charWhere isLiteralChar; return [c])
      <|> (do let c ← lineBreak; return [c])

def text : Reader String := do
  let chars ← longBasicText <|> basicText <|> longLiteralText <|> literalText
  return String.ofList chars

def isBareChar (c : Char) : Bool :=
  c.isAlphanum || c = '-' || c = '_'

def simpleKey : Reader String := do
  let chars ← basicText <|> literalText <|> many1 (charWhere isBareChar)
  return String.ofList chars

/-- How deep the parts of a document may be nested. -/
def maxDepth : Nat := 80

/-- A key: parts with points between them, with blanks around each part. -/
def key : Reader (List String) := do
  let parts ← separated (char '.') do
    let _ ← blanks
    let part ← simpleKey
    let _ ← blanks
    return part
  require (parts.length < maxDepth)
  return parts

end ProgramIndex.Toml
