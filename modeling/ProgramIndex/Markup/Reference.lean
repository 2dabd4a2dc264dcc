import ProgramIndex.Markup.Fault

/-!
Attribute values with the characters that markup reserves written as named
references, and the reading of such values.
-/

namespace ProgramIndex.Markup

/-- The number of bytes of a text in UTF-8. -/
def byteLength (text : List Char) : Nat :=
  text.foldr (fun c length => c.utf8Size + length) 0

/-- One character of an attribute value. The five reserved characters become
references, all others stand for themselves, line breaks included. -/
def escapeChar (c : Char) : List Char :=
  if c = '<' then "&lt;".toList
  else if c = '>' then "&gt;".toList
  else if c = '&' then "&amp;".toList
  else if c = '\'' then "&apos;".toList
  else if c = '"' then "&quot;".toList
  else [c]

/-- An attribute value as it is written between quotes. -/
def escape (value : List Char) : List Char :=
  value.flatMap escapeChar

/-- The character with the given code point, if it may occur in a document. -/
def characterOf (code : Nat) : Except ReferenceFault Char :=
  if code = 0 then .error .zero
  else if code.isValidChar then .ok (Char.ofNat code)
  else .error (.noCharacter code)

/-- The largest number that a character reference may have, a 32-bit word. -/
def maxCode : Nat := 0xFFFFFFFF

/-- Read the number of a character reference, which has no sign and fits into
32 bits. -/
def readCode (base : Nat) (digits : List Char) : Except ReferenceFault Nat :=
  match digits with
  | '+' :: _ => .error .signed
  | '-' :: _ => .error .signed
  | digits =>
      match Numeral.readNat base maxCode digits with
      | .ok code => .ok code
      | .error cause => .error (.number cause)

/-- The character that a reference stands for. `start` is the offset of the
name after the ampersand. -/
def resolve (start : Nat) (name : List Char) : Except ReferenceFault Char :=
  match name with
  | '#' :: 'x' :: digits => readCode 16 digits >>= characterOf
  | '#' :: digits => readCode 10 digits >>= characterOf
  | name =>
      if name = "lt".toList then .ok '<'
      else if name = "gt".toList then .ok '>'
      else if name = "amp".toList then .ok '&'
      else if name = "apos".toList then .ok '\''
      else if name = "quot".toList then .ok '"'
      else .error (.unknown start (start + byteLength name) (String.ofList name))

/-- Read an attribute value from the offset `position` on, where `length` is
the length of the whole value. Inside a reference `name?` holds the offset of
its ampersand and its name so far, last character first. -/
def unescapeFrom (length position : Nat) (name? : Option (Nat × List Char)) :
    List Char → Except ReferenceFault (List Char)
  | [] =>
      match name? with
      | none => .ok []
      | some (start, _) => .error (.unclosed start length)
  | c :: rest =>
      let next := position + c.utf8Size
      match name? with
      | none =>
          if c = '&' then unescapeFrom length next (some (position, [])) rest
          else (unescapeFrom length next none rest).map (c :: ·)
      | some (start, name) =>
          if c = '&' then .error (.unclosed start length)
          else if c = ';' then
            match resolve (start + 1) name.reverse with
            | .error cause => .error cause
            | .ok character => (unescapeFrom length next none rest).map (character :: ·)
          else unescapeFrom length next (some (start, c :: name)) rest

/-- Read an attribute value. The first faulty reference decides. -/
def unescape (value : List Char) : Except ReferenceFault (List Char) :=
  unescapeFrom (byteLength value) 0 none value

end ProgramIndex.Markup
