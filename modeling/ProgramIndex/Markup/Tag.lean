import ProgramIndex.Markup.Reference

/-!
The content of a start tag: a name, then attributes with quoted values.
-/

namespace ProgramIndex.Markup

/-- The blanks that separate the parts of markup. Other white space can be part
of a name. -/
def isSpace (c : Char) : Bool :=
  c = ' ' || c = '\t' || c = '\n' || c = '\r'

/-- The name and the attributes of an element, as its start tag gives them. -/
structure Tag where
  name : String
  attributes : List (String × String)
  deriving DecidableEq, Repr

/-- A text to be read together with its offset in the content of its tag. -/
structure Cursor where
  position : Nat
  text : List Char

namespace Cursor

/-- Go on behind the given characters, which the text starts with. -/
def skip (cursor : Cursor) (read : List Char) : Cursor :=
  ⟨cursor.position + byteLength read, cursor.text.drop read.length⟩

/-- The characters up to the first one that fails the test, and the rest. -/
def span (test : Char → Bool) (cursor : Cursor) : List Char × Cursor :=
  let read := cursor.text.takeWhile test
  (read, cursor.skip read)

def skipSpace (cursor : Cursor) : Cursor :=
  (cursor.span isSpace).2

end Cursor

theorem Cursor.length_skip_le (cursor : Cursor) (read : List Char) :
    (cursor.skip read).text.length ≤ cursor.text.length := by
  simp [Cursor.skip]

theorem Cursor.length_span_le (test : Char → Bool) (cursor : Cursor) :
    (cursor.span test).2.text.length ≤ cursor.text.length :=
  cursor.length_skip_le _

theorem Cursor.length_skipSpace_le (cursor : Cursor) :
    cursor.skipSpace.text.length ≤ cursor.text.length :=
  cursor.length_span_le isSpace

/-- Read a value in quotes. References in the value are resolved. -/
def readQuoted (cursor : Cursor) : Except Fault (List Char × Cursor) :=
  match cursor.text with
  | [] => .error (.attribute (.noValue cursor.position))
  | quote :: _ =>
      if quote = '"' ∨ quote = '\'' then
        let (written, atEnd) := (cursor.skip [quote]).span (· ≠ quote)
        if atEnd.text = [] then .error (.attribute (.unclosedQuote atEnd.position quote))
        else
          match unescape written with
          | .error cause => .error (.reference cause)
          | .ok value => .ok (value, atEnd.skip [quote])
      else .error (.attribute (.unquoted cursor.position))

theorem length_of_readQuoted {cursor after : Cursor} {value : List Char}
    (hRead : readQuoted cursor = .ok (value, after)) :
    after.text.length ≤ cursor.text.length := by
  unfold readQuoted at hRead
  split at hRead
  · simp at hRead
  · rename_i quote _ _
    split at hRead
    · simp only at hRead
      split at hRead
      · simp at hRead
      · split at hRead
        · simp at hRead
        · simp only [Except.ok.injEq, Prod.mk.injEq] at hRead
          rw [← hRead.2]
          exact Nat.le_trans (Cursor.length_skip_le _ _)
            (Nat.le_trans (Cursor.length_span_le _ _) (Cursor.length_skip_le _ _))
    · simp at hRead

/-- Read what follows the key of an attribute: an equals sign and a value in
quotes. `keyPosition` and `earlier?` are the offsets of the key and of an
earlier attribute with the same key, which is only looked at once the equals
sign is there. -/
def readValue (keyPosition : Nat) (earlier? : Option Nat) (cursor : Cursor) :
    Except Fault (List Char × Cursor) :=
  let atEquals := cursor.skipSpace
  match atEquals.text, earlier? with
  | '=' :: _, some earlier => .error (.attribute (.duplicate keyPosition earlier))
  | '=' :: _, none => readQuoted (atEquals.skip ['=']).skipSpace
  | _, _ => .error (.attribute (.noEquals atEquals.position))

theorem length_of_readValue {keyPosition : Nat} {earlier? : Option Nat} {cursor after : Cursor}
    {value : List Char} (hRead : readValue keyPosition earlier? cursor = .ok (value, after)) :
    after.text.length ≤ cursor.text.length := by
  unfold readValue at hRead
  simp only at hRead
  split at hRead
  · simp at hRead
  · exact Nat.le_trans (length_of_readQuoted hRead)
      (Nat.le_trans (Cursor.length_skipSpace_le _)
        (Nat.le_trans (Cursor.length_skip_le _ _) (Cursor.length_skipSpace_le _)))
  · simp at hRead

set_option linter.unusedVariables false in
/-- Read attributes to the end of a tag's content. `seen` holds the keys read
so far with their offsets. The first character of a key may be any character,
an equals sign included. -/
def readAttributes (seen : List (String × Nat)) (cursor : Cursor) :
    Except Fault (List (String × String)) :=
  let atKey := cursor.skipSpace
  match hText : atKey.text with
  | [] => .ok []
  | first :: _ =>
      let more := (atKey.skip [first]).span fun c => c ≠ '=' && !isSpace c
      let key := String.ofList (first :: more.1)
      match hRead : readValue atKey.position (seen.lookup key) more.2 with
      | .error fault => .error fault
      | .ok (value, after) =>
          (readAttributes ((key, atKey.position) :: seen) after).map
            ((key, String.ofList value) :: ·)
termination_by cursor.text.length
decreasing_by
  have hAfter := length_of_readValue hRead
  have hSpan := (atKey.skip [first]).length_span_le fun c => c ≠ '=' && !isSpace c
  have hKey : (atKey.skip [first]).text.length < atKey.text.length := by
    simp [Cursor.skip, hText]
  have hSpace : atKey.text.length ≤ cursor.text.length := cursor.length_skipSpace_le
  exact Nat.lt_of_le_of_lt (Nat.le_trans hAfter hSpan) (Nat.lt_of_lt_of_le hKey hSpace)

/-- Read the content of a start tag. The name ends at the first space and may
be empty. -/
def Tag.read (content : List Char) : Except Fault Tag :=
  let (name, afterName) := (Cursor.mk 0 content).span fun c => !isSpace c
  (readAttributes [] afterName).map fun attributes => ⟨String.ofList name, attributes⟩

end ProgramIndex.Markup
