import ProgramIndex.Numeral.Bounded

/-!
What can be wrong with the markup of a document. Positions are counted in
bytes of the text's UTF-8 form.
-/

namespace ProgramIndex.Markup

/-- The constructs that have an end of their own. -/
inductive Construct where
  | tag
  | cdata
  | comment
  | doctype
  | instruction
  deriving DecidableEq, Repr

/-- What is wrong with the list of attributes of a tag. Positions are offsets
in the tag's content. -/
inductive AttributeFault where
  | noEquals (position : Nat)
  | duplicate (position earlier : Nat)
  | noValue (position : Nat)
  | unquoted (position : Nat)
  | unclosedQuote (position : Nat) (quote : Char)
  deriving DecidableEq, Repr

/-- What is wrong with a reference in an attribute value. Positions are offsets
in the value as it is written. -/
inductive ReferenceFault where
  | unclosed (start length : Nat)
  | unknown (start stop : Nat) (name : String)
  | signed
  | number (cause : Numeral.Fault)
  | zero
  | noCharacter (code : Nat)
  deriving DecidableEq, Repr

/-- What is wrong with a text read as markup. -/
inductive Fault where
  | unknownConstruct
  | unclosed (construct : Construct)
  | doctypeWithoutName
  | mismatchedEnd (expected found : String)
  | unmatchedEnd (found : String)
  | attribute (cause : AttributeFault)
  | reference (cause : ReferenceFault)
  deriving DecidableEq, Repr

def Construct.unclosedMessage : Construct → String
  | .tag => "tag not closed: `>` not found before end of input"
  | .cdata => "CDATA not closed: `]]>` not found before end of input"
  | .comment => "comment not closed: `-->` not found before end of input"
  | .doctype => "DOCTYPE not closed: `>` not found before end of input"
  | .instruction =>
      "processing instruction or xml declaration not closed: `?>` not found before end of input"

/-- The wording of a fault in a list of attributes. -/
def AttributeFault.message : AttributeFault → String
  | .noEquals position =>
      "position " ++ Numeral.ofNat position
        ++ ": attribute key must be directly followed by `=` or space"
  | .duplicate position earlier =>
      "position " ++ Numeral.ofNat position
        ++ ": duplicated attribute, previous declaration at position " ++ Numeral.ofNat earlier
  | .noValue position =>
      "position " ++ Numeral.ofNat position ++ ": `=` must be followed by an attribute value"
  | .unquoted position =>
      "position " ++ Numeral.ofNat position
        ++ ": attribute value must be enclosed in `\"` or `'`"
  | .unclosedQuote position quote =>
      "position " ++ Numeral.ofNat position ++ ": missing closing quote `"
        ++ String.singleton quote ++ "` in attribute value"

def ReferenceFault.message : ReferenceFault → String
  | .unclosed start length =>
      "Error while escaping character at range " ++ Numeral.ofNat start ++ ".."
        ++ Numeral.ofNat length ++ ": Cannot find ';' after '&'"
  | .unknown start stop name =>
      "at " ++ Numeral.ofNat start ++ ".." ++ Numeral.ofNat stop
        ++ ": unrecognized entity `" ++ name ++ "`"
  | .signed => "invalid character reference: unexpected number sign"
  | .number cause => "invalid character reference: " ++ cause.message
  | .zero => "invalid character reference: 0x0 character is not permitted in XML"
  | .noCharacter code =>
      "invalid character reference: `" ++ Numeral.ofNat code ++ "` is not a valid codepoint"

def Fault.message : Fault → String
  | .unknownConstruct => "syntax error: unknown or missed symbol in markup"
  | .unclosed construct => "syntax error: " ++ construct.unclosedMessage
  | .doctypeWithoutName =>
      "ill-formed document: `<!DOCTYPE>` declaration does not contain a name of a document type"
  | .mismatchedEnd expected found =>
      "ill-formed document: expected `</" ++ expected ++ ">`, but `</" ++ found ++ ">` was found"
  | .unmatchedEnd found =>
      "ill-formed document: close tag `</" ++ found ++ ">` does not match any open tag"
  | .attribute cause => "error while parsing attribute: " ++ cause.message
  | .reference cause => cause.message

end ProgramIndex.Markup
