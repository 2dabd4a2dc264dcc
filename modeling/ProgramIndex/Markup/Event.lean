import ProgramIndex.Markup.Tag

/-!
A document as a sequence of events: tags in the order in which they stand in
the text. Text between the tags is passed over without being looked at.
-/

namespace ProgramIndex.Markup

/-- One piece of markup. `aside` is a comment, a section of character data, a
document type or a processing instruction; its content plays no part. -/
inductive Event where
  | start (tag : Tag)
  | empty (tag : Tag)
  | finish (name : String)
  | aside
  deriving DecidableEq, Repr

/-- Cut a text at the first `>` that closes what stands before it. The test
gets the characters since the start of the cut, last character first. -/
def cutWhere (closes : List Char → Bool) (seen : List Char) :
    List Char → Option (List Char × List Char)
  | [] => none
  | c :: rest =>
      if c = '>' && closes seen then some (seen.reverse, rest)
      else cutWhere closes (c :: seen) rest

/-- Cut a text at the first `>` outside nested pairs of `<` and `>`. -/
def cutNested (depth : Nat) (seen : List Char) : List Char → Option (List Char × List Char)
  | [] => none
  | '>' :: rest =>
      match depth with
      | 0 => some (seen.reverse, rest)
      | depth + 1 => cutNested depth ('>' :: seen) rest
  | c :: rest => cutNested (if c = '<' then depth + 1 else depth) (c :: seen) rest

/-- Cut a text at the first `>` outside quotes. Inside quotes `open?` is the
character that ends them. -/
def cutTag (open? : Option Char) (seen : List Char) : List Char → Option (List Char × List Char)
  | [] => none
  | c :: rest =>
      match open? with
      | some quote => cutTag (if c = quote then none else some quote) (c :: seen) rest
      | none =>
          if c = '>' then some (seen.reverse, rest)
          else cutTag (if c = '"' ∨ c = '\'' then some c else none) (c :: seen) rest

theorem length_of_cutWhere {closes : List Char → Bool} {seen text content rest : List Char}
    (hCut : cutWhere closes seen text = some (content, rest)) : rest.length < text.length := by
  induction text generalizing seen with
  | nil => simp [cutWhere] at hCut
  | cons c text ih =>
      unfold cutWhere at hCut
      split at hCut
      · simp only [Option.some.injEq, Prod.mk.injEq] at hCut
        simp [hCut.2]
      · exact Nat.lt_succ_of_lt (ih hCut)

theorem length_of_cutNested {depth : Nat} {seen text content rest : List Char}
    (hCut : cutNested depth seen text = some (content, rest)) : rest.length < text.length := by
  induction text generalizing seen depth with
  | nil => simp [cutNested] at hCut
  | cons c text ih =>
      unfold cutNested at hCut
      split at hCut
      · simp at hCut
      · rename_i next hText
        have hTail := (List.cons.inj hText).2
        split at hCut
        · simp only [Option.some.injEq, Prod.mk.injEq] at hCut
          simp [hTail, hCut.2]
        · rw [← hTail] at hCut
          exact Nat.lt_succ_of_lt (ih hCut)
      · rename_i hText
        rw [← (List.cons.inj hText).2] at hCut
        exact Nat.lt_succ_of_lt (ih hCut)

theorem length_of_cutTag {open? : Option Char} {seen text content rest : List Char}
    (hCut : cutTag open? seen text = some (content, rest)) : rest.length < text.length := by
  induction text generalizing seen open? with
  | nil => simp [cutTag] at hCut
  | cons c text ih =>
      unfold cutTag at hCut
      split at hCut
      · exact Nat.lt_succ_of_lt (ih hCut)
      · split at hCut
        · simp only [Option.some.injEq, Prod.mk.injEq] at hCut
          simp [hCut.2]
        · exact Nat.lt_succ_of_lt (ih hCut)

/-- Whether two texts agree up to the case of ASCII letters. -/
def equalIgnoringCase (a b : List Char) : Bool :=
  a.map Char.toLower = b.map Char.toLower

/-- Where a construct other than a tag ends, told by the two characters behind
its `<`. `none` means that no construct starts like this. -/
def constructOf : List Char → Option Construct
  | '?' :: _ => some .instruction
  | '!' :: '[' :: _ => some .cdata
  | '!' :: '-' :: _ => some .comment
  | '!' :: c :: _ => if c = 'D' ∨ c = 'd' then some .doctype else none
  | '!' :: [] => none
  | _ => some .tag

/-- Cut a text behind a `<` at the end of the given construct. A comment needs
its two hyphens at the end apart from those at its start. -/
def Construct.cut (construct : Construct) (text : List Char) : Option (List Char × List Char) :=
  match construct with
  | .tag => cutTag none [] text
  | .cdata => cutWhere (fun seen => seen.take 2 = [']', ']']) [] text
  | .comment => cutWhere (fun seen => seen.take 2 = ['-', '-'] && 4 < seen.length) [] text
  | .doctype => cutNested 0 [] text
  | .instruction => cutWhere (fun seen => seen.head? = some '?') [] text

theorem Construct.length_of_cut {construct : Construct} {text content rest : List Char}
    (hCut : construct.cut text = some (content, rest)) : rest.length < text.length := by
  cases construct
  · exact length_of_cutTag hCut
  · exact length_of_cutWhere hCut
  · exact length_of_cutWhere hCut
  · exact length_of_cutNested hCut
  · exact length_of_cutWhere hCut

/-- The event of a construct that is no tag, from its content. A start that is
not spelled out in full counts as a construct without an end. -/
def Construct.aside (construct : Construct) (content : List Char) : Except Fault Event :=
  let spelled :=
    match construct with
    | .tag => false
    | .cdata => content.take 8 = "![CDATA[".toList
    | .comment => content.take 3 = "!--".toList
    | .doctype => equalIgnoringCase (content.take 8) "!DOCTYPE".toList
    | .instruction => content ≠ ['?']
  if !spelled then .error (.unclosed construct)
  else if construct = .doctype && (content.drop 8).all isSpace then .error .doctypeWithoutName
  else .ok .aside

/-- The name in an end tag: spaces behind it are dropped, except from a name of
nothing but spaces. -/
def endName (content : List Char) : List Char :=
  match (content.reverse.dropWhile isSpace).reverse with
  | [] => content
  | name => name

/-- The event of a tag, from its content, and the names of the elements that
are open after it. `opened` holds the names open before it, innermost first. -/
def tagEvent (opened : List String) : List Char → Except Fault (Event × List String)
  | '/' :: content =>
      let name := String.ofList (endName content)
      match opened with
      | [] => .error (.unmatchedEnd name)
      | expected :: outer =>
          if name = expected then .ok (.finish name, outer)
          else .error (.mismatchedEnd expected name)
  | content =>
      if content.getLast? = some '/' then
        (Tag.read content.dropLast).map fun tag => (.empty tag, opened)
      else (Tag.read content).map fun tag => (.start tag, tag.name :: opened)

/-- Read the markup behind a `<`: its event, the names of the elements open
after it and the text behind it. -/
def readEvent (opened : List String) (text : List Char) :
    Except Fault (Event × List String × List Char) :=
  match constructOf text with
  | none => .error .unknownConstruct
  | some construct =>
      match construct.cut text with
      | none => .error (.unclosed construct)
      | some (content, rest) =>
          if construct = .tag then
            (tagEvent opened content).map fun (event, opened) => (event, opened, rest)
          else (construct.aside content).map fun event => (event, opened, rest)

theorem length_of_readEvent {opened opened' : List String} {text rest : List Char} {event : Event}
    (hRead : readEvent opened text = .ok (event, opened', rest)) : rest.length < text.length := by
  unfold readEvent at hRead
  split at hRead
  · simp at hRead
  · split at hRead
    · simp at hRead
    · rename_i construct _ _ content rest' hCut
      have hRest : rest' = rest := by
        split at hRead
        · cases hTag : tagEvent opened content <;> simp_all [Except.map]
        · cases hAside : construct.aside content <;> simp_all [Except.map]
      rw [← hRest]
      exact Construct.length_of_cut hCut

/-- The events of a text up to its end or to the first fault in it. -/
structure Scan where
  events : List Event
  fault? : Option Fault
  deriving DecidableEq, Repr

set_option linter.unusedVariables false in
/-- Scan a text inside the given open elements, innermost first. -/
def scanInside (opened : List String) (text : List Char) : Scan :=
  match hMarkup : text.dropWhile (· ≠ '<') with
  | [] => ⟨[], none⟩
  | _ :: markup =>
      match hRead : readEvent opened markup with
      | .error fault => ⟨[], some fault⟩
      | .ok (event, opened', rest) =>
          let later := scanInside opened' rest
          ⟨event :: later.events, later.fault?⟩
termination_by text.length
decreasing_by
  have hRest := length_of_readEvent hRead
  have hSuffix := (List.dropWhile_suffix (l := text) (· ≠ '<')).length_le
  rw [hMarkup] at hSuffix
  simp only [List.length_cons] at hSuffix
  omega

/-- Scan a document. One byte order mark in front of it is dropped. -/
def scan (text : String) : Scan :=
  match text.toList with
  | '\ufeff' :: rest => scanInside [] rest
  | text => scanInside [] text

end ProgramIndex.Markup
