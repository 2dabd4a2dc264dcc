import ProgramIndex.Proofs.Markup.Linearization
import ProgramIndex.Proofs.Markup.Tag

/-!
Documents are read as they are written. A tree is written as its tags, the tags
are found again one after the other, and the tree is built from them. Each of
these steps is stated for a part of the document, whatever stands around it.
-/

namespace ProgramIndex

open Markup

/-- A tree whose names can be read back and whose elements have no key twice.
Its attribute values may be any texts. -/
inductive Element.Legible : Element → Prop where
  | mk {name : String} {attributes : List (String × String)} {children : List Element}
      (hName : isName name.toList = true)
      (hKeys : ∀ entry ∈ attributes, isName entry.1.toList = true)
      (hDistinct : (attributes.map Prod.fst).Nodup)
      (hChildren : ∀ child ∈ children, child.Legible) : Legible ⟨name, attributes, children⟩

namespace Markup

/-- Outside quotes a tag goes on through plain characters. -/
theorem cutTag_plain {plain : List Char}
    (hPlain : ∀ c ∈ plain, c ≠ '>' ∧ c ≠ '"' ∧ c ≠ '\'') (seen rest : List Char) :
    cutTag none seen (plain ++ rest) = cutTag none (plain.reverse ++ seen) rest := by
  induction plain generalizing seen with
  | nil => rfl
  | cons c others ih =>
      obtain ⟨hEnd, hDouble, hSingle⟩ := hPlain c List.mem_cons_self
      rw [List.cons_append, cutTag]
      simp only [hEnd, hDouble, hSingle, if_false, or_self]
      rw [ih (fun d hMem => hPlain d (List.mem_cons_of_mem c hMem)), List.reverse_cons,
        List.append_assoc, List.singleton_append]

/-- A quoted value is part of the tag, also if it has the end of a tag in it. -/
theorem cutTag_quoted {quoted : List Char} (hQuoted : '"' ∉ quoted) (seen rest : List Char) :
    cutTag (some '"') seen (quoted ++ '"' :: rest) =
      cutTag none ('"' :: (quoted.reverse ++ seen)) rest := by
  induction quoted generalizing seen with
  | nil => rfl
  | cons c others ih =>
      rw [List.mem_cons, not_or] at hQuoted
      have hOpen : c ≠ '"' := fun hSame => hQuoted.1 hSame.symm
      rw [List.cons_append, cutTag]
      simp only [hOpen, if_false]
      rw [ih hQuoted.2, List.reverse_cons, List.append_assoc, List.singleton_append]

theorem not_cut_of_isName {name : List Char} (hName : isName name = true) :
    ∀ c ∈ name, c ≠ '>' ∧ c ≠ '"' ∧ c ≠ '\'' := by
  intro c hMem
  obtain ⟨-, -, -, -, -, hPlain⟩ := isName_iff.mp hName
  obtain ⟨-, -, hEnd, -, -, hDouble, hSingle⟩ := isPlain_iff.mp (hPlain c hMem)
  exact ⟨hEnd, hDouble, hSingle⟩

/-- A written attribute does not end the tag. -/
theorem cutTag_writeAttribute {entry : String × String} (hKey : isName entry.1.toList = true)
    (seen rest : List Char) :
    cutTag none seen (Element.writeAttribute entry ++ rest) =
      cutTag none ((Element.writeAttribute entry).reverse ++ seen) rest := by
  have hPlain : ∀ c ∈ ' ' :: entry.1.toList ++ ['='], c ≠ '>' ∧ c ≠ '"' ∧ c ≠ '\'' := by
    intro c hMem
    rcases List.mem_append.mp hMem with hMem | hMem
    · rcases List.mem_cons.mp hMem with rfl | hMem
      · decide
      · exact not_cut_of_isName hKey c hMem
    · rw [List.mem_singleton.mp hMem]
      decide
  have hText : Element.writeAttribute entry ++ rest =
      (' ' :: entry.1.toList ++ ['=']) ++ '"' :: (escape entry.2.toList ++ '"' :: rest) := by
    simp [Element.writeAttribute]
  have hOpen : ∀ before after : List Char,
      cutTag none before ('"' :: after) = cutTag (some '"') ('"' :: before) after := by
    intro before after
    rw [cutTag]
    simp
  rw [hText, cutTag_plain hPlain, hOpen, cutTag_quoted (quote_not_mem_escape _)]
  simp [Element.writeAttribute]

/-- A written tag has no end of a tag in it. -/
theorem cutTag_writeTag {name : String} {attributes : List (String × String)}
    (hName : isName name.toList = true)
    (hKeys : ∀ entry ∈ attributes, isName entry.1.toList = true) (rest : List Char) :
    cutTag none [] (Element.writeTag name attributes ++ rest) =
      cutTag none (Element.writeTag name attributes).reverse rest := by
  have hAttributes : ∀ seen, cutTag none seen (attributes.flatMap Element.writeAttribute ++ rest) =
      cutTag none ((attributes.flatMap Element.writeAttribute).reverse ++ seen) rest := by
    induction attributes with
    | nil =>
        intro seen
        rfl
    | cons entry others ih =>
        intro seen
        rw [List.flatMap_cons, List.append_assoc,
          cutTag_writeAttribute (hKeys entry List.mem_cons_self),
          ih (fun other hOther => hKeys other (List.mem_cons_of_mem entry hOther)),
          List.reverse_append, List.append_assoc]
  rw [Element.writeTag, List.append_assoc, cutTag_plain (not_cut_of_isName hName), hAttributes,
    List.append_nil, List.reverse_append]

/-- Markup that starts with a name is a tag. -/
theorem constructOf_of_isName {name : List Char} (hName : isName name = true)
    (rest : List Char) : constructOf (name ++ rest) = some .tag := by
  obtain ⟨first, others, rfl, hBang, hQuestion, -⟩ := isName_iff.mp hName
  rw [List.cons_append]
  unfold constructOf
  split <;> simp_all

theorem slash_writeTag {name : String} (hName : isName name.toList = true)
    (attributes : List (String × String)) :
    (∀ rest, (Element.writeTag name attributes ++ rest).head? ≠ some '/') ∧
      (Element.writeTag name attributes).getLast? ≠ some '/' := by
  obtain ⟨first, others, hCons, -, -, hPlain⟩ := isName_iff.mp hName
  have hNoSlash : ∀ c ∈ name.toList, c ≠ '/' := fun c hMem =>
    (isPlain_iff.mp (hPlain c hMem)).2.2.2.1
  have hLast : ∀ before : List Char, before.getLast? ≠ some '/' →
      (before ++ attributes.flatMap Element.writeAttribute).getLast? ≠ some '/' := by
    induction attributes with
    | nil =>
        intro before hBefore
        rwa [List.flatMap_nil, List.append_nil]
    | cons entry rest ih =>
        intro before hBefore
        rw [List.flatMap_cons, ← List.append_assoc]
        apply ih
        rw [Element.writeAttribute, ← List.append_assoc, List.getLast?_concat]
        decide
  constructor
  · intro rest
    rw [Element.writeTag, hCons]
    intro hHead
    exact hNoSlash first (by rw [hCons]; exact List.mem_cons_self) (Option.some.inj hHead)
  · apply hLast
    intro hSlash
    exact hNoSlash '/' (List.mem_of_getLast? hSlash) rfl

theorem tagEvent_of_head {content : List Char} (hHead : content.head? ≠ some '/')
    (opened : List String) :
    tagEvent opened content =
      if content.getLast? = some '/' then
        (Tag.read content.dropLast).map fun tag => (.empty tag, opened)
      else (Tag.read content).map fun tag => (.start tag, tag.name :: opened) := by
  unfold tagEvent
  split
  · simp at hHead
  · rfl

/-- A written tag is read as the start of its element. -/
theorem readEvent_start {name : String} {attributes : List (String × String)}
    (hName : isName name.toList = true)
    (hKeys : ∀ entry ∈ attributes, isName entry.1.toList = true)
    (hDistinct : (attributes.map Prod.fst).Nodup) (opened : List String) (rest : List Char) :
    readEvent opened (Element.writeTag name attributes ++ '>' :: rest) =
      .ok (.start ⟨name, attributes⟩, name :: opened, rest) := by
  obtain ⟨hHead, hLast⟩ := slash_writeTag hName attributes
  have hConstruct : constructOf (Element.writeTag name attributes ++ '>' :: rest) = some .tag := by
    rw [Element.writeTag, List.append_assoc]
    exact constructOf_of_isName hName _
  have hCut : Construct.tag.cut (Element.writeTag name attributes ++ '>' :: rest) =
      some (Element.writeTag name attributes, rest) := by
    rw [Construct.cut, cutTag_writeTag hName hKeys]
    simp [cutTag]
  simp only [readEvent, hConstruct, hCut, if_true]
  have hStart := hHead []
  rw [List.append_nil] at hStart
  rw [tagEvent_of_head hStart, if_neg hLast, read_writeTag hName hKeys hDistinct]
  rfl

/-- A written tag that is closed at once is read as an element without children. -/
theorem readEvent_empty {name : String} {attributes : List (String × String)}
    (hName : isName name.toList = true)
    (hKeys : ∀ entry ∈ attributes, isName entry.1.toList = true)
    (hDistinct : (attributes.map Prod.fst).Nodup) (opened : List String) (rest : List Char) :
    readEvent opened (Element.writeTag name attributes ++ '/' :: '>' :: rest) =
      .ok (.empty ⟨name, attributes⟩, opened, rest) := by
  obtain ⟨hHead, -⟩ := slash_writeTag hName attributes
  have hConstruct :
      constructOf (Element.writeTag name attributes ++ '/' :: '>' :: rest) = some .tag := by
    rw [Element.writeTag, List.append_assoc]
    exact constructOf_of_isName hName _
  have hCut : Construct.tag.cut (Element.writeTag name attributes ++ '/' :: '>' :: rest) =
      some (Element.writeTag name attributes ++ ['/'], rest) := by
    rw [Construct.cut, cutTag_writeTag hName hKeys]
    simp [cutTag]
  simp only [readEvent, hConstruct, hCut, if_true]
  rw [tagEvent_of_head (hHead ['/']), if_pos List.getLast?_concat, List.dropLast_concat,
    read_writeTag hName hKeys hDistinct]
  rfl

theorem endName_of_isName {name : List Char} (hName : isName name = true) :
    endName name = name := by
  obtain ⟨first, others, hCons, -, -, hPlain⟩ := isName_iff.mp hName
  have hKeep : name.reverse.dropWhile isSpace = name.reverse := by
    cases hReverse : name.reverse with
    | nil => rfl
    | cons last earlier =>
        have hMem : last ∈ name := by
          rw [← List.mem_reverse, hReverse]
          exact List.mem_cons_self
        have hSpace := (isPlain_iff.mp (hPlain last hMem)).1
        rw [List.dropWhile_cons_of_neg (by simp [hSpace])]
  rw [endName, hKeep, List.reverse_reverse]
  rw [hCons]

/-- An end tag is read as it is written and closes the innermost element. -/
theorem readEvent_finish {name : String} (hName : isName name.toList = true)
    (opened : List String) (rest : List Char) :
    readEvent (name :: opened) ('/' :: name.toList ++ '>' :: rest) =
      .ok (.finish name, opened, rest) := by
  have hPlain : ∀ c ∈ '/' :: name.toList, c ≠ '>' ∧ c ≠ '"' ∧ c ≠ '\'' := by
    intro c hMem
    rcases List.mem_cons.mp hMem with rfl | hMem
    · decide
    · exact not_cut_of_isName hName c hMem
  have hConstruct : constructOf ('/' :: name.toList ++ '>' :: rest) = some .tag := rfl
  have hCut : Construct.tag.cut ('/' :: name.toList ++ '>' :: rest) =
      some ('/' :: name.toList, rest) := by
    rw [Construct.cut, cutTag_plain hPlain]
    simp [cutTag]
  simp only [readEvent, hConstruct, hCut, if_true]
  simp only [tagEvent, endName_of_isName hName, String.ofList_toList, if_true]
  rfl

/-- Events found in front of those of a later part of the text. -/
def Scan.after (events : List Event) (later : Scan) : Scan :=
  ⟨events ++ later.events, later.fault?⟩

theorem Scan.after_after (first second : List Event) (later : Scan) :
    (later.after second).after first = later.after (first ++ second) := by
  simp only [Scan.after, List.append_assoc]

/-- One event is found, and then those behind it. -/
theorem scanInside_of_readEvent {opened opened' : List String} {text markup rest : List Char}
    {event : Event} (hText : text.dropWhile (· ≠ '<') = '<' :: markup)
    (hRead : readEvent opened markup = .ok (event, opened', rest)) :
    scanInside opened text = (scanInside opened' rest).after [event] := by
  rw [scanInside]
  split
  · rename_i hNil
    rw [hText] at hNil
    cases hNil
  · rename_i first markup' hCons
    obtain ⟨-, rfl⟩ := List.cons.inj (hText.symm.trans hCons)
    split
    · rename_i fault hFault
      rw [hRead] at hFault
      cases hFault
    · rename_i event' opened'' rest' hOk
      obtain ⟨rfl, hPair⟩ := Prod.mk.inj (Except.ok.inj (hRead.symm.trans hOk))
      obtain ⟨rfl, rfl⟩ := Prod.mk.inj hPair
      rfl

/-- Between two tags there is nothing but blanks. -/
theorem dropWhile_indent (depth : Nat) (markup : List Char) :
    ('\n' :: Element.indent depth ++ '<' :: markup).dropWhile (· ≠ '<') = '<' :: markup := by
  have hBlank : ∀ c ∈ '\n' :: Element.indent depth, decide (c ≠ '<') = true := by
    intro c hMem
    rcases List.mem_cons.mp hMem with rfl | hMem
    · decide
    · rw [List.eq_of_mem_replicate hMem]
      decide
  rw [List.dropWhile_append_of_pos hBlank]
  rfl

end Markup

namespace Element

/-- The events that a tree stands for. -/
def events : Element → List Event
  | ⟨name, attributes, children⟩ =>
      if children.isEmpty then [.empty ⟨name, attributes⟩]
      else .start ⟨name, attributes⟩ :: (children.flatMap fun child => child.events)
        ++ [.finish name]

theorem write_leaf (depth : Nat) (name : String) (attributes : List (String × String))
    (rest : List Char) :
    write depth ⟨name, attributes, []⟩ ++ rest =
      '\n' :: indent depth ++ '<' :: (writeTag name attributes ++ '/' :: '>' :: rest) := by
  rw [write, lines]
  simp

/-- An element with children is written as a start, the children one level deeper, and an
end. -/
theorem write_node (depth : Nat) (name : String) (attributes : List (String × String))
    {children : List Element} (hSome : children ≠ []) (rest : List Char) :
    write depth ⟨name, attributes, children⟩ ++ rest =
      '\n' :: indent depth ++ '<' :: (writeTag name attributes ++ '>' ::
        (children.flatMap (write (depth + 1)) ++
          ('\n' :: indent depth ++ '<' :: ('/' :: name.toList ++ '>' :: rest)))) := by
  have hChildren : (children.flatMap fun child => child.lines (depth + 1)).flatMap ('\n' :: ·) =
      children.flatMap (write (depth + 1)) :=
    List.flatMap_assoc
  rw [write, lines]
  simp [hSome, ← hChildren]

theorem events_leaf (name : String) (attributes : List (String × String)) :
    events ⟨name, attributes, []⟩ = [.empty ⟨name, attributes⟩] := by
  rw [events]
  rfl

/-- The events of an element with children are its start, those of the children, and its
end. -/
theorem events_node (name : String) (attributes : List (String × String))
    {children : List Element} (hSome : children ≠ []) :
    events ⟨name, attributes, children⟩ =
      .start ⟨name, attributes⟩ :: (children.flatMap events ++ [.finish name]) := by
  rw [events]
  simp [hSome]

/-- The events of a tree are found in its text, wherever it stands. -/
theorem Legible.scanInside_write {e : Element} (hLegible : e.Legible) (depth : Nat)
    (opened : List String) (rest : List Char) :
    scanInside opened (e.write depth ++ rest) = (scanInside opened rest).after e.events := by
  induction hLegible generalizing depth opened rest with
  | @mk name attributes children hName hKeys hDistinct hChildren ih =>
      by_cases hSome : children = []
      · subst hSome
        have hEvent := readEvent_empty hName hKeys hDistinct opened rest
        rw [write_leaf, scanInside_of_readEvent (dropWhile_indent depth _) hEvent, events_leaf]
      · -- The children stand between the two tags, inside one more open element.
        have hBetween : ∀ (inside : List Element), (∀ child ∈ inside, child ∈ children) →
            ∀ after, scanInside (name :: opened) (inside.flatMap (write (depth + 1)) ++ after) =
              (scanInside (name :: opened) after).after (inside.flatMap events) := by
          intro inside hInside after
          induction inside with
          | nil => rfl
          | cons child others ihInside =>
              rw [List.flatMap_cons, List.append_assoc, ih child (hInside child List.mem_cons_self),
                ihInside fun other hOther => hInside other (List.mem_cons_of_mem child hOther),
                Scan.after_after, List.flatMap_cons]
        have hStart := readEvent_start hName hKeys hDistinct opened
          (children.flatMap (write (depth + 1)) ++
            ('\n' :: indent depth ++ '<' :: ('/' :: name.toList ++ '>' :: rest)))
        have hFinish := readEvent_finish hName opened rest
        rw [write_node depth name attributes hSome,
          scanInside_of_readEvent (dropWhile_indent depth _) hStart,
          hBetween children fun _ hChild => hChild,
          scanInside_of_readEvent (dropWhile_indent depth _) hFinish, Scan.after_after,
          Scan.after_after, events_node name attributes hSome]
        rfl

end Element

namespace Element

/-- Trees whose events linearize each of them linearize together. -/
theorem linearizes_flatMap {trees : List Element}
    (hEach : ∀ e ∈ trees, Linearizes e.events [e]) : Linearizes (trees.flatMap events) trees := by
  induction trees with
  | nil => exact .nil
  | cons e trees ih =>
      rw [List.flatMap_cons]
      exact (hEach e List.mem_cons_self).append (ih fun other hOther =>
        hEach other (List.mem_cons_of_mem e hOther))

/-- The events of a written element stand for this element. -/
theorem linearizes_events (e : Element) : Linearizes e.events [e] := by
  induction e using Element.induct with
  | step name attributes children ih =>
      by_cases hSome : children = []
      · subst hSome
        rw [events_leaf]
        exact .empty ⟨name, attributes⟩ .nil
      · rw [events_node name attributes hSome]
        exact .node ⟨name, attributes⟩ (linearizes_flatMap ih) .nil

/-- The events of a tree build the tree, in the place where they begin. -/
theorem foldlM_events (e : Element) (build : Build) :
    e.events.foldlM Build.step build = build.attach e :=
  (e.linearizes_events.foldlM build).trans (bind_pure _)

end Element

/-- The first line of a document is found, and its content plays no part. -/
theorem Element.scanInside_declaration (rest : List Char) :
    scanInside [] (declaration.toList ++ rest) = (scanInside [] rest).after [.aside] := by
  have hText : (declaration.toList ++ rest).dropWhile (· ≠ '<') =
      '<' :: (declaration.toList.tail ++ rest) := by
    rfl
  have hRead : readEvent [] (declaration.toList.tail ++ rest) = .ok (.aside, [], rest) := by
    rfl
  exact scanInside_of_readEvent hText hRead

/-- A document is read as it is written. -/
theorem Element.Legible.parse_document {e : Element} (hLegible : e.Legible) :
    Element.parse e.document = .ok e := by
  have hScan : Markup.scan e.document = ⟨.aside :: e.events, none⟩ := by
    have hText : e.document.toList = declaration.toList ++ (e.write 0 ++ []) := by
      rw [document, String.toList_ofList, List.append_nil]
    have hEnd : scanInside [] [] = ⟨[], none⟩ := by
      rw [scanInside]
      rfl
    have hMark : Markup.scan e.document = scanInside [] e.document.toList := by
      rw [Markup.scan, hText]
      rfl
    rw [hMark, hText, scanInside_declaration, hLegible.scanInside_write, hEnd]
    simp only [Scan.after, List.append_nil, List.singleton_append]
  have hBuild : (.aside :: e.events).foldlM Build.step Build.empty = .ok ⟨[], some e⟩ := by
    rw [List.foldlM_cons]
    exact e.foldlM_events Build.empty
  simp only [Element.parse, hScan, Element.ofEvents, hBuild]
  rfl

/-- What makes a tree legible can be seen at each of its elements by itself. -/
theorem Element.legible_of_preorder {e : Element} {depth : Nat}
    (hNodes : ∀ node ∈ e.preorder depth, isName node.2.1.toList = true ∧
      (∀ entry ∈ node.2.2, isName entry.1.toList = true) ∧
      (node.2.2.map Prod.fst).Nodup) : e.Legible := by
  induction e using Element.induct generalizing depth with
  | step name attributes children ih =>
      rw [preorder] at hNodes
      obtain ⟨hName, hKeys, hDistinct⟩ := hNodes _ List.mem_cons_self
      refine .mk hName hKeys hDistinct ?_
      intro child hChild
      refine @ih child hChild (depth + 1) ?_
      intro node hNode
      exact hNodes node (List.mem_cons_of_mem _ (List.mem_flatMap.mpr ⟨child, hChild, hNode⟩))

/-- A tree of any shape is read back from its document, with all attributes and all
children in order. Names and keys have to be proper names, and no element may have
a key twice. The values may be any texts. -/
theorem Element.parse_document_of_names {e : Element}
    (hNames : ∀ node ∈ e.preorder 0, isName node.2.1.toList = true ∧
      (∀ entry ∈ node.2.2, isName entry.1.toList = true) ∧
      (node.2.2.map Prod.fst).Nodup) : Element.parse e.document = .ok e :=
  (Element.legible_of_preorder hNames).parse_document

/-- Values that look like markup, and a childless element between elements with
children. -/
theorem Element.parse_document_of_hostile_values :
    ∃ e : Element,
      e = ⟨"a", [("k", "\"/><b>&amp;'"), ("&", "\r\n\t ]]>")],
        [⟨"-b", [], [⟨"é", [("k", "")], []⟩]⟩, ⟨"c", [("a", "<!--"), ("b", "&#x0;")], []⟩,
          ⟨"a", [], [⟨"a", [("x!", "?>")], []⟩]⟩]⟩ ∧
      (∀ node ∈ e.preorder 0, isName node.2.1.toList = true ∧
        (∀ entry ∈ node.2.2, isName entry.1.toList = true) ∧
        (node.2.2.map Prod.fst).Nodup) ∧
      Element.parse e.document = .ok e := by
  refine ⟨_, rfl, ?names, Element.parse_document_of_names ?names⟩
  simp only [Element.preorder, List.flatMap_cons, List.flatMap_nil, List.append_nil,
    List.cons_append, List.nil_append]
  decide

end ProgramIndex
