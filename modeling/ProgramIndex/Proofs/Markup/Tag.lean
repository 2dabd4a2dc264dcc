import ProgramIndex.Markup.Document

/-!
Tags are read as they are written: the name, then the keys and their values in
order. A value may be any text, because the characters that have a meaning in a
tag are written as references. Names and keys are written as they are, so they
have to do without such characters.
-/

namespace ProgramIndex.Markup

/-- Whether a character has no meaning of its own inside a tag. -/
def isPlain (c : Char) : Bool :=
  !isSpace c && c ≠ '<' && c ≠ '>' && c ≠ '/' && c ≠ '=' && c ≠ '"' && c ≠ '\''

/-- Whether a text can be the name of an element or the key of an attribute. -/
def isName : List Char → Bool
  | [] => false
  | first :: rest => first ≠ '!' && first ≠ '?' && (first :: rest).all isPlain

theorem isName_iff {name : List Char} :
    isName name = true ↔
      ∃ first rest, name = first :: rest ∧ first ≠ '!' ∧ first ≠ '?' ∧
        ∀ c ∈ name, isPlain c = true := by
  cases name with
  | nil => simp [isName]
  | cons first rest =>
      simp only [isName, Bool.and_eq_true, decide_eq_true_eq, List.all_eq_true, and_assoc]
      constructor
      · intro hName
        exact ⟨first, rest, rfl, hName⟩
      · rintro ⟨_, _, hCons, hName⟩
        cases hCons
        exact hName

theorem isPlain_iff {c : Char} :
    isPlain c = true ↔
      isSpace c = false ∧ c ≠ '<' ∧ c ≠ '>' ∧ c ≠ '/' ∧ c ≠ '=' ∧ c ≠ '"' ∧ c ≠ '\'' := by
  simp only [isPlain, Bool.and_eq_true, Bool.not_eq_true', decide_eq_true_eq, and_assoc]

/-- A character that is reserved is one of five, and all others are written as
they are. -/
theorem escapeChar_cases (c : Char) :
    c = '<' ∨ c = '>' ∨ c = '&' ∨ c = '\'' ∨ c = '"' ∨
      (escapeChar c = [c] ∧ c ≠ '&' ∧ c ≠ '"') := by
  by_cases hOpen : c = '<'
  · exact Or.inl hOpen
  by_cases hClose : c = '>'
  · exact Or.inr (Or.inl hClose)
  by_cases hAmpersand : c = '&'
  · exact Or.inr (Or.inr (Or.inl hAmpersand))
  by_cases hSingle : c = '\''
  · exact Or.inr (Or.inr (Or.inr (Or.inl hSingle)))
  by_cases hDouble : c = '"'
  · exact Or.inr (Or.inr (Or.inr (Or.inr (Or.inl hDouble))))
  have hPlain : escapeChar c = [c] := by
    simp only [escapeChar, hOpen, hClose, hAmpersand, hSingle, hDouble, if_false]
  exact Or.inr (Or.inr (Or.inr (Or.inr (Or.inr ⟨hPlain, hAmpersand, hDouble⟩))))

/-- The reading of one written character, whatever follows it. -/
theorem unescapeFrom_escapeChar (length position : Nat) (c : Char) (rest : List Char) :
    ∃ next, unescapeFrom length position none (escapeChar c ++ rest) =
      (unescapeFrom length next none rest).map (c :: ·) := by
  rcases escapeChar_cases c with rfl | rfl | rfl | rfl | rfl | ⟨hPlain, hAmpersand, -⟩
  · exact ⟨_, rfl⟩
  · exact ⟨_, rfl⟩
  · exact ⟨_, rfl⟩
  · exact ⟨_, rfl⟩
  · exact ⟨_, rfl⟩
  · refine ⟨position + c.utf8Size, ?_⟩
    rw [hPlain, List.singleton_append, unescapeFrom]
    simp only [hAmpersand, if_false]

/-- Every text is read as it is written. -/
theorem unescape_escape (value : List Char) : unescape (escape value) = .ok value := by
  have hFrom : ∀ length position, unescapeFrom length position none (escape value) = .ok value := by
    intro length
    induction value with
    | nil =>
        intro position
        rfl
    | cons c rest ih =>
        intro position
        obtain ⟨next, hNext⟩ := unescapeFrom_escapeChar length position c (escape rest)
        rw [escape, List.flatMap_cons, ← escape, hNext, ih next]
        rfl
  exact hFrom _ 0

/-- An escaped value has no quote in it that would end it. -/
theorem quote_not_mem_escape (value : List Char) : '"' ∉ escape value := by
  intro hMem
  obtain ⟨c, -, hChar⟩ := List.mem_flatMap.mp hMem
  rcases escapeChar_cases c with rfl | rfl | rfl | rfl | rfl | ⟨hPlain, -, hQuote⟩
  · simp [escapeChar] at hChar
  · simp [escapeChar] at hChar
  · simp [escapeChar] at hChar
  · simp [escapeChar] at hChar
  · simp [escapeChar] at hChar
  · rw [hPlain, List.mem_singleton] at hChar
    exact hQuote hChar.symm

/-- A cursor reads as far as the test holds, and its position counts the bytes. -/
theorem Cursor.span_append {test : Char → Bool} {read rest : List Char} (position : Nat)
    (hRead : ∀ c ∈ read, test c = true) (hRest : ∀ c, rest.head? = some c → test c = false) :
    (Cursor.mk position (read ++ rest)).span test =
      (read, ⟨position + byteLength read, rest⟩) := by
  have hTake : (read ++ rest).takeWhile test = read := by
    rw [List.takeWhile_append_of_pos hRead]
    cases rest with
    | nil => simp
    | cons c others => simp [hRest c rfl]
  simp only [Cursor.span, Cursor.skip, hTake, List.drop_left]

theorem Cursor.skipSpace_of_not_space {position : Nat} {c : Char} {rest : List Char}
    (hSpace : isSpace c = false) :
    (Cursor.mk position (c :: rest)).skipSpace = ⟨position, c :: rest⟩ := by
  simp [Cursor.skipSpace, Cursor.span, Cursor.skip, hSpace, byteLength]

/-- A written value is read as it was before it was escaped. -/
theorem readQuoted_escape (position : Nat) (value rest : List Char) :
    ∃ next, readQuoted ⟨position, '"' :: escape value ++ '"' :: rest⟩ =
      .ok (value, ⟨next, rest⟩) := by
  have hSpan : ((Cursor.mk position ('"' :: escape value ++ '"' :: rest)).skip ['"']).span
      (· ≠ '"') = (escape value, ⟨position + 1 + byteLength (escape value), '"' :: rest⟩) := by
    apply Cursor.span_append
    · intro c hMem
      simp only [decide_eq_true_eq]
      rintro rfl
      exact quote_not_mem_escape value hMem
    · intro c hHead
      rw [← Option.some.inj hHead]
      rfl
  refine ⟨position + 1 + byteLength (escape value) + 1, ?_⟩
  unfold readQuoted
  simp only [List.cons_append, true_or, if_true] at hSpan ⊢
  rw [hSpan]
  simp only [reduceCtorEq, if_false, unescape_escape]
  rfl

theorem readValue_escape (keyPosition position : Nat) (value rest : List Char) :
    ∃ next, readValue keyPosition none ⟨position, '=' :: '"' :: escape value ++ '"' :: rest⟩ =
      .ok (value, ⟨next, rest⟩) := by
  obtain ⟨next, hQuoted⟩ := readQuoted_escape (position + 1) value rest
  refine ⟨next, ?_⟩
  unfold readValue
  simp only [List.cons_append] at hQuoted ⊢
  rw [Cursor.skipSpace_of_not_space (by rfl)]
  have hSkip : (Cursor.mk position ('=' :: '"' :: (escape value ++ '"' :: rest))).skip ['='] =
      ⟨position + 1, '"' :: (escape value ++ '"' :: rest)⟩ := rfl
  simp only [hSkip]
  rw [Cursor.skipSpace_of_not_space (by rfl)]
  exact hQuoted

/-- One attribute that can be read, and then the others. -/
theorem readAttributes_of_readValue {seen : List (String × Nat)} {cursor afterKey after : Cursor}
    {keyPosition : Nat} {first : Char} {rest key value : List Char}
    (hSpace : cursor.skipSpace = ⟨keyPosition, first :: rest⟩)
    (hKey : ((Cursor.mk keyPosition (first :: rest)).skip [first]).span
      (fun c => c ≠ '=' && !isSpace c) = (key, afterKey))
    (hValue : readValue keyPosition (seen.lookup (String.ofList (first :: key))) afterKey =
      .ok (value, after)) :
    readAttributes seen cursor =
      (readAttributes ((String.ofList (first :: key), keyPosition) :: seen) after).map
        ((String.ofList (first :: key), String.ofList value) :: ·) := by
  rw [readAttributes]
  split
  · rename_i hNil
    rw [hSpace] at hNil
    cases hNil
  · rename_i first' rest' hCons
    have hText : first :: rest = first' :: rest' := by
      rw [← hCons, hSpace]
    obtain ⟨rfl, rfl⟩ := List.cons.inj hText
    dsimp only
    split
    · rename_i fault hFault
      rw [hSpace, hKey, hValue] at hFault
      cases hFault
    · rename_i value' after' hOk
      rw [hSpace, hKey, hValue] at hOk
      obtain ⟨rfl, rfl⟩ := Prod.mk.inj (Except.ok.inj hOk)
      rw [hSpace, hKey]

/-- The next attribute is read as it is written, provided that its key is a name
that has not been read before. -/
theorem readAttributes_writeAttribute {seen : List (String × Nat)} {key : String}
    (hName : isName key.toList = true) (hNew : seen.lookup key = none) (position : Nat)
    (value : String) (rest : List Char) :
    ∃ next keyPosition,
      readAttributes seen ⟨position, Element.writeAttribute (key, value) ++ rest⟩ =
        (readAttributes ((key, keyPosition) :: seen) ⟨next, rest⟩).map ((key, value) :: ·) := by
  obtain ⟨first, others, hKey, -, -, hPlain⟩ := isName_iff.mp hName
  have hKeyText : String.ofList (first :: others) = key := by
    rw [← hKey, String.ofList_toList]
  have hFirst := (isPlain_iff.mp (hPlain first (by rw [hKey]; exact List.mem_cons_self))).1
  have hWritten : Element.writeAttribute (key, value) ++ rest =
      [' '] ++ first :: (others ++ '=' :: '"' :: escape value.toList ++ '"' :: rest) := by
    simp [Element.writeAttribute, hKey]
  have hSpace : (Cursor.mk position (Element.writeAttribute (key, value) ++ rest)).skipSpace =
      ⟨position + 1, first :: (others ++ '=' :: '"' :: escape value.toList ++ '"' :: rest)⟩ := by
    have hBlank : ∀ c ∈ [' '], isSpace c = true := by
      intro c hMem
      rw [List.mem_singleton.mp hMem]
      rfl
    rw [hWritten, Cursor.skipSpace, Cursor.span_append position hBlank]
    · rfl
    · intro c hHead
      rw [← Option.some.inj hHead]
      exact hFirst
  obtain ⟨next, hValue⟩ := readValue_escape (position + 1)
    (position + 1 + first.utf8Size + byteLength others) value.toList rest
  have hOthers : ∀ c ∈ others, (c ≠ '=' && !isSpace c) = true := by
    intro c hMem
    have hChar := isPlain_iff.mp (hPlain c (by rw [hKey]; exact List.mem_cons_of_mem first hMem))
    simp [hChar.1, hChar.2.2.2.2.1]
  have hSpan : ((Cursor.mk (position + 1)
      (first :: (others ++ '=' :: '"' :: escape value.toList ++ '"' :: rest))).skip [first]).span
        (fun c => c ≠ '=' && !isSpace c) =
      (others, ⟨position + 1 + first.utf8Size + byteLength others,
        '=' :: '"' :: escape value.toList ++ '"' :: rest⟩) := by
    rw [List.append_assoc]
    apply Cursor.span_append _ hOthers
    intro c hHead
    rw [← Option.some.inj hHead]
    rfl
  rw [← hNew, ← hKeyText] at hValue
  refine ⟨next, position + 1, ?_⟩
  rw [readAttributes_of_readValue hSpace hSpan hValue, hKeyText, String.ofList_toList]

/-- By induction over the attributes: distinct keys are read in their order. -/
theorem readAttributes_flatMap {attributes : List (String × String)}
    (hNames : ∀ entry ∈ attributes, isName entry.1.toList = true)
    (hDistinct : (attributes.map Prod.fst).Nodup) {seen : List (String × Nat)}
    (hNew : ∀ entry ∈ attributes, seen.lookup entry.1 = none) (position : Nat) :
    readAttributes seen ⟨position, attributes.flatMap Element.writeAttribute⟩ =
      .ok attributes := by
  induction attributes generalizing seen position with
  | nil =>
      rw [List.flatMap_nil, readAttributes]
      split
      · rfl
      · rename_i hCons
        cases hCons
  | cons entry rest ih =>
      obtain ⟨key, value⟩ := entry
      rw [List.map_cons, List.nodup_cons] at hDistinct
      obtain ⟨next, keyPosition, hFirst⟩ := readAttributes_writeAttribute
        (hNames (key, value) List.mem_cons_self) (hNew (key, value) List.mem_cons_self) position
        value (rest.flatMap Element.writeAttribute)
      have hOthers : ∀ entry ∈ rest, List.lookup entry.1 ((key, keyPosition) :: seen) = none := by
        intro other hOther
        have hNe : other.1 ≠ key := by
          rintro rfl
          exact hDistinct.1 (List.mem_map.mpr ⟨other, hOther, rfl⟩)
        rw [List.lookup_cons, beq_false_of_ne hNe]
        exact hNew other (List.mem_cons_of_mem _ hOther)
      rw [List.flatMap_cons, hFirst,
        ih (fun other hOther => hNames other (List.mem_cons_of_mem _ hOther)) hDistinct.2 hOthers]
      rfl

/-- A written tag is read with its name and all its attributes. -/
theorem read_writeTag {name : String} {attributes : List (String × String)}
    (hName : isName name.toList = true)
    (hKeys : ∀ entry ∈ attributes, isName entry.1.toList = true)
    (hDistinct : (attributes.map Prod.fst).Nodup) :
    Tag.read (Element.writeTag name attributes) = .ok ⟨name, attributes⟩ := by
  obtain ⟨-, -, -, -, -, hPlain⟩ := isName_iff.mp hName
  have hSpan : (Cursor.mk 0 (Element.writeTag name attributes)).span (fun c => !isSpace c) =
      (name.toList, ⟨0 + byteLength name.toList, attributes.flatMap Element.writeAttribute⟩) := by
    apply Cursor.span_append
    · intro c hMem
      rw [(isPlain_iff.mp (hPlain c hMem)).1]
      rfl
    · intro c hHead
      cases attributes with
      | nil => cases hHead
      | cons entry rest =>
          rw [← Option.some.inj hHead]
          rfl
  unfold Tag.read
  rw [hSpan]
  dsimp only
  rw [readAttributes_flatMap hKeys hDistinct (fun _ _ => rfl), String.ofList_toList]
  rfl

end ProgramIndex.Markup
