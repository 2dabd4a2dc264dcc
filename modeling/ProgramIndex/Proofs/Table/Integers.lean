import ProgramIndex.Proofs.Table.Section

/-!
Lists of integers in attributes. The commas cut the text into pieces, and every piece has to
hold an integer of its own; the first one that does not is what is reported. Blanks around
the integers make no difference, wherever they stand and however many there are.
-/

namespace ProgramIndex

open Numeral (HoldsInt Readable exists_readSequence_iff int64Digits readInt64
  readSequence_eq_error_iff spellsList_iff)

/-- An integer as an item of a list, with blanks before and after it. -/
structure Numeral.Padded where
  before : List Char
  value : Int64
  after : List Char
  before_blank : ∀ c ∈ before, Text.isBlank c = true
  after_blank : ∀ c ∈ after, Text.isBlank c = true

namespace Numeral.Padded

def text (item : Padded) : List Char :=
  item.before ++ int64Digits item.value ++ item.after

/-- However an integer is padded, its text holds it. -/
theorem holdsInt_text (item : Padded) : HoldsInt item.text item.value.toInt :=
  ⟨item.before, _, item.after, rfl, item.before_blank, item.after_blank,
    readInt64_eq_ok_iff.mp (readInt64_int64Digits item.value)⟩

theorem comma_not_mem_text (item : Padded) : ',' ∉ item.text := by
  have hBlank : ∀ {blanks : List Char}, (∀ c ∈ blanks, Text.isBlank c = true) → ',' ∉ blanks :=
    fun hBlanks hMem => nomatch hBlanks ',' hMem
  simp only [text, List.mem_append, not_or]
  exact ⟨⟨hBlank item.before_blank, comma_not_mem_int64Digits item.value⟩,
    hBlank item.after_blank⟩

end Numeral.Padded

namespace Element

variable {e : Element} {key : String}

/-- A list of integers is read exactly if each piece holds its integer. -/
theorem integers_eq_ok_iff_pieces {values : List Int64} :
    e.integers key = .ok values ↔
      (e.get? key = none ∨ e.get? key = some "") ∧ values = [] ∨
      ∃ text, e.get? key = some text ∧
        List.Forall₂ (fun piece (value : Int64) => HoldsInt piece value.toInt)
          (Text.split ',' text.toList) values := by
  rw [integers_eq_ok_iff]
  cases e.get? key with
  | none => simp [SpellsArgs]
  | some text => simp [SpellsArgs, spellsList_iff]

/-- It is read at all exactly if each piece is readable. -/
theorem exists_integers_iff :
    (∃ values, e.integers key = .ok values) ↔ e.get? key = none ∨ e.get? key = some "" ∨
      ∃ text, e.get? key = some text ∧ ∀ piece ∈ Text.split ',' text.toList, Readable piece := by
  rw [integers]
  cases e.get? key with
  | none => simp
  | some text => simp [exists_readSequence_iff]

/-- Otherwise the first piece that is not readable is reported, as it stands in the text. -/
theorem integers_eq_error_iff {fault : Numeral.SequenceFault} :
    e.integers key = .error fault ↔
      ∃ text earlier piece later, e.get? key = some text ∧ text ≠ "" ∧
        Text.split ',' text.toList = earlier ++ piece :: later ∧
        (∀ other ∈ earlier, Readable other) ∧
        readInt64 (Text.trim piece) = .error fault.cause ∧ fault.piece = String.ofList piece := by
  rw [integers]
  cases e.get? key with
  | none => simp
  | some text => simp [readSequence_eq_error_iff]

/-- A list is read back from a text with blanks around its items. -/
theorem integers_of_padded {items : List Numeral.Padded}
    (hText : e.get? key = some (String.ofList (Text.join ',' (items.map Numeral.Padded.text)))) :
    e.integers key = .ok (items.map Numeral.Padded.value) := by
  rw [integers_eq_ok_iff_pieces]
  cases items with
  | nil => exact .inl ⟨.inr hText, rfl⟩
  | cons first rest =>
      refine .inr ⟨_, hText, ?_⟩
      have hPieces : ∀ piece ∈ (first :: rest).map Numeral.Padded.text, ',' ∉ piece :=
        List.forall_mem_map.mpr fun item _ => item.comma_not_mem_text
      rw [String.toList_ofList, Text.split_join (List.map_cons ▸ List.cons_ne_nil _ _) hPieces,
        List.forall₂_map_left_iff, List.forall₂_map_right_iff, List.forall₂_same]
      exact fun item _ => item.holdsInt_text

/-- Which attributes are lists of integers, and which integers these are. An attribute that
is absent or empty is the list of none. Any other is a list exactly if each of its pieces
between the commas holds a signed integer of 64 bits, and then these are its integers, in the
order of the pieces; otherwise the first piece that holds none is quoted, with its blanks.
So a list is read back, whatever blanks are put around its integers. -/
theorem integers_eq_pieces (e : Element) (key : String) :
    ((∃ values, e.integers key = .ok values) ↔ e.get? key = none ∨ e.get? key = some "" ∨
      ∃ text, e.get? key = some text ∧ ∀ piece ∈ Text.split ',' text.toList, Readable piece) ∧
    (∀ values, e.integers key = .ok values ↔
      (e.get? key = none ∨ e.get? key = some "") ∧ values = [] ∨
      ∃ text, e.get? key = some text ∧
        List.Forall₂ (fun piece (value : Int64) => HoldsInt piece value.toInt)
          (Text.split ',' text.toList) values) ∧
    (∀ fault, e.integers key = .error fault →
      ∃ text earlier piece later, e.get? key = some text ∧ text ≠ "" ∧
        Text.split ',' text.toList = earlier ++ piece :: later ∧
        (∀ other ∈ earlier, Readable other) ∧ ¬ Readable piece ∧
        fault.message key = "invalid integer " ++ Text.quote (String.ofList piece) ++ " in " ++
          key ++ ": " ++ fault.cause.message) ∧
    ∀ items : List Numeral.Padded,
      e.get? key = some (String.ofList (Text.join ',' (items.map Numeral.Padded.text))) →
        e.integers key = .ok (items.map Numeral.Padded.value) := by
  refine ⟨exists_integers_iff, fun _ => integers_eq_ok_iff_pieces, fun fault hError => ?_,
    fun _ => integers_of_padded⟩
  obtain ⟨text, earlier, piece, later, hText, hSome, hSplit, hEarlier, hRead, hPiece⟩ :=
    integers_eq_error_iff.mp hError
  refine ⟨text, earlier, piece, later, hText, hSome, hSplit, hEarlier, ?_, ?_⟩
  · intro hReadable
    obtain ⟨value, hValue⟩ := Numeral.exists_readPiece_iff.mpr hReadable
    rw [Numeral.readPiece_eq_error_iff.mpr ⟨hRead, hPiece⟩] at hValue
    cases hValue
  · rw [← hPiece]
    rfl

/-- The smallest integer between blanks of other kinds, and a list whose second piece is too
large by one. -/
theorem integers_eq_pieces_extremes :
    ∃ (e : Element) (items : List Numeral.Padded) (fault : Numeral.SequenceFault),
      e = ⟨"n", [("a", "\u00a0-9223372036854775808\t,7"),
        ("b", "+007, 9223372036854775808,x")], []⟩ ∧
      e.get? "a" = some (String.ofList (Text.join ',' (items.map Numeral.Padded.text))) ∧
      e.integers "a" = .ok [Int64.minValue, 7] ∧
      e.integers "b" = .error fault ∧ (¬ ∃ values, e.integers "b" = .ok values) ∧
      fault.message "b" = "invalid integer \" 9223372036854775808\" in b: " ++
        "number too large to fit in target type" ∧
      ∃ earlier piece later,
        Text.split ',' "+007, 9223372036854775808,x".toList = earlier ++ piece :: later ∧
          (∀ other ∈ earlier, Readable other) ∧ ¬ Readable piece := by
  obtain ⟨-, -, -, hPadded⟩ := integers_eq_pieces
    ⟨"n", [("a", "\u00a0-9223372036854775808\t,7"), ("b", "+007, 9223372036854775808,x")], []⟩ "a"
  have hText : some "\u00a0-9223372036854775808\t,7" = some (String.ofList (Text.join ','
      (List.map Numeral.Padded.text [⟨['\u00a0'], Int64.minValue, ['\t'],
        List.forall_mem_singleton.mpr (by decide), List.forall_mem_singleton.mpr (by decide)⟩,
        ⟨[], 7, [], nofun, nofun⟩]))) := by decide +kernel
  have hItems := hPadded _ hText
  obtain ⟨-, -, hError, -⟩ := integers_eq_pieces
    ⟨"n", [("a", "\u00a0-9223372036854775808\t,7"), ("b", "+007, 9223372036854775808,x")], []⟩ "b"
  obtain ⟨text, earlier, piece, later, hFound, -, hSplit, hEarlier, hPiece, -⟩ :=
    hError ⟨" 9223372036854775808", .tooLarge⟩ rfl
  cases hFound
  exact ⟨_, _, _, rfl, hText, hItems, rfl, nofun, by decide +kernel, earlier, piece, later,
    hSplit, hEarlier, hPiece⟩

end Element

end ProgramIndex
