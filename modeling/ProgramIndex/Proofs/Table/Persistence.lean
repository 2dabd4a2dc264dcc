import ProgramIndex.Proofs.Markup.Document
import ProgramIndex.Proofs.Numeral.Decimal
import ProgramIndex.Proofs.Table.Load

/-!
A table that is stored as an element is read back with the same records, at the
same indices and with the same counter. Only a comma in a tag prevents this,
and then the table is not stored.
-/

namespace ProgramIndex

/-- None of the tags holds a comma, so that they come apart again when they have
been joined. -/
def Record.CommaFree (record : Record) : Prop :=
  ∀ tag ∈ record.key.tags, ',' ∉ tag.toList

instance (record : Record) : Decidable record.CommaFree :=
  inferInstanceAs (Decidable (∀ tag ∈ record.key.tags, ',' ∉ tag.toList))

namespace Record

theorem joinedArgs_isEmpty_iff {key : Key} : key.joinedArgs.isEmpty = true ↔ key.args = [] := by
  constructor
  · intro hEmpty
    have hDigits : Numeral.sequenceDigits key.args = [] := by
      have hText := congrArg String.toList (String.isEmpty_iff.mp hEmpty)
      rwa [Key.joinedArgs, String.toList_ofList] at hText
    have hRead := Numeral.readSequence_sequenceDigits key.args
    rw [hDigits] at hRead
    exact (Except.ok.inj hRead).symm
  · intro hNone
    rw [Key.joinedArgs, hNone]
    rfl

/-- The attributes of a stored record: its tags and its arguments, as far as
there are any, and its index. -/
theorem toElement_eq (record : Record) :
    record.toElement = ⟨entryName,
      (if record.key.tags = [] then [] else [("t", record.key.joinedTags)]) ++
        (if record.key.args = [] then [] else [(argsAttribute, record.key.joinedArgs)]) ++
        [("ix", Numeral.ofNat record.index)], []⟩ := by
  simp only [toElement, writeTo, List.isEmpty_iff, joinedArgs_isEmpty_iff]
  split
  · split
    · rfl
    · rfl
  · split
    · rfl
    · rfl

/-- The arguments of a record are read as they are written, none at all among them. -/
theorem integers_toElement (record : Record) :
    record.toElement.integers argsAttribute = .ok record.key.args := by
  have hGet : record.toElement.get? argsAttribute =
      if record.key.args = [] then none else some record.key.joinedArgs := by
    rw [toElement_eq]
    split
    · split
      · rfl
      · rfl
    · split
      · rfl
      · rfl
  rw [Element.integers, hGet]
  split
  · rename_i hNone
    split at hNone
    · rename_i hArgs
      rw [hArgs]
    · cases hNone
  · rename_i text hText
    split at hText
    · cases hText
    · rw [← Option.some.inj hText, Key.joinedArgs, String.toList_ofList]
      exact Numeral.readSequence_sequenceDigits record.key.args

/-- Tags without commas are told apart when they are joined by commas. -/
theorem split_joinedTags {key : Key} (hSome : key.tags ≠ [])
    (hCommas : ∀ tag ∈ key.tags, ',' ∉ tag.toList) :
    (Text.split ',' key.joinedTags.toList).map String.ofList = key.tags := by
  rw [Key.joinedTags, String.toList_ofList, Text.split_join, List.map_map]
  · exact List.map_id'' (fun tag => String.ofList_toList) key.tags
  · intro hNil
    exact hSome (List.map_eq_nil_iff.mp hNil)
  · intro piece hPiece
    obtain ⟨tag, hTag, rfl⟩ := List.mem_map.mp hPiece
    exact hCommas tag hTag

/-- A record is read as it is stored, for whichever table it is read. -/
theorem ofElement_toElement {record : Record} (hCommas : record.CommaFree)
    (hRange : record.index ≤ Numeral.maxIndex) (table : String) :
    Record.ofElement table record.toElement = .ok record := by
  have hIndex : record.toElement.get? "ix" = some (Numeral.ofNat record.index) := by
    rw [toElement, writeTo, Element.get?_set, if_pos rfl]
  have hRead : Numeral.readIndex (Numeral.ofNat record.index).toList = .ok record.index := by
    rw [Numeral.ofNat, String.toList_ofList, Numeral.readIndex_natDigits hRange]
  have hTags : record.toElement.get? "t" =
      if record.key.tags = [] then none else some record.key.joinedTags := by
    rw [toElement_eq]
    split
    · split
      · rfl
      · rfl
    · rfl
  simp only [Record.ofElement, hIndex, hRead, integers_toElement, hTags]
  by_cases hSome : record.key.tags = []
  · simp only [hSome, if_true]
    rw [← hSome]
  · simp only [hSome, if_false, split_joinedTags hSome hCommas]

/-- Stored records are found as the entries of their section. -/
theorem findAll_toElement (name : String) (records : List Record) :
    Element.findAll ⟨name, [], records.map Record.toElement⟩ entryName =
      records.map Record.toElement := by
  apply List.filter_eq_self.mpr
  intro child hChild
  obtain ⟨record, -, rfl⟩ := List.mem_map.mp hChild
  rw [toElement_eq]
  exact decide_eq_true rfl

/-- A record can stand in a document, whatever its tags are. -/
theorem legible_toElement (record : Record) : record.toElement.Legible := by
  rw [toElement_eq]
  refine .mk (by decide) ?_ ?_ (fun child hChild => absurd hChild List.not_mem_nil)
  · intro entry hEntry
    have hKeys : ∀ key ∈ ["t", argsAttribute, "ix"], Markup.isName key.toList = true := by
      decide
    apply hKeys
    simp only [List.mem_append, List.mem_singleton] at hEntry
    rcases hEntry with (hTags | hArgs) | rfl
    · split at hTags
      · cases hTags
      · rw [List.mem_singleton.mp hTags]
        simp
    · split at hArgs
      · cases hArgs
      · rw [List.mem_singleton.mp hArgs]
        simp
    · simp
  · split
    · split
      · simp
      · simp [argsAttribute]
    · split
      · simp
      · simp [argsAttribute]

end Record

namespace Table

/-- None of the records has a tag with a comma. -/
def CommaFree (t : Table) : Prop :=
  ∀ record ∈ t.toList, record.CommaFree

instance (t : Table) : Decidable t.CommaFree :=
  inferInstanceAs (Decidable (∀ record ∈ t.toList, record.CommaFree))

/-- A stored table is read back as it was, under whichever name, but without
reserved indices and checkpoints. -/
theorem Consistent.ofElement_toElement {t : Table} (h : t.Consistent) (hCommas : t.CommaFree)
    (hRange : t.next ≤ Numeral.maxIndex) (name : String) :
    ofElement name ⟨t.name, [], t.toList.map Record.toElement⟩ =
      .ok ⟨name, t.indices, t.records, t.next, ∅, []⟩ := by
  have hIndex : ∀ record ∈ t.toList, record.index < Numeral.maxIndex := by
    intro record hRecord
    have hLess := h.lt_next record.index (mem_records_iff.mpr ⟨record, h.mem_toList.mp hRecord⟩)
    omega
  have hEntries : (t.toList.map Record.toElement).mapM (Record.ofElement name) =
      .ok t.toList := by
    rw [mapM_eq_ok_iff, List.map_map]
    apply List.map_congr_left
    intro record hRecord
    exact Record.ofElement_toElement (hCommas record hRecord)
      (Nat.le_of_lt (hIndex record hRecord)) name
  obtain ⟨fresh, hInstall, hFresh⟩ := (consistent_new name).installAll_of_agrees hIndex
    (fun stored hStored => absurd hStored List.not_mem_nil)
    fun a ha b hb => h.agrees ha hb
  have hRead : ofElement name ⟨t.name, [], t.toList.map Record.toElement⟩ = .ok fresh := by
    rw [ofElement_eq_ok_iff, Record.findAll_toElement]
    exact ⟨t.toList, hEntries, hInstall⟩
  have hSame : ∀ record, record ∈ fresh.toList ↔ record ∈ t.toList := by
    intro record
    rw [hFresh]
    constructor
    · rintro (hNew | hOld)
      · cases hNew
      · exact hOld
    · exact Or.inr
  obtain ⟨hRecords, hIndices, hNext⟩ := (consistent_of_ofElement hRead).eq_of_toList h hSame
  obtain ⟨hName, hReserved, hFrontiers⟩ := ofElement_frame hRead
  rw [hRead, ← hRecords, ← hIndices, ← hNext, ← hName, ← hReserved, ← hFrontiers]

end Table

end ProgramIndex
