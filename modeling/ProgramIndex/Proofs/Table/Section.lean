import ProgramIndex.Proofs.Numeral.Spelling
import ProgramIndex.Proofs.Table.Load

/-!
What a table is read from. The entries of a section store one record each, in
whichever of its written forms. A section is read exactly if all its entries store
a record and these records go together; then the table holds them and nothing
else.
-/

namespace ProgramIndex

open Numeral (SpellsNat SpellsList)

namespace Element

/-- The tags in an attribute, with commas between them. An absent attribute stands
for no tags, an empty one for a single empty tag. -/
def SpellsTags : Option String → List String → Prop
  | none, tags => tags = []
  | some text, tags => tags = (Text.split ',' text.toList).map String.ofList

/-- The arguments in an attribute; none if it is absent. -/
def SpellsArgs : Option String → List Int64 → Prop
  | none, args => args = []
  | some text, args => SpellsList text.toList args

/-- The element stores a record as an entry: its attributes spell the index, the
tags and the arguments. Its name, its children and other attributes do not
matter. -/
structure Stores (e : Element) (record : Record) : Prop where
  index : ∃ text, e.get? "ix" = some text ∧ SpellsNat text.toList record.index
  tags : SpellsTags (e.get? "t") record.key.tags
  args : SpellsArgs (e.get? argsAttribute) record.key.args

/-- The entries of a section store these records, one each and in this order, the
records have indices that a counter can move beyond, and no index is given to two
keys and no key to two indices. -/
structure Section (e : Element) (records : List Record) : Prop where
  stored : List.Forall₂ Stores (e.findAll entryName) records
  in_range : ∀ record ∈ records, record.index < Numeral.maxIndex
  agree : ∀ a ∈ records, ∀ b ∈ records, a.Agrees b

theorem integers_eq_ok_iff {e : Element} {key : String} {args : List Int64} :
    e.integers key = .ok args ↔ SpellsArgs (e.get? key) args := by
  rw [integers]
  cases e.get? key with
  | none => simp [SpellsArgs, eq_comm]
  | some text => exact Numeral.readSequence_eq_ok_iff

end Element

/-- A record is read from the elements that store it, as long as its index is a
word. -/
theorem Record.ofElement_eq_ok_iff {table : String} {e : Element} {record : Record} :
    Record.ofElement table e = .ok record ↔
      e.Stores record ∧ record.index ≤ Numeral.maxIndex := by
  constructor
  · intro hRead
    unfold Record.ofElement at hRead
    split at hRead
    · cases hRead
    · rename_i text hText
      split at hRead
      · cases hRead
      · rename_i index hIndex
        dsimp only at hRead
        split at hRead
        · cases hRead
        · rename_i args hArgs
          obtain ⟨hSpells, hBound⟩ := Numeral.readNat_eq_ok_iff.mp hIndex
          rw [← Except.ok.inj hRead]
          refine ⟨⟨⟨text, hText, hSpells⟩, ?_, Element.integers_eq_ok_iff.mp hArgs⟩, hBound⟩
          cases e.get? "t" <;> rfl
  · obtain ⟨index, tags, args⟩ := record
    rintro ⟨⟨⟨text, hText, hSpells⟩, hTags, hArgs⟩, hBound⟩
    have hIndex : Numeral.readIndex text.toList = .ok index :=
      Numeral.readNat_eq_ok_iff.mpr ⟨hSpells, hBound⟩
    simp only [Record.ofElement, hText, hIndex, Element.integers_eq_ok_iff.mpr hArgs]
    cases hTag : e.get? "t" with
    | none =>
        rw [hTag] at hTags
        cases hTags
        rfl
    | some joined =>
        rw [hTag] at hTags
        cases hTags
        rfl

namespace Table

/-- The table holds these records and no others. Its counter is above all of them,
and nothing is reserved or checkpointed. -/
structure Holds (t : Table) (records : List Record) : Prop where
  records_iff : ∀ (index : Nat) (record : Record),
    t.records[index]? = some record ↔ record.index = index ∧ record ∈ records
  lookup_iff : ∀ (key : Key) (index : Nat), t.lookup? key = some index ↔ ⟨index, key⟩ ∈ records
  next_of_nil : records = [] → t.next = 0
  next_of_cons : records ≠ [] →
    ∃ last ∈ records, (∀ record ∈ records, record.index ≤ last.index) ∧ t.next = last.index + 1
  reserved_eq : t.reserved = ∅
  frontiers_eq : t.frontiers = []

theorem Consistent.holds {t : Table} (h : t.Consistent) {records : List Record}
    (hRecords : ∀ record, record ∈ t.toList ↔ record ∈ records) (hReserved : t.reserved = ∅)
    (hFrontiers : t.frontiers = []) : t.Holds records where
  records_iff index record := by
    rw [h.records_iff, hRecords]
  lookup_iff key index := by
    rw [lookup?, h.lookup_iff, h.records_iff, hRecords]
    exact and_iff_right rfl
  next_of_nil hNone := by
    apply h.next_eq_zero
    apply Std.ExtTreeMap.eq_empty_iff_forall_not_mem.mpr
    intro index hIndex
    obtain ⟨record, hRecord⟩ := mem_records_iff.mp hIndex
    have hListed := (hRecords record).mp (h.records_iff.mp hRecord).2
    rw [hNone] at hListed
    exact List.not_mem_nil hListed
  next_of_cons hSome := by
    have hMem : ∀ record ∈ records, record.index ∈ t.records := fun record hRecord =>
      mem_records_iff.mpr ⟨record, h.mem_toList.mp ((hRecords record).mpr hRecord)⟩
    have hFilled : t.records ≠ ∅ := by
      obtain ⟨record, hRecord⟩ := List.exists_mem_of_ne_nil records hSome
      intro hEmpty
      have hIndex := hMem record hRecord
      rw [hEmpty] at hIndex
      exact Std.ExtTreeMap.not_mem_empty hIndex
    obtain ⟨index, hIndex, hLargest, hNext⟩ := h.next_eq_succ hFilled
    obtain ⟨last, hLast⟩ := mem_records_iff.mp hIndex
    obtain ⟨rfl, hListed⟩ := h.records_iff.mp hLast
    exact ⟨last, (hRecords last).mp hListed, fun record hRecord =>
      hLargest record.index (hMem record hRecord), hNext⟩
  reserved_eq := hReserved
  frontiers_eq := hFrontiers

/-- A table is determined by its name and the records that it holds. -/
theorem Holds.eq {t u : Table} {records : List Record} (ht : t.Holds records)
    (hu : u.Holds records) (hName : t.name = u.name) : t = u := by
  have hRecords : t.records = u.records := by
    apply Std.ExtTreeMap.ext_getElem?
    intro index
    apply Option.ext
    intro record
    rw [ht.records_iff, hu.records_iff]
  have hIndices : t.indices = u.indices := by
    apply Std.ExtTreeMap.ext_getElem?
    intro key
    apply Option.ext
    intro index
    exact (ht.lookup_iff key index).trans (hu.lookup_iff key index).symm
  have hNext : t.next = u.next := by
    by_cases hSome : records = []
    · rw [ht.next_of_nil hSome, hu.next_of_nil hSome]
    · obtain ⟨last, hLast, hLargest, hNext⟩ := ht.next_of_cons hSome
      obtain ⟨last', hLast', hLargest', hNext'⟩ := hu.next_of_cons hSome
      have hLe := hLargest last' hLast'
      have hGe := hLargest' last hLast
      omega
  calc t = ⟨t.name, t.indices, t.records, t.next, t.reserved, t.frontiers⟩ := rfl
    _ = ⟨u.name, u.indices, u.records, u.next, u.reserved, u.frontiers⟩ := by
      rw [hName, hIndices, hRecords, hNext, ht.reserved_eq, hu.reserved_eq, ht.frontiers_eq,
        hu.frontiers_eq]
    _ = u := rfl

/-- Records fit into an empty table if they are in range and go together. -/
theorem accommodates_new_iff {name : String} {records : List Record} :
    (new name).Accommodates records ↔ (∀ record ∈ records, record.index < Numeral.maxIndex) ∧
      ∀ a ∈ records, ∀ b ∈ records, a.Agrees b := by
  have hEmpty : (new name).toList = [] := rfl
  constructor
  · rintro ⟨hRange, hAgree⟩
    rw [hEmpty] at hRange hAgree
    exact ⟨fun record hRecord => (hRange record hRecord).resolve_left List.not_mem_nil, hAgree⟩
  · rintro ⟨hRange, hAgree⟩
    exact ⟨fun record hRecord => Or.inr (hRange record hRecord), hAgree⟩

theorem holds_of_installAll {name : String} {records : List Record} {t : Table}
    (hInstall : (new name).installAll records = (t, .ok ())) : t.Holds records := by
  have hNew := consistent_new name
  have hConsistent := hNew.installAll records
  have hFrame := (new name).installAll_frame records
  rw [hInstall] at hConsistent hFrame
  refine hConsistent.holds (fun record => ?_) hFrame.2.1 hFrame.2.2
  rw [(hNew.installAll_eq_ok hInstall).1]
  exact or_iff_right List.not_mem_nil

/-- A section can be read under any name, and then the table holds its records. -/
theorem exists_ofElement {e : Element} {records : List Record} (hSection : e.Section records)
    (name : String) : ∃ t, ofElement name e = .ok t ∧ t.name = name ∧ t.Holds records := by
  have hEntries : (e.findAll entryName).mapM (Record.ofElement name) = .ok records := by
    have hBounded := (List.forall₂_and_left _ _).mpr ⟨hSection.in_range, hSection.stored.flip⟩
    rw [mapM_eq_ok_iff_forall₂]
    exact hBounded.flip.imp fun _ _ hEntry =>
      Record.ofElement_eq_ok_iff.mpr ⟨hEntry.2, Nat.le_of_lt hEntry.1⟩
  have hInstall := (consistent_new name).installAll_of_accommodates
    (accommodates_new_iff.mpr ⟨hSection.in_range, hSection.agree⟩)
  have hRead := ofElement_eq_ok_iff.mpr ⟨records, hEntries, hInstall⟩
  exact ⟨_, hRead, (ofElement_frame hRead).1, holds_of_installAll hInstall⟩

/-- Reading a table: it succeeds exactly on a section, and the table holds the
records of the section. -/
theorem ofElement_eq_ok_iff_section {name : String} {e : Element} {t : Table} :
    ofElement name e = .ok t ↔ ∃ records, e.Section records ∧ t.name = name ∧ t.Holds records := by
  constructor
  · intro hRead
    obtain ⟨records, hEntries, hInstall⟩ := ofElement_eq_ok_iff.mp hRead
    have hAll := ((consistent_new name).installAll_iff records).mp (congrArg Prod.snd hInstall)
    obtain ⟨hRange, hAgree⟩ := accommodates_new_iff.mp hAll
    refine ⟨records, ⟨?_, hRange, hAgree⟩, (ofElement_frame hRead).1, holds_of_installAll hInstall⟩
    exact (mapM_eq_ok_iff_forall₂.mp hEntries).imp fun _ _ hEntry =>
      (Record.ofElement_eq_ok_iff.mp hEntry).1
  · rintro ⟨records, hSection, hName, hHolds⟩
    obtain ⟨fresh, hRead, hFresh, hFilled⟩ := exists_ofElement hSection name
    rw [hRead, hFilled.eq hHolds (hFresh.trans hName.symm)]

end Table

end ProgramIndex
