import ProgramIndex.Proofs.Dictionary.Reachability
import ProgramIndex.Proofs.Table.Section

/-!
Replacing a dictionary by what a document stores. All sections are read before the
first table is replaced, so a document with a faulty section changes nothing, and
after a good one nothing is left of what was there before.
-/

namespace ProgramIndex

/-- The element has a section for each kind, the first child with the name of the
kind's table, and the sections store these records. -/
def Element.Sections (root : Element) (records : Kind → List Record) : Prop :=
  ∀ kind, ∃ e, root.find? kind.tableName = some e ∧ e.Section (records kind)

namespace Dictionary

theorem readSection_eq_ok_iff {root : Element} {t fresh : Table} :
    readSection root t = .ok fresh ↔
      ∃ e, root.find? t.name = some e ∧ Table.ofElement t.name e = .ok fresh := by
  unfold readSection
  cases root.find? t.name with
  | none => simp
  | some e => simp

/-- Reading succeeds exactly if all sections are there and well-formed, and then the
tables hold the records of their sections. -/
theorem Built.read_eq_ok_iff {d loaded : Dictionary} (hBuilt : d.Built) {root : Element} :
    d.read root = (loaded, .ok ()) ↔ loaded.registry = d.registry ∧
      ∃ records, root.Sections records ∧
        ∀ kind, (loaded.table kind).name = kind.tableName ∧
          (loaded.table kind).Holds (records kind) := by
  rw [Dictionary.read_eq_ok_iff]
  refine and_congr_right fun _ => ?_
  simp only [readSection_eq_ok_iff, Table.ofElement_eq_ok_iff_section, hBuilt.name_eq]
  constructor
  · intro hSections
    have hStored : ∀ kind, ∃ records, (∃ e, root.find? kind.tableName = some e ∧
        e.Section records) ∧ (loaded.table kind).name = kind.tableName ∧
          (loaded.table kind).Holds records := by
      intro kind
      obtain ⟨e, hFound, records, hSection, hHolds⟩ := hSections kind
      exact ⟨records, ⟨e, hFound, hSection⟩, hHolds⟩
    obtain ⟨records, hRecords⟩ := Classical.skolem.mp hStored
    exact ⟨records, fun kind => (hRecords kind).1, fun kind => (hRecords kind).2⟩
  · rintro ⟨records, hSections, hTables⟩ kind
    obtain ⟨e, hFound, hSection⟩ := hSections kind
    exact ⟨e, hFound, records kind, hSection, hTables kind⟩

/-- Sections that are there and well-formed can be read by any dictionary. -/
theorem Built.exists_read {d : Dictionary} (hBuilt : d.Built) {root : Element}
    {records : Kind → List Record} (hSections : root.Sections records) :
    ∃ loaded, d.read root = (loaded, .ok ()) ∧ loaded.registry = d.registry ∧
      ∀ kind, (loaded.table kind).name = kind.tableName ∧
        (loaded.table kind).Holds (records kind) := by
  have hEach : ∀ kind, ∃ t : Table, t.name = kind.tableName ∧ t.Holds (records kind) := by
    intro kind
    obtain ⟨e, -, hSection⟩ := hSections kind
    obtain ⟨t, -, hTable⟩ := Table.exists_ofElement hSection kind.tableName
    exact ⟨t, hTable⟩
  obtain ⟨tables, hTables⟩ := Classical.skolem.mp hEach
  obtain ⟨loaded, hRegistry, hLoaded⟩ := exists_table_eq d.registry tables
  have hHolds : ∀ kind, (loaded.table kind).name = kind.tableName ∧
      (loaded.table kind).Holds (records kind) := by
    intro kind
    rw [hLoaded]
    exact hTables kind
  exact ⟨loaded, hBuilt.read_eq_ok_iff.mpr ⟨hRegistry, records, hSections, hHolds⟩, hRegistry,
    hHolds⟩

/-- Reading a document into a dictionary, whatever has been done to it before. It
succeeds exactly if there is a section for every table and each of them is
well-formed. Then every table holds the records of its section and nothing else, and
any other dictionary would have come to the same tables. Otherwise the call that fails
leaves the dictionary as it was. -/
theorem read_allOrNothing_of_built {d : Dictionary} (hBuilt : d.Built) (root : Element) :
    ((d.read root).2 = .ok () ↔ ∃ records, root.Sections records) ∧
    (∀ records, root.Sections records → ∃ loaded, d.read root = (loaded, .ok ()) ∧
      loaded.registry = d.registry ∧ (∀ kind, (loaded.table kind).Holds (records kind)) ∧
      ∀ other : Dictionary, other.Built → ∃ again, other.read root = (again, .ok ()) ∧
        ∀ kind, again.table kind = loaded.table kind) ∧
    ((∀ records, ¬ root.Sections records) → ∃ fault, d.read root = (d, .error fault)) := by
  have hIff : (d.read root).2 = .ok () ↔ ∃ records, root.Sections records := by
    constructor
    · intro hOk
      obtain ⟨-, records, hSections, -⟩ := hBuilt.read_eq_ok_iff.mp (Prod.ext rfl hOk)
      exact ⟨records, hSections⟩
    · rintro ⟨records, hSections⟩
      obtain ⟨loaded, hRead, -⟩ := hBuilt.exists_read hSections
      rw [hRead]
  refine ⟨hIff, fun records hSections => ?_, fun hNone => ?_⟩
  · obtain ⟨loaded, hRead, hRegistry, hHolds⟩ := hBuilt.exists_read hSections
    refine ⟨loaded, hRead, hRegistry, fun kind => (hHolds kind).2, fun other hOther => ?_⟩
    obtain ⟨again, hAgain, -, hSame⟩ := hOther.exists_read hSections
    exact ⟨again, hAgain, fun kind =>
      (hSame kind).2.eq (hHolds kind).2 ((hSame kind).1.trans (hHolds kind).1.symm)⟩
  · rcases d.read_cases root with ⟨hOk, -⟩ | ⟨fault, hFault, hSame⟩
    · obtain ⟨records, hSections⟩ := hIff.mp hOk
      exact absurd hSections (hNone records)
    · exact ⟨fault, Prod.ext hSame hFault⟩

/-- Two documents that have sections for all tables are read by a dictionary with a
record and a standing checkpoint. In the first one the last section repeats a record
in another form, and it is accepted; in the second one it gives a record two
indices, and everything stays as it was. -/
theorem read_allOrNothing_over_checkpoint :
    ∃ (d loaded : Dictionary) (document : List Element → Element) (good bad : Element)
      (records : Kind → List Record),
      wrapping.Run (new .standard)
        [.indexAttributes [], .checkpointAll, .index .typ ⟨["tvoid"], []⟩] d ∧ d.Built ∧
      d.size = 2 ∧ (d.table .typ).frontiers = [1] ∧
      (document = fun typs => ⟨rootName, [], Kind.all.map fun kind =>
        ⟨kind.tableName, [], if kind = .typ then typs else []⟩⟩) ∧
      good = document [⟨"n", [("ix", "9"), ("t", "tvoid")], []⟩,
        ⟨"n", [("a", ""), ("t", "tvoid"), ("ix", "+09")], []⟩,
        ⟨"n", [("ix", "4"), ("t", "tptr"), ("a", "9, 0")], []⟩] ∧
      bad = document [⟨"n", [("ix", "9"), ("t", "tvoid")], []⟩,
        ⟨"n", [("ix", "4"), ("t", "tvoid")], []⟩] ∧
      good.Sections records ∧ d.read good = (loaded, .ok ()) ∧
      (∀ kind, (loaded.table kind).Holds (records kind)) ∧ (loaded.table .typ).next = 10 ∧
      loaded.size = 2 ∧ (∀ other, ¬ bad.Sections other) ∧
      ∃ fault, d.read bad = (d, .error fault) := by
  have run := (((Transitions.RunWithin.refl : wrapping.Run (new .standard) [] _).step
    (.index .typ ⟨["tvoid"], []⟩) trivial trivial).step
    .checkpointAll trivial trivial).step
    (.indexAttributes []) trivial trivial
  have hGood := read_allOrNothing_of_built (built_of_run run) ⟨rootName, [],
    Kind.all.map fun kind => ⟨kind.tableName, [], if kind = .typ then
      [⟨"n", [("ix", "9"), ("t", "tvoid")], []⟩,
        ⟨"n", [("a", ""), ("t", "tvoid"), ("ix", "+09")], []⟩,
        ⟨"n", [("ix", "4"), ("t", "tptr"), ("a", "9, 0")], []⟩] else []⟩⟩
  have hBad := read_allOrNothing_of_built (built_of_run run) ⟨rootName, [],
    Kind.all.map fun kind => ⟨kind.tableName, [], if kind = .typ then
      [⟨"n", [("ix", "9"), ("t", "tvoid")], []⟩,
        ⟨"n", [("ix", "4"), ("t", "tvoid")], []⟩] else []⟩⟩
  obtain ⟨records, hSections⟩ := hGood.1.mp rfl
  obtain ⟨loaded, hRead, -, hHolds, -⟩ := hGood.2.1 records hSections
  have hLoaded : loaded = _ := (congrArg Prod.fst hRead).symm
  have hNone := not_exists.mp fun hExists => nomatch hBad.1.mpr hExists
  exact ⟨_, loaded, _, _, _, records, run, built_of_run run, by decide +kernel,
    by decide +kernel, rfl, rfl, rfl, hSections, hRead, hHolds, by rw [hLoaded]; decide +kernel,
    by rw [hLoaded]; decide +kernel, hNone, hBad.2.2 hNone⟩

end Dictionary

end ProgramIndex
