import ProgramIndex.Proofs.Dictionary.Operation
import ProgramIndex.Proofs.Table.Consistency

/-!
The dictionaries that can come about. What is known of the tables of a run is known
of the tables of such a dictionary.
-/

namespace ProgramIndex

/-- The kinds are told apart by the names of their tables. -/
theorem Kind.find?_tableName (kind : Kind) :
    Kind.all.find? (fun other => decide (other.tableName = kind.tableName)) = some kind := by
  cases kind <;> decide

namespace Dictionary

/-- Every table has a history of its own: it has come about from the empty table
of its name by operations, through the dictionary or on the table itself. Its counter
may have started again at zero. -/
def Built (d : Dictionary) : Prop :=
  ∀ kind, ∃ tableOps, Table.wrapping.Run (.new kind.tableName) tableOps (d.table kind)

/-- Every table has a history of its own, and no key has been given the last index. -/
def Reached (d : Dictionary) : Prop :=
  ∀ kind, ∃ tableOps, Table.transitions.Run (.new kind.tableName) tableOps (d.table kind)

/-- Whatever happens to a dictionary happens to its tables one by one. -/
theorem built_of_run {registry : Registry} {ops : List Operation} {d : Dictionary}
    (run : wrapping.Run (new registry) ops d) : d.Built := by
  intro kind
  rw [← table_new registry]
  exact exists_wrapping_run_table run kind

/-- So it does while no key is given the last index. -/
theorem reached_of_run {registry : Registry} {ops : List Operation} {d : Dictionary}
    (run : transitions.Run (new registry) ops d) : d.Reached := by
  intro kind
  rw [← table_new registry]
  exact exists_run_table run kind

theorem Reached.built {d : Dictionary} (hReached : d.Reached) : d.Built := by
  intro kind
  obtain ⟨tableOps, tableRun⟩ := hReached kind
  exact ⟨tableOps, Table.wrapping_of_run tableRun⟩

/-! ### Every dictionary -/

theorem Built.indexed {d : Dictionary} (hBuilt : d.Built) (kind : Kind) :
    (d.table kind).Indexed := by
  obtain ⟨tableOps, tableRun⟩ := hBuilt kind
  exact Table.indexed_of_run tableRun

theorem Built.name_eq {d : Dictionary} (hBuilt : d.Built) (kind : Kind) :
    (d.table kind).name = kind.tableName := by
  obtain ⟨tableOps, tableRun⟩ := hBuilt kind
  exact Table.name_of_run tableRun

/-- A table is found by its name. -/
theorem tableNamed?_of_names {d : Dictionary}
    (hNames : ∀ kind, (d.table kind).name = kind.tableName) (kind : Kind) :
    d.tableNamed? kind.tableName = some (d.table kind) := by
  have hSame : (fun other => decide ((d.table other).name = kind.tableName)) =
      fun other => decide (other.tableName = kind.tableName) := by
    funext other
    rw [hNames]
  have hMap : d.tableNamed? kind.tableName =
      (Kind.all.find? fun other => decide ((d.table other).name = kind.tableName)).map d.table :=
    List.find?_map
  rw [hMap, hSame, kind.find?_tableName, Option.map_some]

/-! ### Where no key has been given the last index -/

theorem Reached.consistent {d : Dictionary} (hReached : d.Reached) (kind : Kind) :
    (d.table kind).Consistent := by
  obtain ⟨tableOps, tableRun⟩ := hReached kind
  exact (Table.consistent_new kind.tableName).run tableRun

theorem Reached.name_eq {d : Dictionary} (hReached : d.Reached) (kind : Kind) :
    (d.table kind).name = kind.tableName :=
  hReached.built.name_eq kind

theorem Reached.next_le {d : Dictionary} (hReached : d.Reached) (kind : Kind) :
    (d.table kind).next ≤ Numeral.maxIndex :=
  (hReached.built.indexed kind).next_le

/-- No record has the last index. -/
theorem Reached.lt_maxIndex {d : Dictionary} (hReached : d.Reached) {kind : Kind} {index : Nat}
    (hIndex : index ∈ (d.table kind).records) : index < Numeral.maxIndex :=
  Nat.lt_of_lt_of_le ((hReached.consistent kind).lt_next index hIndex) (hReached.next_le kind)

/-- An operation within the range of indices prolongs the history of each table. -/
theorem Reached.perform {d : Dictionary} (hReached : d.Reached) {op : Operation}
    (hFits : op.Fits d) : (d.perform op).Reached := by
  intro kind
  obtain ⟨earlier, first⟩ := hReached kind
  obtain ⟨later, second⟩ := exists_run_perform hFits kind
  exact ⟨later ++ earlier, first.append second⟩

end Dictionary

end ProgramIndex
