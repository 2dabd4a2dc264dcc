import ProgramIndex.Proofs.Table.Operation

/-!
What holds of a table after any run: the two maps are inverse to each other, the
counter stands right behind the last record, reserved indices are occupied, and
so is the index below every frontier. The last fact is what lets a rollback keep
the counter right. If a key is given the last index and the counter starts again at
zero, all this is lost, and only a little remains: each record knows its index, and
all indices are words.
-/

namespace ProgramIndex.Table

/-- The representation of a table is consistent. -/
structure Consistent (t : Table) : Prop where
  lookup_iff : ∀ (key : Key) (index : Nat),
    t.indices[key]? = some index ↔ t.records[index]? = some ⟨index, key⟩
  index_eq : ∀ (index : Nat) (record : Record),
    t.records[index]? = some record → record.index = index
  lt_next : ∀ index ∈ t.records, index < t.next
  next_filled : t.next ≠ 0 → t.next - 1 ∈ t.records
  reserved_filled : ∀ index ∈ t.reserved, index ∈ t.records
  ascending : t.frontiers.Pairwise (· ≤ ·)
  frontier_le : ∀ frontier ∈ t.frontiers, frontier ≤ t.next
  frontier_filled : ∀ frontier ∈ t.frontiers, frontier ≠ 0 → frontier - 1 ∈ t.records

/-- A table without records is consistent. -/
theorem consistent_new (name : String) : (new name).Consistent := by
  constructor <;> simp [new]

/-- A record has the index at which it is found. -/
theorem Consistent.eq_mk {t : Table} (h : t.Consistent) {index : Nat} {record : Record}
    (hRecord : t.records[index]? = some record) : record = ⟨index, record.key⟩ := by
  rw [← h.index_eq index record hRecord]

theorem Consistent.key_ne {t : Table} (h : t.Consistent) {key : Key}
    (hNew : t.lookup? key = none) {index : Nat} {record : Record}
    (hRecord : t.records[index]? = some record) : record.key ≠ key := by
  intro hKey
  have hStored := (h.lookup_iff key index).mpr (by rw [hRecord, h.eq_mk hRecord, hKey])
  rw [lookup?, hStored] at hNew
  cases hNew

/-- The next index is free: all records are below it. -/
theorem Consistent.next_free {t : Table} (h : t.Consistent) : t.records[t.next]? = none := by
  cases hRecord : t.records[t.next]? with
  | none => rfl
  | some record =>
      have hLess := h.lt_next t.next (mem_records_iff.mpr ⟨record, hRecord⟩)
      omega

theorem Consistent.next_eq_zero {t : Table} (h : t.Consistent) (hEmpty : t.records = ∅) :
    t.next = 0 := by
  by_cases hNext : t.next = 0
  · exact hNext
  · have hFilled := h.next_filled hNext
    rw [hEmpty] at hFilled
    exact absurd hFilled Std.ExtTreeMap.not_mem_empty

/-- The next index is the successor of the largest one that is occupied. -/
theorem Consistent.next_eq_succ {t : Table} (h : t.Consistent) (hRecords : t.records ≠ ∅) :
    ∃ last ∈ t.records, (∀ index ∈ t.records, index ≤ last) ∧ t.next = last + 1 := by
  have hPositive : t.next ≠ 0 := by
    intro hZero
    apply hRecords
    apply Std.ExtTreeMap.eq_empty_iff_forall_not_mem.mpr
    intro index hIndex
    have hLess := h.lt_next index hIndex
    omega
  refine ⟨t.next - 1, h.next_filled hPositive, ?_, by omega⟩
  intro index hIndex
  have hLess := h.lt_next index hIndex
  omega

/-- A new key at a free index keeps the table consistent, also where the index
lies in a gap below the counter. -/
theorem Consistent.insert {t : Table} (h : t.Consistent) (record : Record)
    (hFree : t.records[record.index]? = none) (hNew : t.lookup? record.key = none) :
    (t.insert record).Consistent where
  lookup_iff key index := by
    rw [insert_indices, insert_records]
    by_cases hKey : record.key = key <;> by_cases hIndex : record.index = index
    · subst hKey hIndex
      simp
    · -- The stored key stands nowhere else.
      subst hKey
      simp only [hIndex, if_true, if_false, Option.some.injEq]
      constructor
      · intro hFalse
        exact hFalse.elim
      · intro hRecord
        exact h.key_ne hNew hRecord rfl
    · -- The free index held no other key.
      subst hIndex
      simp only [hKey, if_true, if_false, Option.some.injEq]
      rw [h.lookup_iff, hFree]
      constructor
      · intro hNone
        cases hNone
      · intro hRecord
        exact absurd (congrArg Record.key hRecord) hKey
    · simp only [hKey, hIndex, if_false]
      exact h.lookup_iff key index
  index_eq index found hFound := by
    rw [insert_records] at hFound
    split at hFound
    · rename_i hIndex
      rw [← Option.some.inj hFound, hIndex]
    · exact h.index_eq index found hFound
  lt_next index hIndex := by
    simp only [Table.insert, Std.ExtTreeMap.mem_insert, Std.compare_eq_iff_eq] at hIndex ⊢
    rcases hIndex with hSame | hOld
    · omega
    · have hLess := h.lt_next index hOld
      omega
  next_filled hNext := by
    simp only [Table.insert, Std.ExtTreeMap.mem_insert, Std.compare_eq_iff_eq] at hNext ⊢
    by_cases hBeyond : t.next ≤ record.index
    · exact Or.inl (by omega)
    · have hFilled := h.next_filled (by omega)
      rw [show max t.next (record.index + 1) = t.next by omega]
      exact Or.inr hFilled
  reserved_filled index hReserved :=
    Std.ExtTreeMap.mem_insert.mpr (Or.inr (h.reserved_filled index hReserved))
  ascending := h.ascending
  frontier_le frontier hFrontier :=
    Nat.le_trans (h.frontier_le frontier hFrontier) (Nat.le_max_left _ _)
  frontier_filled frontier hFrontier hPositive :=
    Std.ExtTreeMap.mem_insert.mpr (Or.inr (h.frontier_filled frontier hFrontier hPositive))

/-- Interning keeps a table consistent while there is room for one more index. -/
theorem Consistent.intern {t : Table} (h : t.Consistent) {key : Key} (hRoom : t.HasRoom key) :
    (t.intern key).2.Consistent := by
  cases hLookup : t.lookup? key with
  | none =>
      rw [intern_of_room hRoom hLookup]
      exact h.insert ⟨t.next, key⟩ h.next_free hLookup
  | some index =>
      rw [intern_of_lookup hLookup]
      exact h

/-- The index of a key that was interned is occupied. -/
theorem Consistent.intern_mem {t : Table} (h : t.Consistent) (key : Key) :
    (t.intern key).1 ∈ (t.intern key).2.records := by
  cases hLookup : t.lookup? key with
  | none =>
      rw [intern_of_lookup_none hLookup]
      exact Std.ExtTreeMap.mem_insert_self
  | some index =>
      rw [intern_of_lookup hLookup]
      exact mem_records_iff.mpr ⟨_, (h.lookup_iff key index).mp hLookup⟩

/-- Reserving marks an index that is occupied by then. -/
theorem Consistent.reserve {t : Table} (h : t.Consistent) {key : Key} (hRoom : t.HasRoom key) :
    (t.reserve key).2.Consistent :=
  { h.intern hRoom with
    reserved_filled := by
      intro index hReserved
      rcases Std.ExtTreeSet.mem_insert.mp hReserved with hSame | hOld
      · rw [← Std.compare_eq_iff_eq.mp hSame]
        exact h.intern_mem key
      · exact (h.intern hRoom).reserved_filled index hOld }

/-- A record that is stored at its own index meets no other record and no other index. -/
theorem Consistent.install {t grown : Table} (h : t.Consistent) {record : Record}
    (hInstall : t.install record = .ok grown) : grown.Consistent := by
  rcases install_cases hInstall with ⟨_, -, -, rfl⟩ | ⟨hFree, hNew, -, rfl⟩
  · exact h
  · exact h.insert record hFree hNew

/-- A load that fails halfway keeps the table consistent as well. -/
theorem Consistent.installAll {t : Table} (h : t.Consistent) (entries : List Record) :
    (t.installAll entries).1.Consistent :=
  installAll_preserves (fun hPrior hInstall => hPrior.install hInstall) h entries

theorem Consistent.load {t : Table} (h : t.Consistent) (entries : List Record) :
    (t.load entries).1.Consistent := by
  unfold Table.load
  split
  · exact h
  · exact h.installAll entries

/-- A table that is read is consistent, whatever the entries are. -/
theorem consistent_of_ofElement {name : String} {e : Element} {t : Table}
    (hRead : ofElement name e = .ok t) : t.Consistent := by
  obtain ⟨entries, -, hInstall⟩ := ofElement_eq_ok_iff.mp hRead
  have hLoaded := (consistent_new name).installAll entries
  rwa [hInstall] at hLoaded

/-- The new checkpoint's frontier is the counter, above all older frontiers. -/
theorem Consistent.checkpoint {t : Table} (h : t.Consistent) : t.checkpoint.2.Consistent :=
  { h with
    ascending := by
      refine List.pairwise_append.mpr ⟨h.ascending, List.pairwise_singleton _ _, ?_⟩
      intro frontier hFrontier new hNew
      rw [List.mem_singleton.mp hNew]
      exact h.frontier_le frontier hFrontier
    frontier_le := by
      intro frontier hFrontier
      rcases List.mem_append.mp hFrontier with hOld | hNew
      · exact h.frontier_le frontier hOld
      · exact Nat.le_of_eq (List.mem_singleton.mp hNew)
    frontier_filled := by
      intro frontier hFrontier hPositive
      rcases List.mem_append.mp hFrontier with hOld | hNew
      · exact h.frontier_filled frontier hOld hPositive
      · rw [List.mem_singleton.mp hNew] at hPositive ⊢
        exact h.next_filled hPositive }

theorem Consistent.dropCheckpoint {t : Table} (h : t.Consistent) (token : Checkpoint) :
    (t.dropCheckpoint token).Consistent :=
  { h with
    ascending := h.ascending.sublist (List.take_sublist _ _)
    frontier_le := fun frontier hFrontier => h.frontier_le frontier (List.mem_of_mem_take hFrontier)
    frontier_filled := fun frontier hFrontier =>
      h.frontier_filled frontier (List.mem_of_mem_take hFrontier) }

/-- As the two maps are inverse to each other, removing the keys of the records that
are cut off leaves just the keys of the others. -/
theorem Consistent.discardFrom_indices {t : Table} (h : t.Consistent) (frontier : Nat) (key : Key)
    (index : Nat) :
    (t.discardFrom frontier).indices[key]? = some index ↔
      index < frontier ∧ t.indices[key]? = some index := by
  rw [discardFrom, getElem?_forgetKeys]
  by_cases hCut : key ∈
      ((t.records.filter fun index _ => frontier ≤ index).toList.map Prod.snd).map Record.key
  · obtain ⟨other, record, hAbove, hRecord, rfl⟩ := mem_keys_cut.mp hCut
    have hStored := (h.lookup_iff record.key other).mpr (h.eq_mk hRecord ▸ hRecord)
    rw [if_pos hCut, hStored]
    constructor
    · intro hNone
      cases hNone
    · rintro ⟨hBelow, hSame⟩
      exact absurd (Option.some.inj hSame ▸ hBelow) (Nat.not_lt.mpr hAbove)
  · rw [if_neg hCut]
    refine ⟨fun hStored => ⟨Nat.lt_of_not_le fun hAbove => ?_, hStored⟩, And.right⟩
    exact hCut (mem_keys_cut.mpr ⟨index, _, hAbove, (h.lookup_iff key index).mp hStored, rfl⟩)

/-- Discarding the records from a frontier on keeps the table consistent,
provided that the standing frontiers are not above it and that the index below
it is occupied. -/
theorem Consistent.discardFrom {t : Table} (h : t.Consistent) {frontier : Nat}
    (hFilled : frontier ≠ 0 → frontier - 1 ∈ t.records)
    (hAbove : ∀ older ∈ t.frontiers, older ≤ frontier) : (t.discardFrom frontier).Consistent where
  lookup_iff key index := by
    rw [h.discardFrom_indices, discardFrom_records]
    by_cases hBelow : index < frontier
    · simp only [hBelow, if_true, true_and]
      exact h.lookup_iff key index
    · simp only [hBelow, false_and, if_false]
      simp
  index_eq index record hRecord := by
    rw [discardFrom_records] at hRecord
    split at hRecord
    · exact h.index_eq index record hRecord
    · cases hRecord
  lt_next index hIndex := (mem_discardFrom.mp hIndex).1
  next_filled hNext := mem_discardFrom.mpr ⟨Nat.sub_one_lt hNext, hFilled hNext⟩
  reserved_filled index hReserved := by
    obtain ⟨hBelow, hOld⟩ := mem_discardFrom_reserved.mp hReserved
    exact mem_discardFrom.mpr ⟨hBelow, h.reserved_filled index hOld⟩
  ascending := h.ascending
  frontier_le := hAbove
  frontier_filled older hOlder hPositive := by
    have hLe := hAbove older hOlder
    exact mem_discardFrom.mpr ⟨by omega, h.frontier_filled older hOlder hPositive⟩

/-- A newer checkpoint has no smaller frontier than an older one. -/
theorem Consistent.frontier_mono {t : Table} (h : t.Consistent) {older newer f g : Nat}
    (hOrder : older ≤ newer) (hOlder : t.frontiers[older]? = some f)
    (hNewer : t.frontiers[newer]? = some g) : f ≤ g := by
  obtain ⟨hOlderLess, rfl⟩ := List.getElem?_eq_some_iff.mp hOlder
  obtain ⟨hNewerLess, rfl⟩ := List.getElem?_eq_some_iff.mp hNewer
  rcases Nat.lt_or_eq_of_le hOrder with hLess | hSame
  · exact List.pairwise_iff_getElem.mp h.ascending older newer hOlderLess hNewerLess hLess
  · subst hSame
    exact Nat.le_refl _

/-- A rollback keeps a table consistent, as the record below the frontier stays. -/
theorem Consistent.rollback {t : Table} (h : t.Consistent) {token : Checkpoint}
    (hStands : t.frontiers[token.depth]? = some token.frontier) :
    ((t.dropCheckpoint token).discardFrom token.frontier).Consistent := by
  refine (h.dropCheckpoint token).discardFrom ?_ ?_
  · exact h.frontier_filled token.frontier (List.mem_of_getElem? hStands)
  · intro older hOlder
    obtain ⟨position, hPosition⟩ := List.mem_iff_getElem?.mp hOlder
    rw [Table.dropCheckpoint, List.getElem?_take] at hPosition
    split at hPosition
    · rename_i hBelow
      exact h.frontier_mono (Nat.le_of_lt hBelow) hPosition hStands
    · cases hPosition

/-- Each operation keeps a table consistent, whether it succeeds or fails. -/
theorem Consistent.perform {t : Table} (h : t.Consistent) {op : Operation} (hFits : op.Fits t) :
    (t.perform op).Consistent := by
  cases op with
  | intern key => exact h.intern hFits
  | reserve key => exact h.reserve hFits
  | load entries => exact h.load entries
  | checkpoint => exact h.checkpoint
  | rollback token =>
      rw [perform_rollback]
      split
      · rename_i hStands
        exact h.rollback (stands_iff.mp hStands)
      · exact h
  | release token =>
      rw [perform_release]
      split
      · exact h.dropCheckpoint token
      · exact h
  | reset => exact consistent_new t.name
  | read e =>
      rcases t.perform_read_cases e with ⟨fresh, hRead, hFresh⟩ | ⟨-, hSame⟩
      · rw [hFresh]
        exact consistent_of_ofElement hRead
      · rw [hSame]
        exact h

/-- A run from a consistent table leads to a consistent table. -/
theorem Consistent.run {start t : Table} (h : start.Consistent) {ops : List Operation}
    (run : transitions.Run start ops t) : t.Consistent :=
  run.invariant Consistent h fun _ _ hKept hFits _ => hKept.perform hFits

/-! ### Where the counter may start again -/

/-- What no operation can spoil: every record stands at its own index, and the
indices, the counter and the frontiers are words. -/
structure Indexed (t : Table) : Prop where
  index_eq : ∀ (index : Nat) (record : Record),
    t.records[index]? = some record → record.index = index
  index_le : ∀ index ∈ t.records, index ≤ Numeral.maxIndex
  next_le : t.next ≤ Numeral.maxIndex
  frontier_le : ∀ frontier ∈ t.frontiers, frontier ≤ Numeral.maxIndex

theorem indexed_new (name : String) : (new name).Indexed := by
  constructor <;> simp [new]

/-- Storing a record at a word, with any counter that is a word. -/
theorem Indexed.put {t : Table} (h : t.Indexed) (record : Record) {next : Nat}
    (hIndex : record.index ≤ Numeral.maxIndex) (hNext : next ≤ Numeral.maxIndex)
    (indices : Std.ExtTreeMap Key Nat) :
    { t with
      indices := indices
      records := t.records.insert record.index record
      next := next : Table }.Indexed where
  index_eq index found hFound := by
    rw [Std.ExtTreeMap.getElem?_insert] at hFound
    split at hFound
    · rename_i hSame
      rw [← Option.some.inj hFound, Std.compare_eq_iff_eq.mp hSame]
    · exact h.index_eq index found hFound
  index_le index hMem := by
    rcases Std.ExtTreeMap.mem_insert.mp hMem with hSame | hOld
    · rw [← Std.compare_eq_iff_eq.mp hSame]
      exact hIndex
    · exact h.index_le index hOld
  next_le := hNext
  frontier_le := h.frontier_le

/-- A new index is a word also when the counter starts again. -/
theorem Indexed.intern {t : Table} (h : t.Indexed) (key : Key) : (t.intern key).2.Indexed := by
  cases hLookup : t.lookup? key with
  | none =>
      rw [intern_of_lookup_none hLookup]
      exact h.put ⟨t.next, key⟩ h.next_le
        (Nat.le_of_lt_succ (Nat.mod_lt _ (Nat.succ_pos _))) _
  | some index =>
      rw [intern_of_lookup hLookup]
      exact h

/-- The last index is never stored, and the counter moves up to it at most. -/
theorem Indexed.install {t grown : Table} (h : t.Indexed) {record : Record}
    (hInstall : t.install record = .ok grown) : grown.Indexed := by
  rcases install_cases hInstall with ⟨_, -, -, rfl⟩ | ⟨-, -, hRange, rfl⟩
  · exact h
  · exact h.put record (Nat.le_of_lt hRange) (Nat.max_le.mpr ⟨h.next_le, hRange⟩) _

theorem Indexed.installAll {t : Table} (h : t.Indexed) (entries : List Record) :
    (t.installAll entries).1.Indexed :=
  installAll_preserves (fun hPrior hInstall => hPrior.install hInstall) h entries

/-- A table that is read has no index beyond the last one. -/
theorem indexed_of_ofElement {name : String} {e : Element} {t : Table}
    (hRead : ofElement name e = .ok t) : t.Indexed := by
  obtain ⟨entries, -, hInstall⟩ := ofElement_eq_ok_iff.mp hRead
  have hLoaded := (indexed_new name).installAll entries
  rwa [hInstall] at hLoaded

theorem Indexed.dropCheckpoint {t : Table} (h : t.Indexed) (token : Checkpoint) :
    (t.dropCheckpoint token).Indexed :=
  { h with
    frontier_le := fun frontier hFrontier =>
      h.frontier_le frontier (List.mem_of_mem_take hFrontier) }

theorem Indexed.discardFrom {t : Table} (h : t.Indexed) {frontier : Nat}
    (hFrontier : frontier ≤ Numeral.maxIndex) : (t.discardFrom frontier).Indexed where
  index_eq index record hRecord := by
    rw [discardFrom_records] at hRecord
    split at hRecord
    · exact h.index_eq index record hRecord
    · cases hRecord
  index_le index hMem := h.index_le index (mem_discardFrom.mp hMem).2
  next_le := hFrontier
  frontier_le := h.frontier_le

/-- Each operation keeps all indices words, with room for another one or without. -/
theorem Indexed.perform {t : Table} (h : t.Indexed) (op : Operation) : (t.perform op).Indexed := by
  cases op with
  | intern key => exact h.intern key
  | reserve key => exact { h.intern key with }
  | load entries =>
      rw [Table.perform, Table.load]
      split
      · exact h
      · exact h.installAll entries
  | checkpoint =>
      exact { h with
        frontier_le := by
          intro frontier hFrontier
          rcases List.mem_append.mp hFrontier with hOld | hNew
          · exact h.frontier_le frontier hOld
          · exact Nat.le_trans (Nat.le_of_eq (List.mem_singleton.mp hNew)) h.next_le }
  | rollback token =>
      rw [perform_rollback]
      split
      · rename_i hStands
        have hFrontier := h.frontier_le token.frontier
          (List.mem_of_getElem? (stands_iff.mp hStands))
        exact (h.dropCheckpoint token).discardFrom hFrontier
      · exact h
  | release token =>
      rw [perform_release]
      split
      · exact h.dropCheckpoint token
      · exact h
  | reset => exact indexed_new t.name
  | read e =>
      rcases t.perform_read_cases e with ⟨fresh, hRead, hFresh⟩ | ⟨-, hSame⟩
      · rw [hFresh]
        exact indexed_of_ofElement hRead
      · rw [hSame]
        exact h

/-- A run in which no key is given the last index is one of all runs. -/
theorem wrapping_of_run {start t : Table} {ops : List Operation}
    (run : transitions.Run start ops t) : wrapping.Run start ops t :=
  run.weaken fun _ _ _ => trivial

/-- All indices are words after every run. -/
theorem indexed_of_run {name : String} {ops : List Operation} {t : Table}
    (run : wrapping.Run (new name) ops t) : t.Indexed :=
  run.invariant Indexed (indexed_new name) fun _ op hKept _ _ => hKept.perform op

/-- A table keeps its name. -/
theorem name_of_run {name : String} {ops : List Operation} {t : Table}
    (run : wrapping.Run (new name) ops t) : t.name = name :=
  run.invariant (fun s => s.name = name) rfl fun s op hName _ _ => (s.name_perform op).trans hName

/-! ### Representation -/

/-- What a reader of a table can rely on. The maps are inverse to each other, the
counter is one above the largest occupied index or zero, reserved indices are
occupied, and the frontiers ascend up to the counter, each with an occupied index
right below it. -/
structure Represented (t : Table) : Prop where
  lookup_iff : ∀ (key : Key) (index : Nat), t.indices[key]? = some index ↔
    ∃ record, t.records[index]? = some record ∧ record.key = key ∧ record.index = index
  found_by_key : ∀ (index : Nat) (record : Record), t.records[index]? = some record →
    t.indices[record.key]? = some index
  next_of_empty : t.records = ∅ → t.next = 0
  next_of_filled : t.records ≠ ∅ →
    ∃ last ∈ t.records, (∀ index ∈ t.records, index ≤ last) ∧ t.next = last + 1
  reserved_filled : ∀ index ∈ t.reserved, index ∈ t.records
  frontiers_ascend : t.frontiers.Pairwise (· ≤ ·)
  frontier_le : ∀ frontier ∈ t.frontiers, frontier ≤ t.next
  frontier_filled : ∀ frontier ∈ t.frontiers, frontier ≠ 0 → frontier - 1 ∈ t.records

/-- Every run from the empty table leads to a table that is represented as it
should be, whichever of its operations have failed. -/
theorem represented_of_run {name : String} {ops : List Operation} {t : Table}
    (run : transitions.Run (new name) ops t) : t.Represented := by
  have h := (consistent_new name).run run
  exact {
    lookup_iff := by
      intro key index
      rw [h.lookup_iff]
      constructor
      · intro hRecord
        exact ⟨_, hRecord, rfl, rfl⟩
      · rintro ⟨record, hRecord, rfl, -⟩
        rw [hRecord, ← h.eq_mk hRecord]
    found_by_key := by
      intro index record hRecord
      rw [h.lookup_iff, hRecord, ← h.eq_mk hRecord]
    next_of_empty := h.next_eq_zero
    next_of_filled := h.next_eq_succ
    reserved_filled := h.reserved_filled
    frontiers_ascend := h.ascending
    frontier_le := h.frontier_le
    frontier_filled := h.frontier_filled }

/-- A sparse load that stops at its second entry, a checkpoint above the gap and
a rollback to it leave the table represented as it should be. -/
theorem represented_after_partial_load :
    ∃ t, transitions.Run (new "typ-table")
        [.rollback ⟨0, 4⟩, .reserve ⟨["tint"], []⟩, .checkpoint,
          .load [⟨3, ⟨[], []⟩⟩, ⟨3, ⟨[], [7]⟩⟩]] t ∧
      t.next = 4 ∧ t.size = 1 ∧ t.Represented := by
  have run := ((((Transitions.RunWithin.refl : transitions.Run (new "typ-table") [] _).step
    (.load [⟨3, ⟨[], []⟩⟩, ⟨3, ⟨[], [7]⟩⟩]) trivial trivial).step
    .checkpoint trivial trivial).step
    (.reserve ⟨["tint"], []⟩) (fun _ => by decide +kernel) trivial).step
    (.rollback ⟨0, 4⟩) trivial trivial
  exact ⟨_, run, by decide +kernel, by decide +kernel, represented_of_run run⟩

end ProgramIndex.Table
