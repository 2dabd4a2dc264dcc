import ProgramIndex.Proofs.Run
import ProgramIndex.Table.Codec

/-!
The operations that can change a table, and the runs they make up. A table that
is reached from an empty one has one of these runs behind it.
-/

namespace ProgramIndex.Table

/-- The uses of a table that can change it. Tokens are plain values, so a
rollback or a release may be asked for with any token, taken or made up. -/
inductive Operation where
  | intern (key : Key)
  | reserve (key : Key)
  | load (entries : List Record)
  | checkpoint
  | rollback (token : Checkpoint)
  | release (token : Checkpoint)
  | reset
  | read (e : Element)

/-- The table after an operation, whether it succeeds or fails. A load that
fails halfway leaves the records before the faulty one behind. -/
def perform (t : Table) : Operation → Table
  | .intern key => (t.intern key).2
  | .reserve key => (t.reserve key).2
  | .load entries => (t.load entries).1
  | .checkpoint => t.checkpoint.2
  | .rollback token => (t.rollback token).1
  | .release token => (t.release token).1
  | .reset => t.reset
  | .read e => (t.read e).1

/-- A key that is not stored yet needs an index below the last one, for the counter
to move beyond it. -/
def HasRoom (t : Table) (key : Key) : Prop :=
  t.lookup? key = none → t.next < Numeral.maxIndex

/-- Indices are 64-bit words. An operation fits if it gives no key the last index.
Only interning can do so: a load refuses that index. -/
def Operation.Fits (t : Table) : Operation → Prop
  | .intern key => t.HasRoom key
  | .reserve key => t.HasRoom key
  | _ => True

/-- Tables whose counter never gets beyond its last value. -/
def transitions : Transitions Table Operation :=
  ⟨perform, Operation.Fits⟩

/-- Tables whose counter may start again at zero. -/
def wrapping : Transitions Table Operation :=
  ⟨perform, fun _ _ => True⟩

/-! ### Lookups -/

theorem insert_indices (t : Table) (record : Record) (key : Key) :
    (t.insert record).indices[key]? =
      if record.key = key then some record.index else t.indices[key]? := by
  simp only [insert, Std.ExtTreeMap.getElem?_insert, Std.compare_eq_iff_eq]

theorem insert_records (t : Table) (record : Record) (index : Nat) :
    (t.insert record).records[index]? =
      if record.index = index then some record else t.records[index]? := by
  simp only [insert, Std.ExtTreeMap.getElem?_insert, Std.compare_eq_iff_eq]

/-- Removing the keys of some records, one after the other. -/
theorem getElem?_forgetKeys (indices : Std.ExtTreeMap Key Nat) (cut : List Record) (key : Key) :
    (forgetKeys indices cut)[key]? =
      if key ∈ cut.map Record.key then none else indices[key]? := by
  unfold forgetKeys
  induction cut generalizing indices with
  | nil => rfl
  | cons record rest ih =>
      rw [List.foldl_cons, ih, List.map_cons, Std.ExtTreeMap.getElem?_erase]
      by_cases hRest : key ∈ rest.map Record.key
      · rw [if_pos hRest, if_pos (List.mem_cons_of_mem _ hRest)]
      · simp only [hRest, if_false, List.mem_cons, or_false, Std.compare_eq_iff_eq,
          @eq_comm _ record.key]

/-- A key is discarded if one of the records from the frontier on has it. -/
theorem mem_keys_cut {t : Table} {frontier : Nat} {key : Key} :
    key ∈ ((t.records.filter fun index _ => frontier ≤ index).toList.map Prod.snd).map Record.key ↔
      ∃ (index : Nat) (record : Record), frontier ≤ index ∧ t.records[index]? = some record ∧
        record.key = key := by
  simp only [List.map_map, List.mem_map, Function.comp_apply, Prod.exists,
    Std.ExtTreeMap.mem_toList_iff_getElem?_eq_some, Std.ExtTreeMap.getElem?_filter',
    Option.filter_eq_some_iff, decide_eq_true_eq]
  exact exists_congr fun index => exists_congr fun record =>
    ⟨fun h => ⟨h.1.2, h.1.1, h.2⟩, fun h => ⟨⟨h.2.1, h.1⟩, h.2.2⟩⟩

theorem discardFrom_records (t : Table) (frontier index : Nat) :
    (t.discardFrom frontier).records[index]? =
      if index < frontier then t.records[index]? else none := by
  simp only [discardFrom, Std.ExtTreeMap.getElem?_filter']
  split <;> cases t.records[index]? <;> simp_all

theorem mem_records_iff {t : Table} {index : Nat} :
    index ∈ t.records ↔ ∃ record, t.records[index]? = some record := by
  rw [Std.ExtTreeMap.mem_iff_isSome_getElem?, Option.isSome_iff_exists]

/-- A record is retrieved exactly if it is stored. -/
theorem retrieve_eq_ok_iff {t : Table} {index : Nat} {record : Record} :
    t.retrieve index = .ok record ↔ t.records[index]? = some record := by
  unfold retrieve
  cases t.records[index]? <;> simp

/-- A missing index is the only reason for which a record is not retrieved. -/
theorem retrieve_eq_error_iff {t : Table} {index : Nat} {fault : Fault} :
    t.retrieve index = .error fault ↔
      index ∉ t.records ∧ fault = .missingIndex t.name index t.size := by
  rw [mem_records_iff, retrieve]
  cases t.records[index]? with
  | none => simp [eq_comm]
  | some record => simp

/-- The records below the frontier are left. -/
theorem mem_discardFrom {t : Table} {frontier index : Nat} :
    index ∈ (t.discardFrom frontier).records ↔ index < frontier ∧ index ∈ t.records := by
  rw [mem_records_iff, mem_records_iff, discardFrom_records]
  by_cases hBelow : index < frontier
  · simp only [hBelow, if_true, true_and]
  · simp [hBelow]

theorem mem_discardFrom_reserved {t : Table} {frontier index : Nat} :
    index ∈ (t.discardFrom frontier).reserved ↔ index < frontier ∧ index ∈ t.reserved := by
  simp only [discardFrom, Std.ExtTreeSet.mem_filter, Std.ExtTreeSet.get_eq, decide_eq_true_eq,
    exists_prop, and_comm]

/-- A key that is stored keeps its index, and nothing is changed. -/
theorem intern_of_lookup {t : Table} {key : Key} {index : Nat}
    (hStored : t.lookup? key = some index) : t.intern key = (index, t) := by
  simp only [intern, hStored]

/-- A key that is not stored gets the next index, whatever that is. -/
theorem intern_of_lookup_none {t : Table} {key : Key} (hNew : t.lookup? key = none) :
    t.intern key = (t.next, t.allocate key) := by
  simp only [intern, hNew]

/-- Below its last value the counter simply moves on by one. -/
theorem allocate_of_lt {t : Table} (hNext : t.next < Numeral.maxIndex) (key : Key) :
    t.allocate key = t.insert ⟨t.next, key⟩ := by
  have hWord : Numeral.nextWord t.next = t.next + 1 := Nat.mod_eq_of_lt (Nat.succ_lt_succ hNext)
  rw [allocate, insert, hWord, Nat.max_eq_right (Nat.le_succ t.next)]

/-- Where there is room, a key that is not stored yet comes last. -/
theorem intern_of_room {t : Table} {key : Key} (hRoom : t.HasRoom key)
    (hNew : t.lookup? key = none) : t.intern key = (t.next, t.insert ⟨t.next, key⟩) := by
  rw [intern_of_lookup_none hNew, allocate_of_lt (hRoom hNew)]

theorem allocate_records (t : Table) (key : Key) (index : Nat) :
    (t.allocate key).records[index]? =
      if t.next = index then some ⟨t.next, key⟩ else t.records[index]? := by
  simp only [allocate, Std.ExtTreeMap.getElem?_insert, Std.compare_eq_iff_eq]

/-- Interning gives out no index but the one that the counter has. -/
theorem mem_records_intern {t : Table} {key : Key} {index : Nat}
    (hIndex : index ∈ (t.intern key).2.records) : index = t.next ∨ index ∈ t.records := by
  cases hLookup : t.lookup? key with
  | none =>
      rw [intern_of_lookup_none hLookup] at hIndex
      exact (Std.ExtTreeMap.mem_insert.mp hIndex).imp
        (fun hSame => (Std.compare_eq_iff_eq.mp hSame).symm) id
  | some found =>
      rw [intern_of_lookup hLookup] at hIndex
      exact Or.inr hIndex

/-- Interning leaves the name of the table and its checkpoints alone. -/
theorem intern_frame (t : Table) (key : Key) :
    (t.intern key).2.name = t.name ∧ (t.intern key).2.frontiers = t.frontiers := by
  cases hLookup : t.lookup? key with
  | none =>
      rw [intern_of_lookup_none hLookup]
      exact ⟨rfl, rfl⟩
  | some index =>
      rw [intern_of_lookup hLookup]
      exact ⟨rfl, rfl⟩

theorem intern_reserved (t : Table) (key : Key) : (t.intern key).2.reserved = t.reserved := by
  cases hLookup : t.lookup? key with
  | none =>
      rw [intern_of_lookup_none hLookup]
      rfl
  | some index => rw [intern_of_lookup hLookup]

/-- Where there is room, interning does not lower the counter. -/
theorem next_le_intern {t : Table} {key : Key} (hRoom : t.HasRoom key) :
    t.next ≤ (t.intern key).2.next := by
  cases hLookup : t.lookup? key with
  | none =>
      rw [intern_of_room hRoom hLookup]
      exact Nat.le_max_left _ _
  | some index => exact Nat.le_of_eq (by rw [intern_of_lookup hLookup])

/-- What it takes to store a record: the same record is there already, or its
index and its key are both free and the counter can move beyond it. -/
theorem install_cases {t grown : Table} {record : Record}
    (hInstall : t.install record = .ok grown) :
    (∃ existing, t.records[record.index]? = some existing ∧ existing.key = record.key ∧
      grown = t) ∨
    (t.records[record.index]? = none ∧ t.lookup? record.key = none ∧
      record.index < Numeral.maxIndex ∧ grown = t.insert record) := by
  unfold install at hInstall
  split at hInstall
  · rename_i existing hExisting
    split at hInstall
    · rename_i hSame
      exact Or.inl ⟨existing, hExisting, hSame, (Except.ok.inj hInstall).symm⟩
    · split at hInstall <;> cases hInstall
  · cases hInstall
  · rename_i hFree hNew
    split at hInstall
    · rename_i hRange
      exact Or.inr ⟨hFree, hNew, hRange, (Except.ok.inj hInstall).symm⟩
    · cases hInstall

/-- By induction over the entries: what each record that is stored preserves, a load
preserves as well, also where it stops at a fault. -/
theorem installAll_preserves {P : Table → Prop}
    (hStep : ∀ {t grown : Table} {record : Record}, P t → t.install record = .ok grown → P grown)
    {t : Table} (h : P t) (entries : List Record) : P (t.installAll entries).1 := by
  induction entries generalizing t with
  | nil => exact h
  | cons record rest ih =>
      unfold installAll
      cases hInstall : t.install record with
      | error fault => exact h
      | ok grown => exact ih (hStep h hInstall)

/-- Storing records touches neither the name nor the reserved indices nor the
checkpoints. -/
theorem installAll_frame (t : Table) (entries : List Record) :
    (t.installAll entries).1.name = t.name ∧
      (t.installAll entries).1.reserved = t.reserved ∧
      (t.installAll entries).1.frontiers = t.frontiers := by
  refine installAll_preserves (P := fun s =>
    s.name = t.name ∧ s.reserved = t.reserved ∧ s.frontiers = t.frontiers) ?_ ⟨rfl, rfl, rfl⟩ entries
  intro s grown record hFrame hInstall
  rcases install_cases hInstall with ⟨_, -, -, rfl⟩ | ⟨-, -, -, rfl⟩
  · exact hFrame
  · exact hFrame

/-- Nothing is loaded while a checkpoint stands. -/
theorem load_of_checkpoint {t : Table} (hStanding : t.frontiers ≠ []) (entries : List Record) :
    t.load entries = (t, .error (.checkpointActive t.name)) := by
  have hCheckpoint : t.hasCheckpoint = true := by
    simpa [hasCheckpoint] using hStanding
  simp only [load, hCheckpoint, if_true]

/-- Loading leaves the name of the table and its checkpoints alone, whether it succeeds or
fails. -/
theorem load_frame (t : Table) (entries : List Record) :
    (t.load entries).1.name = t.name ∧ (t.load entries).1.frontiers = t.frontiers := by
  unfold load
  split
  · exact ⟨rfl, rfl⟩
  · exact ⟨(t.installAll_frame entries).1, (t.installAll_frame entries).2.2⟩

/-- What reading an element amounts to: the entries are read, and then they are
stored in a table of the given name, without a fault. -/
theorem ofElement_eq_ok_iff {name : String} {e : Element} {t : Table} :
    ofElement name e = .ok t ↔
      ∃ entries, (e.findAll entryName).mapM (Record.ofElement name) = .ok entries ∧
        (new name).installAll entries = (t, .ok ()) := by
  have hLoad : ∀ entries, (new name).load entries = (new name).installAll entries := by
    intro entries
    rfl
  unfold ofElement
  cases (e.findAll entryName).mapM (Record.ofElement name) with
  | error fault => simp [bind, Except.bind]
  | ok entries =>
      simp only [bind, Except.bind, hLoad, Except.ok.injEq, exists_eq_left']
      rcases (new name).installAll entries with ⟨loaded, result⟩
      cases result <;> simp

/-- A table that is read has no checkpoints and reserves nothing. -/
theorem ofElement_frame {name : String} {e : Element} {t : Table}
    (hRead : ofElement name e = .ok t) :
    t.name = name ∧ t.reserved = ∅ ∧ t.frontiers = [] := by
  obtain ⟨entries, -, hInstall⟩ := ofElement_eq_ok_iff.mp hRead
  have hFrame := (new name).installAll_frame entries
  rw [hInstall] at hFrame
  exact hFrame

theorem stands_iff {t : Table} {token : Checkpoint} :
    t.stands token = true ↔ t.frontiers[token.depth]? = some token.frontier := by
  simp only [stands, decide_eq_true_eq]

/-- A rollback to a standing checkpoint drops it and cuts the table off at its frontier. -/
theorem rollback_of_stands {t : Table} {token : Checkpoint} (hStands : t.stands token = true) :
    t.rollback token = ((t.dropCheckpoint token).discardFrom token.frontier, .ok ()) := by
  rw [rollback, if_pos hStands]

/-- A rollback to a stale token is refused and leaves the table as it is. -/
theorem rollback_of_stale {t : Table} {token : Checkpoint} (hStale : t.stands token = false) :
    t.rollback token = (t, .error (.staleCheckpoint t.name token.frontier)) := by
  rw [rollback, if_neg (Bool.eq_false_iff.mp hStale)]

theorem release_of_stands {t : Table} {token : Checkpoint} (hStands : t.stands token = true) :
    t.release token = (t.dropCheckpoint token, .ok ()) := by
  rw [release, if_pos hStands]

/-- A release of a stale token is refused and leaves the table as it is. -/
theorem release_of_stale {t : Table} {token : Checkpoint} (hStale : t.stands token = false) :
    t.release token = (t, .error (.staleCheckpoint t.name token.frontier)) := by
  rw [release, if_neg (Bool.eq_false_iff.mp hStale)]

/-- A rollback is accepted exactly if the token stands. -/
theorem rollback_eq_ok_iff {t : Table} {token : Checkpoint} :
    (t.rollback token).2 = .ok () ↔ t.frontiers[token.depth]? = some token.frontier := by
  rw [← stands_iff]
  cases hStands : t.stands token with
  | true => simp [rollback_of_stands hStands]
  | false => simp [rollback_of_stale hStands]

/-- A release is accepted exactly if the token stands. -/
theorem release_eq_ok_iff {t : Table} {token : Checkpoint} :
    (t.release token).2 = .ok () ↔ t.frontiers[token.depth]? = some token.frontier := by
  rw [← stands_iff]
  cases hStands : t.stands token with
  | true => simp [release_of_stands hStands]
  | false => simp [release_of_stale hStands]

/-- A rollback either is accepted or leaves the table as it is. -/
theorem perform_rollback (t : Table) (token : Checkpoint) :
    t.perform (.rollback token) =
      if t.stands token then (t.dropCheckpoint token).discardFrom token.frontier else t := by
  rw [perform, rollback]
  split <;> rfl

theorem perform_release (t : Table) (token : Checkpoint) :
    t.perform (.release token) = if t.stands token then t.dropCheckpoint token else t := by
  rw [perform, release]
  split <;> rfl

/-- A reading that succeeds leaves the table that the element stores. -/
theorem read_of_ok {t fresh : Table} {e : Element} (hRead : ofElement t.name e = .ok fresh) :
    t.read e = (fresh, .ok ()) := by
  simp only [read, hRead]

/-- A reading that fails leaves the table as it is. -/
theorem read_of_error {t : Table} {e : Element} {fault : Fault}
    (hRead : ofElement t.name e = .error fault) : t.read e = (t, .error fault) := by
  simp only [read, hRead]

/-- A reading either succeeds or leaves the table as it is. -/
theorem perform_read_cases (t : Table) (e : Element) :
    (∃ fresh, ofElement t.name e = .ok fresh ∧ t.perform (.read e) = fresh) ∨
      ((∃ fault, ofElement t.name e = .error fault) ∧ t.perform (.read e) = t) := by
  cases hRead : ofElement t.name e with
  | ok fresh => exact Or.inl ⟨fresh, rfl, congrArg Prod.fst (read_of_ok hRead)⟩
  | error fault => exact Or.inr ⟨⟨fault, rfl⟩, congrArg Prod.fst (read_of_error hRead)⟩

/-- A table keeps its name in all operations. -/
theorem name_perform (t : Table) (op : Operation) : (t.perform op).name = t.name := by
  cases op with
  | intern key => exact (t.intern_frame key).1
  | reserve key => exact (t.intern_frame key).1
  | load entries => exact (t.load_frame entries).1
  | checkpoint => rfl
  | rollback token =>
      rw [perform_rollback]
      split <;> rfl
  | release token =>
      rw [perform_release]
      split <;> rfl
  | reset => rfl
  | read e =>
      rcases t.perform_read_cases e with ⟨fresh, hRead, hFresh⟩ | ⟨-, hSame⟩
      · rw [hFresh]
        exact (ofElement_frame hRead).1
      · rw [hSame]

/-- A checkpoint adds its frontier on top of the stack. Every other operation
cuts the stack at some depth or leaves it whole. -/
theorem frontiers_perform (t : Table) (op : Operation) :
    op = .checkpoint ∨ ∃ depth, (t.perform op).frontiers = t.frontiers.take depth := by
  cases op with
  | intern key => exact Or.inr ⟨_, (t.intern_frame key).2.trans List.take_length.symm⟩
  | reserve key => exact Or.inr ⟨_, (t.intern_frame key).2.trans List.take_length.symm⟩
  | load entries => exact Or.inr ⟨_, (t.load_frame entries).2.trans List.take_length.symm⟩
  | checkpoint => exact Or.inl rfl
  | rollback token =>
      right
      rw [perform_rollback]
      split
      · exact ⟨token.depth, rfl⟩
      · exact ⟨_, List.take_length.symm⟩
  | release token =>
      right
      rw [perform_release]
      split
      · exact ⟨token.depth, rfl⟩
      · exact ⟨_, List.take_length.symm⟩
  | reset => exact Or.inr ⟨0, rfl⟩
  | read e =>
      right
      rcases t.perform_read_cases e with ⟨fresh, hRead, hFresh⟩ | ⟨-, hSame⟩
      · exact ⟨0, by rw [hFresh]; exact (ofElement_frame hRead).2.2⟩
      · exact ⟨_, by rw [hSame]; exact List.take_length.symm⟩

/-- The checkpoints that an operation leaves standing are those that stood before. -/
theorem take_frontiers_perform {t : Table} {op : Operation} {depth : Nat}
    (hBefore : depth ≤ t.frontiers.length) (hAfter : depth ≤ (t.perform op).frontiers.length) :
    (t.perform op).frontiers.take depth = t.frontiers.take depth := by
  rcases t.frontiers_perform op with rfl | ⟨cut, hCut⟩
  · exact List.take_append_of_le_length hBefore
  · rw [hCut, List.length_take] at hAfter
    rw [hCut, List.take_take, Nat.min_eq_left (by omega)]

/-- A checkpoint that stands before and after an operation has the same frontier. -/
theorem getElem?_frontiers_perform {t : Table} {op : Operation} {depth : Nat}
    (hBefore : depth < t.frontiers.length) (hAfter : depth < (t.perform op).frontiers.length) :
    (t.perform op).frontiers[depth]? = t.frontiers[depth]? := by
  have hSame := congrArg (fun frontiers => frontiers[depth]?)
    (take_frontiers_perform hBefore hAfter)
  simpa [List.getElem?_take] using hSame

end ProgramIndex.Table
