import ProgramIndex.Proofs.Table.Load
import ProgramIndex.Proofs.Table.Rollback

/-!
How long an index belongs to its key. What has once been placed in a table stays
there, wherever it lies, while records are added, loads stop halfway, checkpoints
come and go and attempts fail. Only a rollback that cuts at the index or below it, a
reset and the reading of a new table end the stay.
-/

namespace ProgramIndex.Table

/-- The key is found at the index and the index under the key, and both belong to
each other alone. -/
structure Assigns (t : Table) (key : Key) (index : Nat) : Prop where
  retrieve_eq : t.retrieve index = .ok ⟨index, key⟩
  lookup_eq : t.lookup? key = some index
  intern_eq : t.intern key = (index, t)
  sole : ∀ other, t.lookup? other = some index → other = key

/-- The operation places the key at the index, or finds it there. A load places each
of its records up to the first faulty one. -/
inductive Operation.Places (t : Table) (key : Key) : Nat → Operation → Prop where
  | intern : Places t key (t.intern key).1 (.intern key)
  | reserve : Places t key (t.reserve key).1 (.reserve key)
  | load {earlier later : List Record} {index : Nat}
      (hStored : (t.load (earlier ++ [⟨index, key⟩])).2 = .ok ()) :
      Places t key index (.load (earlier ++ ⟨index, key⟩ :: later))

/-- The operation takes away what the index holds: it is a rollback that is accepted
and that cuts at the index or below it, a reset, or a successful reading. -/
inductive Operation.Withdraws (t : Table) (index : Nat) : Operation → Prop where
  | rollback {token : Checkpoint} (hAccepted : (t.rollback token).2 = .ok ())
      (hCut : token.frontier ≤ index) : Withdraws t index (.rollback token)
  | reset : Withdraws t index .reset
  | read {e : Element} (hRead : (t.read e).2 = .ok ()) : Withdraws t index (.read e)

/-- Tables that are changed without withdrawing an index. -/
def sparing (index : Nat) : Transitions Table Operation :=
  ⟨perform, fun t op => op.Fits t ∧ ¬ op.Withdraws t index⟩

/-- What an index holds and whether it is reserved is still so in the later table. -/
structure Retains (t later : Table) (index : Nat) : Prop where
  records : ∀ record, t.records[index]? = some record → later.records[index]? = some record
  reserved : index ∈ t.reserved → index ∈ later.reserved

/-! ### One operation -/

theorem retains_refl (t : Table) (index : Nat) : t.Retains t index :=
  ⟨fun _ hRecord => hRecord, fun hReserved => hReserved⟩

theorem Retains.trans {t middle later : Table} {index : Nat} (first : t.Retains middle index)
    (second : middle.Retains later index) : t.Retains later index :=
  ⟨fun record hRecord => second.records record (first.records record hRecord),
    fun hReserved => second.reserved (first.reserved hReserved)⟩

/-- Interning takes no index away from the record that has it. -/
theorem Consistent.retains_intern {t : Table} (h : t.Consistent) (key : Key) (index : Nat) :
    t.Retains (t.intern key).2 index where
  records record hRecord := by
    have hBelow := h.lt_next index (mem_records_iff.mpr ⟨record, hRecord⟩)
    rw [t.intern_records_of_lt key hBelow, hRecord]
  reserved hReserved := by
    rwa [intern_reserved]

theorem Consistent.retains_reserve {t : Table} (h : t.Consistent) (key : Key) (index : Nat) :
    t.Retains (t.reserve key).2 index where
  records := (h.retains_intern key index).records
  reserved hReserved :=
    Std.ExtTreeSet.mem_insert.mpr (Or.inr ((h.retains_intern key index).reserved hReserved))

/-- A record is stored at a free index only. -/
theorem retains_install {t grown : Table} {entry : Record} (hInstall : t.install entry = .ok grown)
    (index : Nat) : t.Retains grown index := by
  rcases install_cases hInstall with ⟨_, -, -, rfl⟩ | ⟨hFree, -, -, rfl⟩
  · exact grown.retains_refl index
  · refine ⟨fun record hRecord => ?_, fun hReserved => hReserved⟩
    rw [insert_records, if_neg]
    · exact hRecord
    · rintro rfl
      rw [hFree] at hRecord
      cases hRecord

theorem retains_installAll (t : Table) (entries : List Record) (index : Nat) :
    t.Retains (t.installAll entries).1 index :=
  installAll_preserves (P := fun later => t.Retains later index)
    (fun hKept hInstall => hKept.trans (retains_install hInstall index)) (t.retains_refl index)
    entries

/-- An index that is taken is never loaded over. -/
theorem retains_load (t : Table) (entries : List Record) (index : Nat) :
    t.Retains (t.load entries).1 index := by
  unfold load
  split
  · exact t.retains_refl index
  · exact t.retains_installAll entries index

theorem retains_dropCheckpoint (t : Table) (token : Checkpoint) (index : Nat) :
    t.Retains (t.dropCheckpoint token) index :=
  ⟨fun _ hRecord => hRecord, fun hReserved => hReserved⟩

/-- A rollback does not reach below its frontier. -/
theorem retains_discardFrom {t : Table} {frontier index : Nat} (hBelow : index < frontier) :
    t.Retains (t.discardFrom frontier) index where
  records record hRecord := by
    rw [discardFrom_records, if_pos hBelow, hRecord]
  reserved hReserved := mem_discardFrom_reserved.mpr ⟨hBelow, hReserved⟩

/-- An index loses what it holds only when it is withdrawn. -/
theorem Consistent.retains_perform {t : Table} (h : t.Consistent) {op : Operation} {index : Nat}
    (hSpared : ¬ op.Withdraws t index) : t.Retains (t.perform op) index := by
  cases op with
  | intern key => exact h.retains_intern key index
  | reserve key => exact h.retains_reserve key index
  | load entries => exact t.retains_load entries index
  | checkpoint => exact ⟨fun _ hRecord => hRecord, fun hReserved => hReserved⟩
  | rollback token =>
      rw [perform_rollback]
      split
      · rename_i hStands
        have hAccepted := rollback_eq_ok_iff.mpr (stands_iff.mp hStands)
        have hBelow : index < token.frontier :=
          Nat.lt_of_not_le fun hCut => hSpared (.rollback hAccepted hCut)
        exact (t.retains_dropCheckpoint token index).trans (retains_discardFrom hBelow)
      · exact t.retains_refl index
  | release token =>
      rw [perform_release]
      split
      · exact t.retains_dropCheckpoint token index
      · exact t.retains_refl index
  | reset => exact absurd .reset hSpared
  | read e =>
      rcases t.perform_read_cases e with ⟨fresh, hRead, -⟩ | ⟨-, hSame⟩
      · exact absurd (.read (by rw [read_of_ok hRead])) hSpared
      · rw [hSame]
        exact t.retains_refl index

/-- An index keeps what it holds through every run that spares it. -/
theorem Consistent.retains_of_sparing {t u : Table} (h : t.Consistent) {index : Nat}
    {ops : List Operation} (run : (sparing index).Run t ops u) :
    u.Consistent ∧ t.Retains u index :=
  run.invariant (fun s => s.Consistent ∧ t.Retains s index) ⟨h, t.retains_refl index⟩
    fun _ _ hKept hSpared _ =>
      ⟨hKept.1.perform hSpared.1, hKept.2.trans (hKept.1.retains_perform hSpared.2)⟩

/-! ### Placing -/

theorem Consistent.records_intern_self {t : Table} (h : t.Consistent) (key : Key) :
    (t.intern key).2.records[(t.intern key).1]? = some ⟨(t.intern key).1, key⟩ := by
  cases hLookup : t.lookup? key with
  | none => rw [intern_of_lookup_none hLookup, allocate_records, if_pos rfl]
  | some index =>
      rw [intern_of_lookup hLookup]
      exact (h.lookup_iff key index).mp hLookup

/-- A record that a load has stored is there even if the load stops at a later one. -/
theorem Consistent.records_load {t : Table} (h : t.Consistent) {earlier : List Record}
    {record : Record} (hStored : (t.load (earlier ++ [record])).2 = .ok ())
    (later : List Record) :
    (t.load (earlier ++ record :: later)).1.records[record.index]? = some record := by
  cases hStanding : t.hasCheckpoint with
  | true =>
      simp only [Table.load, hStanding, if_true] at hStored
      cases hStored
  | false =>
      rw [load_eq_installAll hStanding] at hStored
      have hFirst : t.installAll (earlier ++ [record]) =
          ((t.installAll (earlier ++ [record])).1, .ok ()) := Prod.ext rfl hStored
      have hMem := ((h.installAll_eq_ok hFirst).1 record).mpr (Or.inr (by simp))
      have hEntry := (h.installAll (earlier ++ [record])).mem_toList.mp hMem
      have hSplit : earlier ++ record :: later = earlier ++ [record] ++ later := by simp
      rw [load_eq_installAll hStanding, hSplit, installAll_append hFirst]
      exact (retains_installAll _ later record.index).records record hEntry

/-- What an operation places is there afterwards. -/
theorem Consistent.records_of_places {t : Table} (h : t.Consistent) {op : Operation} {key : Key}
    {index : Nat} (hPlaces : op.Places t key index) :
    (t.perform op).records[index]? = some ⟨index, key⟩ := by
  cases hPlaces with
  | intern => exact h.records_intern_self key
  | reserve => exact h.records_intern_self key
  | @load earlier later _ hStored => exact h.records_load hStored later

theorem Consistent.assigns {t : Table} (h : t.Consistent) {key : Key} {index : Nat}
    (hRecord : t.records[index]? = some ⟨index, key⟩) : t.Assigns key index := by
  have hLookup : t.lookup? key = some index := (h.lookup_iff key index).mpr hRecord
  refine ⟨retrieve_eq_ok_iff.mpr hRecord, hLookup, intern_of_lookup hLookup, fun other hOther => ?_⟩
  have hSame := (h.lookup_iff other index).mp hOther
  rw [hRecord] at hSame
  exact (congrArg Record.key (Option.some.inj hSame)).symm

/-- Indices are given once. From any reachable table, once a key has been placed at an
index, the two belong to each other in every later table, until the index is
withdrawn, and a reserved mark that the index has or gets in the meantime stays as
well. -/
theorem assigns_of_run {name : String} {ops : List Operation} {t : Table}
    (run : transitions.Run (new name) ops t) {op : Operation} (hFits : op.Fits t) {key : Key}
    {index : Nat} (hPlaces : op.Places t key index) {earlier later : List Operation} {s u : Table}
    (first : (sparing index).Run (t.perform op) earlier s)
    (second : (sparing index).Run s later u) :
    u.Assigns key index ∧ (s.isReserved index = true → u.isReserved index = true) := by
  have hPlaced := ((consistent_new name).run run).records_of_places hPlaces
  obtain ⟨hMiddle, hFirst⟩ :=
    ((consistent_new name).run (run.step op hFits trivial)).retains_of_sparing first
  obtain ⟨hLast, hSecond⟩ := hMiddle.retains_of_sparing second
  exact ⟨hLast.assigns ((hFirst.trans hSecond).records _ hPlaced), hSecond.reserved⟩

/-- A load puts a key below the last record and then stops at its second entry. The key
keeps its index, and the mark it gets, through a rollback above it, a refused load,
a stale rollback and a reading that fails. -/
theorem assigns_in_gap :
    ∃ (t s u : Table) (op : Operation) (later : List Operation),
      transitions.Run (new "typ-table") [.load [⟨4, ⟨["tptr"], [1]⟩⟩]] t ∧
      op = .load [⟨1, ⟨["tint"], []⟩⟩, ⟨4, ⟨["tfloat"], []⟩⟩] ∧ op.Fits t ∧
      op.Places t ⟨["tint"], []⟩ 1 ∧
      (sparing 1).Run (t.perform op) [.reserve ⟨["tint"], []⟩] s ∧ s.isReserved 1 = true ∧
      later = [.read ⟨"typ-table", [], [⟨"n", [], []⟩]⟩, .rollback ⟨0, 0⟩,
        .load [⟨1, ⟨["tfloat"], []⟩⟩], .rollback ⟨0, 5⟩, .intern ⟨["tfloat"], []⟩,
        .checkpoint] ∧
      (sparing 1).Run s later u ∧ u.size = 2 ∧
      u.Assigns ⟨["tint"], []⟩ 1 ∧ (s.isReserved 1 = true → u.isReserved 1 = true) := by
  have run := (Transitions.RunWithin.refl : transitions.Run (new "typ-table") [] _).step
    (.load [⟨4, ⟨["tptr"], [1]⟩⟩]) trivial trivial
  have first := (Transitions.RunWithin.refl : (sparing 1).Run
    (((new "typ-table").perform (.load [⟨4, ⟨["tptr"], [1]⟩⟩])).perform
      (.load [⟨1, ⟨["tint"], []⟩⟩, ⟨4, ⟨["tfloat"], []⟩⟩])) [] _).step
    (.reserve ⟨["tint"], []⟩) ⟨fun _ => by decide +kernel, nofun⟩ trivial
  have second := ((((((Transitions.RunWithin.refl : (sparing 1).Run
    ((((new "typ-table").perform (.load [⟨4, ⟨["tptr"], [1]⟩⟩])).perform
      (.load [⟨1, ⟨["tint"], []⟩⟩, ⟨4, ⟨["tfloat"], []⟩⟩])).perform
      (.reserve ⟨["tint"], []⟩)) [] _).step
    .checkpoint ⟨trivial, nofun⟩ trivial).step
    (.intern ⟨["tfloat"], []⟩) ⟨fun _ => by decide +kernel, nofun⟩ trivial).step
    (.rollback ⟨0, 5⟩) ⟨trivial, fun (.rollback _ hCut) => absurd hCut (by decide)⟩
      trivial).step
    (.load [⟨1, ⟨["tfloat"], []⟩⟩]) ⟨trivial, nofun⟩ trivial).step
    (.rollback ⟨0, 0⟩) ⟨trivial, fun (.rollback hAccepted _) =>
      absurd (rollback_eq_ok_iff.mp hAccepted) (by decide +kernel)⟩ trivial).step
    (.read ⟨"typ-table", [], [⟨"n", [], []⟩]⟩) ⟨trivial, fun (.read hRead) => nomatch hRead⟩
      trivial
  have hPlaces := @Operation.Places.load
    ((new "typ-table").perform (.load [⟨4, ⟨["tptr"], [1]⟩⟩])) ⟨["tint"], []⟩ []
    [⟨4, ⟨["tfloat"], []⟩⟩] 1 rfl
  exact ⟨_, _, _, _, _, run, rfl, trivial, hPlaces, first, by decide +kernel, rfl, second,
    by decide +kernel, assigns_of_run run (by trivial) hPlaces first second⟩

end ProgramIndex.Table
