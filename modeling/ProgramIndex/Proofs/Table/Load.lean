import ProgramIndex.Proofs.Table.Consistency

/-!
What is in a table after records have been stored one after the other. Records
go together if no index is given to two keys and no key to two indices. Then
all of them can be stored, in any order.
-/

namespace ProgramIndex

/-- Two records can stand in one table: they have the same index exactly if they
have the same key. -/
def Record.Agrees (a b : Record) : Prop :=
  a.index = b.index ↔ a.key = b.key

theorem Record.Agrees.symm {a b : Record} (hAgrees : a.Agrees b) : b.Agrees a :=
  ⟨fun hIndex => (hAgrees.mp hIndex.symm).symm, fun hKey => (hAgrees.mpr hKey.symm).symm⟩

namespace Table

/-- The records in a table, found one by one or listed. -/
theorem Consistent.mem_toList {t : Table} (h : t.Consistent) {record : Record} :
    record ∈ t.toList ↔ t.records[record.index]? = some record := by
  rw [toList, List.mem_map]
  constructor
  · rintro ⟨⟨index, found⟩, hMem, rfl⟩
    have hFound := Std.ExtTreeMap.mem_toList_iff_getElem?_eq_some.mp hMem
    rwa [h.index_eq index found hFound]
  · intro hRecord
    exact ⟨(record.index, record), Std.ExtTreeMap.mem_toList_iff_getElem?_eq_some.mpr hRecord, rfl⟩

/-- The records are listed in the order of their indices. -/
theorem Consistent.pairwise_toList {t : Table} (h : t.Consistent) :
    t.toList.Pairwise fun a b => a.index < b.index := by
  rw [toList, List.pairwise_map]
  refine Std.ExtTreeMap.ordered_keys_toList.imp_of_mem ?_
  intro a b ha hb hLess
  rw [h.index_eq a.1 a.2 (Std.ExtTreeMap.mem_toList_iff_getElem?_eq_some.mp ha),
    h.index_eq b.1 b.2 (Std.ExtTreeMap.mem_toList_iff_getElem?_eq_some.mp hb)]
  exact Nat.compare_eq_lt.mp hLess

/-- No two records of a table have one index or one key between them. -/
theorem Consistent.agrees {t : Table} (h : t.Consistent) {a b : Record} (ha : a ∈ t.toList)
    (hb : b ∈ t.toList) : a.Agrees b := by
  rw [h.mem_toList] at ha hb
  constructor
  · intro hIndex
    rw [hIndex, hb] at ha
    rw [Option.some.inj ha]
  · intro hKey
    have hFirst := (h.lookup_iff a.key a.index).mpr ha
    have hSecond := (h.lookup_iff b.key b.index).mpr hb
    rw [← hKey, hFirst] at hSecond
    exact Option.some.inj hSecond

theorem install_of_stored {t : Table} {record : Record}
    (hStored : t.records[record.index]? = some record) : t.install record = .ok t := by
  simp only [install, hStored, if_true]

/-- A record with a new index and a new key is stored. -/
theorem install_of_free {t : Table} {record : Record}
    (hFree : t.records[record.index]? = none) (hNew : t.lookup? record.key = none)
    (hRange : record.index < Numeral.maxIndex) : t.install record = .ok (t.insert record) := by
  simp only [install, hFree, hNew, hRange, if_true]

theorem Consistent.mem_toList_insert {t : Table} (h : t.Consistent) {record : Record}
    (hFree : t.records[record.index]? = none) (hNew : t.lookup? record.key = none)
    {found : Record} :
    found ∈ (t.insert record).toList ↔ found ∈ t.toList ∨ found = record := by
  rw [(h.insert record hFree hNew).mem_toList, h.mem_toList, insert_records]
  split
  · rename_i hIndex
    rw [← hIndex, hFree, Option.some.injEq]
    simp [eq_comm]
  · rename_i hIndex
    constructor
    · exact Or.inl
    · rintro (hOld | rfl)
      · exact hOld
      · exact absurd rfl hIndex

/-- Storing a record adds it to the table, unless it is there already, and nothing
else. -/
theorem Consistent.install_eq_ok {t grown : Table} (h : t.Consistent) {record : Record}
    (hInstall : t.install record = .ok grown) :
    (∀ found, found ∈ grown.toList ↔ found ∈ t.toList ∨ found = record) ∧
      grown.next = max t.next (record.index + 1) := by
  rcases install_cases hInstall with ⟨existing, hFound, hKey, rfl⟩ | ⟨hFree, hNew, -, rfl⟩
  · have hStored : record ∈ grown.toList := by
      rw [h.mem_toList, hFound, h.eq_mk hFound, hKey]
    have hBelow := h.lt_next record.index (mem_records_iff.mpr ⟨existing, hFound⟩)
    refine ⟨fun found => ?_, by omega⟩
    constructor
    · exact Or.inl
    · rintro (hOld | rfl)
      · exact hOld
      · exact hStored
  · exact ⟨fun found => h.mem_toList_insert hFree hNew, rfl⟩

/-- A record can be stored exactly if it agrees with all that are stored and is one
of them or has an index that the counter can move beyond. -/
theorem Consistent.install_iff {t : Table} (h : t.Consistent) {record : Record} :
    (∃ grown, t.install record = .ok grown) ↔
      (record ∈ t.toList ∨ record.index < Numeral.maxIndex) ∧
        ∀ stored ∈ t.toList, stored.Agrees record := by
  constructor
  · rintro ⟨grown, hInstall⟩
    have hHolds := (h.install_eq_ok hInstall).1
    refine ⟨?_, fun stored hStored => ?_⟩
    · rcases install_cases hInstall with ⟨existing, hFound, hKey, rfl⟩ | ⟨-, -, hRange, -⟩
      · exact Or.inl (by rw [h.mem_toList, hFound, h.eq_mk hFound, hKey])
      · exact Or.inr hRange
    · exact (h.install hInstall).agrees ((hHolds stored).mpr (Or.inl hStored))
        ((hHolds record).mpr (Or.inr rfl))
  · rintro ⟨hRange, hAgrees⟩
    cases hFound : t.records[record.index]? with
    | some existing =>
        have hIndex := h.index_eq record.index existing hFound
        have hMem : existing ∈ t.toList := by
          rwa [h.mem_toList, hIndex]
        have hSame : existing = record := by
          rw [h.eq_mk hFound, (hAgrees existing hMem).mp hIndex]
        exact ⟨t, install_of_stored (hSame ▸ hFound)⟩
    | none =>
        have hNew : t.lookup? record.key = none := by
          cases hLookup : t.lookup? record.key with
          | none => rfl
          | some other =>
              have hOther := (h.lookup_iff record.key other).mp hLookup
              have hIndex := (hAgrees ⟨other, record.key⟩ (h.mem_toList.mpr hOther)).mpr rfl
              rw [← hIndex, hOther] at hFound
              cases hFound
        have hAbsent : record ∉ t.toList := by
          rw [h.mem_toList, hFound]
          simp
        exact ⟨_, install_of_free hFound hNew (hRange.resolve_left hAbsent)⟩

/-- Further records fit into a table: each of them is stored already or has an index
that the counter can move beyond, and all records, old and new, agree. -/
structure Accommodates (t : Table) (entries : List Record) : Prop where
  in_range : ∀ entry ∈ entries, entry ∈ t.toList ∨ entry.index < Numeral.maxIndex
  agree : ∀ a ∈ t.toList ++ entries, ∀ b ∈ t.toList ++ entries, a.Agrees b

theorem Consistent.accommodates_nil {t : Table} (h : t.Consistent) : t.Accommodates [] where
  in_range _ hEntry := absurd hEntry List.not_mem_nil
  agree a ha b hb := by
    rw [List.append_nil] at ha hb
    exact h.agrees ha hb

/-- The first record has to be stored for the others to fit. -/
theorem Consistent.install_of_accommodates {t : Table} (h : t.Consistent) {record : Record}
    {rest : List Record} (hFit : t.Accommodates (record :: rest)) :
    ∃ grown, t.install record = .ok grown := by
  refine h.install_iff.mpr ⟨hFit.in_range record List.mem_cons_self, fun stored hStored => ?_⟩
  exact hFit.agree stored (List.mem_append_left _ hStored) record
    (List.mem_append_right _ List.mem_cons_self)

/-- Whether records fit does not change when one of them is stored. -/
theorem Consistent.accommodates_cons {t grown : Table} (h : t.Consistent) {record : Record}
    (hInstall : t.install record = .ok grown) (rest : List Record) :
    t.Accommodates (record :: rest) ↔ grown.Accommodates rest := by
  have hHolds := (h.install_eq_ok hInstall).1
  have hRecord := (h.install_iff.mp ⟨grown, hInstall⟩).1
  have hSame : ∀ found, found ∈ t.toList ++ record :: rest ↔ found ∈ grown.toList ++ rest := by
    intro found
    rw [List.mem_append, List.mem_append, List.mem_cons, hHolds, or_assoc]
  constructor
  · intro hFit
    refine ⟨fun entry hEntry => ?_, fun a ha b hb => ?_⟩
    · rw [hHolds]
      rcases hFit.in_range entry (List.mem_cons_of_mem record hEntry) with hOld | hRange
      · exact Or.inl (Or.inl hOld)
      · exact Or.inr hRange
    · exact hFit.agree a ((hSame a).mpr ha) b ((hSame b).mpr hb)
  · intro hFit
    refine ⟨fun entry hEntry => ?_, fun a ha b hb => ?_⟩
    · rcases List.mem_cons.mp hEntry with rfl | hRest
      · exact hRecord
      · rcases hFit.in_range entry hRest with hGrown | hRange
        · rcases (hHolds entry).mp hGrown with hOld | rfl
          · exact Or.inl hOld
          · exact hRecord
        · exact Or.inr hRange
    · exact hFit.agree a ((hSame a).mp ha) b ((hSame b).mp hb)

/-- Records are all stored exactly if they fit, whatever their order. -/
theorem Consistent.installAll_iff {t : Table} (h : t.Consistent) (entries : List Record) :
    (t.installAll entries).2 = .ok () ↔ t.Accommodates entries := by
  induction entries generalizing t with
  | nil => exact ⟨fun _ => h.accommodates_nil, fun _ => rfl⟩
  | cons record rest ih =>
      rw [Table.installAll]
      cases hInstall : t.install record with
      | error fault =>
          constructor
          · intro hOk
            cases hOk
          · intro hFit
            obtain ⟨grown, hOk⟩ := h.install_of_accommodates hFit
            rw [hInstall] at hOk
            cases hOk
      | ok grown => exact (ih (h.install hInstall)).trans (h.accommodates_cons hInstall rest).symm

theorem Consistent.installAll_of_accommodates {t : Table} (h : t.Consistent)
    {entries : List Record} (hFit : t.Accommodates entries) :
    t.installAll entries = ((t.installAll entries).1, .ok ()) :=
  Prod.ext rfl ((h.installAll_iff entries).mpr hFit)

/-- Where all records are stored, the table holds them and what it held before, and
its counter has moved beyond each of them. -/
theorem Consistent.installAll_eq_ok {t grown : Table} (h : t.Consistent) {entries : List Record}
    (hAll : t.installAll entries = (grown, .ok ())) :
    (∀ found, found ∈ grown.toList ↔ found ∈ t.toList ∨ found ∈ entries) ∧
      grown.next = entries.foldl (fun next entry => max next (entry.index + 1)) t.next := by
  induction entries generalizing t with
  | nil =>
      obtain rfl : t = grown := congrArg Prod.fst hAll
      exact ⟨fun found => by simp, rfl⟩
  | cons record rest ih =>
      rw [Table.installAll] at hAll
      cases hInstall : t.install record with
      | error fault =>
          rw [hInstall] at hAll
          cases hAll
      | ok middle =>
          rw [hInstall] at hAll
          obtain ⟨hMiddle, hNext⟩ := h.install_eq_ok hInstall
          obtain ⟨hGrown, hLast⟩ := ih (h.install hInstall) hAll
          refine ⟨fun found => ?_, ?_⟩
          · rw [hGrown, hMiddle, List.mem_cons, or_assoc]
          · rw [hLast, hNext, List.foldl_cons]

/-- Storing records that agree with each other and with all that are there. None
of them is refused, and afterwards the table holds them and what it held
before. -/
theorem Consistent.installAll_of_agrees {t : Table} (h : t.Consistent) {entries : List Record}
    (hRange : ∀ record ∈ entries, record.index < Numeral.maxIndex)
    (hStored : ∀ stored ∈ t.toList, ∀ record ∈ entries, stored.Agrees record)
    (hEntries : ∀ a ∈ entries, ∀ b ∈ entries, a.Agrees b) :
    ∃ grown, t.installAll entries = (grown, .ok ()) ∧
      ∀ found, found ∈ grown.toList ↔ found ∈ t.toList ∨ found ∈ entries := by
  have hFit : t.Accommodates entries := by
    refine ⟨fun entry hEntry => Or.inr (hRange entry hEntry), fun a ha b hb => ?_⟩
    rcases List.mem_append.mp ha with haOld | haNew <;>
      rcases List.mem_append.mp hb with hbOld | hbNew
    · exact h.agrees haOld hbOld
    · exact hStored a haOld b hbNew
    · exact (hStored b hbOld a haNew).symm
    · exact hEntries a haNew b hbNew
  have hAll := h.installAll_of_accommodates hFit
  exact ⟨_, hAll, (h.installAll_eq_ok hAll).1⟩

theorem Consistent.records_iff {t : Table} (h : t.Consistent) {index : Nat} {record : Record} :
    t.records[index]? = some record ↔ record.index = index ∧ record ∈ t.toList := by
  rw [h.mem_toList]
  constructor
  · intro hRecord
    have hIndex := h.index_eq index record hRecord
    exact ⟨hIndex, by rwa [hIndex]⟩
  · rintro ⟨rfl, hRecord⟩
    exact hRecord

/-- Tables that list the same records have the same maps and the same counter. -/
theorem Consistent.eq_of_toList {t u : Table} (ht : t.Consistent) (hu : u.Consistent)
    (hSame : ∀ record, record ∈ t.toList ↔ record ∈ u.toList) :
    t.records = u.records ∧ t.indices = u.indices ∧ t.next = u.next := by
  have hRecords : t.records = u.records := by
    apply Std.ExtTreeMap.ext_getElem?
    intro index
    apply Option.ext
    intro record
    rw [ht.records_iff, hu.records_iff, hSame]
  refine ⟨hRecords, ?_, ?_⟩
  · apply Std.ExtTreeMap.ext_getElem?
    intro key
    apply Option.ext
    intro index
    rw [ht.lookup_iff, hu.lookup_iff, hRecords]
  · by_cases hEmpty : u.records = ∅
    · rw [hu.next_eq_zero hEmpty, ht.next_eq_zero (hRecords.trans hEmpty)]
    · obtain ⟨last, hLast, hLargest, hNext⟩ := hu.next_eq_succ hEmpty
      rw [← hRecords] at hEmpty hLast hLargest
      obtain ⟨last', hLast', hLargest', hNext'⟩ := ht.next_eq_succ hEmpty
      have hLe := hLargest last' hLast'
      have hGe := hLargest' last hLast
      omega

/-! ### Loading -/

theorem load_eq_installAll {t : Table} (hNone : t.hasCheckpoint = false) (entries : List Record) :
    t.load entries = t.installAll entries := by
  simp [load, hNone]

/-- A list of records can be stored in two parts. -/
theorem installAll_append {t middle : Table} {first : List Record}
    (hFirst : t.installAll first = (middle, .ok ())) (second : List Record) :
    t.installAll (first ++ second) = middle.installAll second := by
  induction first generalizing t with
  | nil =>
      obtain rfl : t = middle := congrArg Prod.fst hFirst
      rfl
  | cons record rest ih =>
      rw [installAll] at hFirst
      rw [List.cons_append, installAll]
      cases hInstall : t.install record with
      | error fault =>
          rw [hInstall] at hFirst
          cases hFirst
      | ok grown =>
          rw [hInstall] at hFirst
          exact ih hFirst

/-- Storing stops at the first record that is refused, and those before it stay. -/
theorem installAll_eq_error {t stopped : Table} {entries : List Record} {fault : Fault}
    (hAll : t.installAll entries = (stopped, .error fault)) :
    ∃ earlier entry later, entries = earlier ++ entry :: later ∧
      t.installAll earlier = (stopped, .ok ()) ∧ stopped.install entry = .error fault := by
  induction entries generalizing t with
  | nil => cases congrArg Prod.snd hAll
  | cons record rest ih =>
      rw [installAll] at hAll
      cases hInstall : t.install record with
      | error cause =>
          rw [hInstall] at hAll
          obtain ⟨rfl, hFault⟩ := Prod.mk.inj hAll
          exact ⟨[], record, rest, rfl, rfl, by rw [hInstall, Except.error.inj hFault]⟩
      | ok grown =>
          rw [hInstall] at hAll
          obtain ⟨earlier, entry, later, rfl, hEarlier, hRefused⟩ := ih hAll
          refine ⟨record :: earlier, entry, later, rfl, ?_, hRefused⟩
          rw [installAll, hInstall]
          exact hEarlier

/-- The index of a record is reserved for another one. -/
def ReservedAgainst (t : Table) (entry : Record) : Prop :=
  t.isReserved entry.index = true ∧
    ∃ held ∈ t.toList, held.index = entry.index ∧ held.key ≠ entry.key

/-- Why a record cannot be stored. -/
structure Refuses (t : Table) (entry : Record) (fault : Fault) : Prop where
  reserved : t.ReservedAgainst entry → fault = .reservedIndexConflict t.name entry.index
  malformed : ¬ t.ReservedAgainst entry → ∃ flaw, fault = .malformedEntry t.name flaw

/-- An entry is refused for one of the reasons that there are. -/
theorem Consistent.refuses {t : Table} (h : t.Consistent) {entry : Record} {fault : Fault}
    (hInstall : t.install entry = .error fault) : t.Refuses entry fault := by
  have hHeld : t.ReservedAgainst entry ↔ t.isReserved entry.index = true ∧
      ∃ held, t.records[entry.index]? = some held ∧ held.key ≠ entry.key := by
    refine and_congr_right fun _ => exists_congr fun held => ?_
    rw [h.records_iff, ← and_assoc, and_comm (a := held ∈ t.toList)]
  unfold Table.install at hInstall
  split at hInstall
  · rename_i existing hFound
    split at hInstall
    · cases hInstall
    · rename_i hOther
      split at hInstall
      · rename_i hReserved
        refine ⟨fun _ => (Except.error.inj hInstall).symm, fun hNot => ?_⟩
        exact absurd (hHeld.mpr ⟨hReserved, existing, hFound, hOther⟩) hNot
      · rename_i hReserved
        exact ⟨fun hAgainst => absurd hAgainst.1 hReserved,
          fun _ => ⟨_, (Except.error.inj hInstall).symm⟩⟩
  · rename_i other hFree hStored
    refine ⟨fun hAgainst => ?_, fun _ => ⟨_, (Except.error.inj hInstall).symm⟩⟩
    obtain ⟨-, held, hFound, -⟩ := hHeld.mp hAgainst
    rw [hFree] at hFound
    cases hFound
  · rename_i hFree hNew
    split at hInstall
    · cases hInstall
    · refine ⟨fun hAgainst => ?_, fun _ => ⟨_, (Except.error.inj hInstall).symm⟩⟩
      obtain ⟨-, held, hFound, -⟩ := hHeld.mp hAgainst
      rw [hFree] at hFound
      cases hFound

/-- The table `after` is `t` with further records: it holds those of both, its
counter has moved beyond all of them, and nothing else has changed. -/
structure Loaded (t : Table) (entries : List Record) (after : Table) : Prop where
  consistent : after.Consistent
  holds : ∀ record, record ∈ after.toList ↔ record ∈ t.toList ∨ record ∈ entries
  next_eq : after.next = entries.foldl (fun next entry => max next (entry.index + 1)) t.next
  name_eq : after.name = t.name
  reserved_eq : after.reserved = t.reserved
  frontiers_eq : after.frontiers = t.frontiers

/-- Once all entries are stored the table holds its own records and theirs. -/
theorem Consistent.loaded {t after : Table} (h : t.Consistent) {entries : List Record}
    (hAll : t.installAll entries = (after, .ok ())) : t.Loaded entries after := by
  have hConsistent := h.installAll entries
  have hFrame := t.installAll_frame entries
  rw [hAll] at hConsistent hFrame
  exact {
    consistent := hConsistent
    holds := (h.installAll_eq_ok hAll).1
    next_eq := (h.installAll_eq_ok hAll).2
    name_eq := hFrame.1
    reserved_eq := hFrame.2.1
    frontiers_eq := hFrame.2.2 }

/-- What is loaded is determined by the set of the records. -/
theorem Loaded.eq {t after other : Table} {entries others : List Record}
    (hAfter : t.Loaded entries after) (hOther : t.Loaded others other)
    (hSame : ∀ record, record ∈ others ↔ record ∈ entries) : other = after := by
  obtain ⟨hRecords, hIndices, hNext⟩ := hOther.consistent.eq_of_toList hAfter.consistent
    fun record => by rw [hOther.holds, hAfter.holds, hSame]
  calc other = ⟨other.name, other.indices, other.records, other.next, other.reserved,
        other.frontiers⟩ := rfl
    _ = ⟨after.name, after.indices, after.records, after.next, after.reserved,
        after.frontiers⟩ := by
      rw [hRecords, hIndices, hNext, hOther.name_eq, hOther.reserved_eq, hOther.frontiers_eq,
        hAfter.name_eq, hAfter.reserved_eq, hAfter.frontiers_eq]
    _ = after := rfl

theorem Accommodates.congr {t : Table} {entries others : List Record}
    (hFit : t.Accommodates entries) (hSame : ∀ record, record ∈ others ↔ record ∈ entries) :
    t.Accommodates others where
  in_range entry hEntry := hFit.in_range entry ((hSame entry).mp hEntry)
  agree a ha b hb := by
    have hMem : ∀ record ∈ t.toList ++ others, record ∈ t.toList ++ entries := by
      intro record
      rw [List.mem_append, List.mem_append, hSame]
      exact id
    exact hFit.agree a (hMem a ha) b (hMem b hb)

/-- Loading into any reachable table without a checkpoint. All records are stored
exactly if they fit, and then the table holds them and the old ones and no others,
in whatever order and however often they are given. Otherwise those before the first
record that does not fit are stored, and the fault says whether this one was meant
for a reserved index. -/
theorem load_union_of_run {name : String} {ops : List Operation} {t : Table}
    (run : transitions.Run (new name) ops t) (hNone : t.hasCheckpoint = false)
    (entries : List Record) :
    ((t.load entries).2 = .ok () ↔ t.Accommodates entries) ∧
    (∀ after, t.load entries = (after, .ok ()) → t.Loaded entries after ∧
      ∀ others, (∀ record, record ∈ others ↔ record ∈ entries) →
        t.load others = (after, .ok ())) ∧
    (∀ after fault, t.load entries = (after, .error fault) →
      ∃ earlier entry later, entries = earlier ++ entry :: later ∧
        t.load earlier = (after, .ok ()) ∧
        t.load (earlier ++ [entry]) = (after, .error fault) ∧
        t.Loaded earlier after ∧ after.Refuses entry fault) := by
  have h := (consistent_new name).run run
  simp only [load_eq_installAll hNone]
  refine ⟨h.installAll_iff entries, fun after hAll => ?_, fun after fault hAll => ?_⟩
  · have hLoaded := h.loaded hAll
    refine ⟨hLoaded, fun others hSame => ?_⟩
    have hFit := (h.installAll_iff entries).mp (congrArg Prod.snd hAll)
    have hOk := h.installAll_of_accommodates (hFit.congr hSame)
    rw [hOk, hLoaded.eq (h.loaded hOk) hSame]
  · obtain ⟨earlier, entry, later, hSplit, hEarlier, hRefused⟩ := installAll_eq_error hAll
    have hLoaded := h.loaded hEarlier
    refine ⟨earlier, entry, later, hSplit, hEarlier, ?_, hLoaded,
      hLoaded.consistent.refuses hRefused⟩
    rw [installAll_append hEarlier, installAll, hRefused]

/-- A table with a gap below its last record and a reserved index. Records are loaded
into the gap and beyond, one of them twice and the reserved one again, in two orders.
Another list stops at its second record, which wants the reserved index. -/
theorem load_union_with_gap :
    ∃ (t after stopped : Table) (fits others stops : List Record),
      transitions.Run (new "typ-table")
        [.release ⟨0, 4⟩, .intern ⟨["tint"], []⟩, .checkpoint, .load [⟨3, ⟨["tptr"], [0]⟩⟩],
          .reserve ⟨["tvoid"], []⟩] t ∧
      t.hasCheckpoint = false ∧
      fits = [⟨2, ⟨["tlong"], []⟩⟩, ⟨0, ⟨["tvoid"], []⟩⟩, ⟨7, ⟨[], []⟩⟩, ⟨2, ⟨["tlong"], []⟩⟩] ∧
      others = [⟨7, ⟨[], []⟩⟩, ⟨2, ⟨["tlong"], []⟩⟩, ⟨0, ⟨["tvoid"], []⟩⟩] ∧
      stops = [⟨1, ⟨["tlong"], []⟩⟩, ⟨0, ⟨["tfloat"], []⟩⟩, ⟨9, ⟨[], []⟩⟩] ∧
      t.Accommodates fits ∧ t.load fits = (after, .ok ()) ∧ after.next = 8 ∧
      t.Loaded fits after ∧ t.load others = (after, .ok ()) ∧
      t.load stops = (stopped, .error (.reservedIndexConflict "typ-table" 0)) ∧
      ∃ earlier entry later, stops = earlier ++ entry :: later ∧
        t.load earlier = (stopped, .ok ()) ∧
        t.load (earlier ++ [entry]) =
          (stopped, .error (.reservedIndexConflict "typ-table" 0)) ∧
        t.Loaded earlier stopped ∧
        stopped.Refuses entry (.reservedIndexConflict "typ-table" 0) := by
  have run := (((((Transitions.RunWithin.refl : transitions.Run (new "typ-table") [] _).step
    (.reserve ⟨["tvoid"], []⟩) (fun _ => by decide +kernel) trivial).step
    (.load [⟨3, ⟨["tptr"], [0]⟩⟩]) trivial trivial).step
    .checkpoint trivial trivial).step
    (.intern ⟨["tint"], []⟩) (fun _ => by decide +kernel) trivial).step
    (.release ⟨0, 4⟩) trivial trivial
  have hFits := load_union_of_run run rfl
    [⟨2, ⟨["tlong"], []⟩⟩, ⟨0, ⟨["tvoid"], []⟩⟩, ⟨7, ⟨[], []⟩⟩, ⟨2, ⟨["tlong"], []⟩⟩]
  have hStops := load_union_of_run run rfl
    [⟨1, ⟨["tlong"], []⟩⟩, ⟨0, ⟨["tfloat"], []⟩⟩, ⟨9, ⟨[], []⟩⟩]
  obtain ⟨hLoaded, hOthers⟩ := hFits.2.1 _ rfl
  refine ⟨_, _, _, _, _, _, run, rfl, rfl, rfl, rfl, hFits.1.mp rfl, rfl, rfl, hLoaded,
    hOthers _ fun record => ?_, rfl, hStops.2.2 _ _ rfl⟩
  simp only [List.mem_cons, List.not_mem_nil, or_false]
  grind

end Table

end ProgramIndex
