import ProgramIndex.Proofs.Dictionary.Reachability
import ProgramIndex.Proofs.Dictionary.Request
import ProgramIndex.Proofs.Dictionary.Session
import ProgramIndex.Proofs.Table.Permanence

/-!
How a dictionary grows. A request that is granted adds at most one record, in one
table and at its end; a request that is refused changes nothing. As long as nothing
is rolled back and no document is read, the indices that were given out keep telling
the requests apart.
-/

namespace ProgramIndex

namespace Table

/-- What becomes of a table that is asked for a key, and the index that it answers.
Either the key is stored and nothing changes, or it becomes the last record. -/
inductive Appends (t : Table) (key : Key) : Nat → Table → Prop where
  | found {index : Nat} (hStored : t.records[index]? = some ⟨index, key⟩) :
      Appends t key index t
  | added {grown : Table} (hNew : t.lookup? key = none) (hFree : t.records[t.next]? = none)
      (hRecords : ∀ index, grown.records[index]? =
        if index = t.next then some ⟨t.next, key⟩ else t.records[index]?)
      (hLookup : ∀ other, grown.lookup? other =
        if other = key then some t.next else t.lookup? other)
      (hNext : grown.next = t.next + 1) (hName : grown.name = t.name)
      (hReserved : grown.reserved = t.reserved) (hFrontiers : grown.frontiers = t.frontiers) :
      Appends t key t.next grown

/-- Interning is one of the two: the key is stored, or it becomes the last record. -/
theorem Consistent.appends_intern {t : Table} (h : t.Consistent) {key : Key}
    (hRoom : t.HasRoom key) : t.Appends key (t.intern key).1 (t.intern key).2 := by
  cases hLookup : t.lookup? key with
  | none =>
      rw [intern_of_room hRoom hLookup]
      refine .added hLookup h.next_free ?_ ?_ (Nat.max_eq_right (Nat.le_succ _)) rfl rfl rfl
      · intro index
        simp only [insert_records, eq_comm]
      · intro other
        rw [lookup?, insert_indices]
        simp only [eq_comm, lookup?]
  | some index =>
      rw [intern_of_lookup hLookup]
      exact .found ((h.lookup_iff key index).mp hLookup)

end Table

namespace Dictionary

theorem withTable_table (d : Dictionary) (kind : Kind) : d.withTable kind (d.table kind) = d := by
  cases kind <;> rfl

/-- A record that is there is interned without a change. -/
theorem internIn_of_record {d : Dictionary} {kind : Kind} {key : Key} {index : Nat}
    (h : (d.table kind).Consistent) (hRecord : (d.table kind).records[index]? = some ⟨index, key⟩) :
    d.internIn kind key = (index, d) := by
  rw [internIn, (h.assigns hRecord).intern_eq]
  exact congrArg _ (d.withTable_table kind)

/-! ### Growing -/

/-- Adding records, and taking and dropping checkpoints: what discards no record. -/
def Operation.Grows : Operation → Prop
  | .rollbackAll _ => False
  | .read _ => False
  | _ => True

/-- Dictionaries from which nothing is discarded. -/
def growing : Transitions Dictionary Operation :=
  ⟨perform, fun d op => op.Fits d ∧ op.Grows⟩

/-- The later dictionary has all records of the earlier one, at their indices. -/
structure GrowsTo (d later : Dictionary) : Prop where
  registry_eq : later.registry = d.registry
  retains : ∀ kind index, (d.table kind).Retains (later.table kind) index

theorem growsTo_refl (d : Dictionary) : d.GrowsTo d :=
  ⟨rfl, fun kind index => (d.table kind).retains_refl index⟩

/-- What is kept in a dictionary, and from there in a later one, is kept in the later one.
-/
theorem GrowsTo.trans {d middle later : Dictionary} (first : d.GrowsTo middle)
    (second : middle.GrowsTo later) : d.GrowsTo later :=
  ⟨second.registry_eq.trans first.registry_eq, fun kind index =>
    (first.retains kind index).trans (second.retains kind index)⟩

theorem GrowsTo.occupies {d later : Dictionary} (hGrows : d.GrowsTo later)
    {reference : Kind × Nat} (hOccupied : d.Occupies reference) : later.Occupies reference := by
  obtain ⟨record, hRecord⟩ := Table.mem_records_iff.mp hOccupied
  exact Table.mem_records_iff.mpr
    ⟨record, (hGrows.retains reference.1 reference.2).records record hRecord⟩

/-- What has been granted once is granted again. -/
theorem GrowsTo.grants {d later : Dictionary} (hGrows : d.GrowsTo later) {request : Request}
    (hGranted : d.Grants request) : later.Grants request where
  registered family hFamily := by
    rw [hGrows.registry_eq]
    exact hGranted.registered family hFamily
  occupied reference hMem := hGrows.occupies (hGranted.occupied reference hMem)

/-- An operation that discards nothing from the dictionary discards nothing from any of its
tables. -/
theorem Operation.Grows.not_withdraws {op : Operation} (hGrows : op.Grows) {kind : Kind}
    {tableOp : Table.Operation} (hLeads : op.LeadsTo kind tableOp) (t : Table) (index : Nat) :
    ¬ tableOp.Withdraws t index := by
  cases hLeads with
  | intern op key => exact nofun
  | checkpoint => exact nofun
  | release checkpoints => exact nofun
  | rollback checkpoints => exact hGrows.elim
  | read root e => exact hGrows.elim

/-- Each such operation keeps all records, whether it succeeds or fails. -/
theorem growsTo_perform {d : Dictionary} (hConsistent : ∀ kind, (d.table kind).Consistent)
    {op : Operation} (hGrows : op.Grows) : d.GrowsTo (d.perform op) where
  registry_eq := d.registry_perform op
  retains kind index := by
    rcases d.table_perform op kind with hSame | ⟨tableOp, hLeads, hTable⟩
    · rw [hSame]
      exact (d.table kind).retains_refl index
    · rw [hTable]
      exact (hConsistent kind).retains_perform (hGrows.not_withdraws hLeads _ index)

/-- By induction over the run: whatever was added later, all records are still there. -/
theorem Reached.grow {d later : Dictionary} (hReached : d.Reached) {ops : List Operation}
    (run : growing.Run d ops later) : later.Reached ∧ d.GrowsTo later :=
  run.invariant (fun s => s.Reached ∧ d.GrowsTo s) ⟨hReached, d.growsTo_refl⟩
    fun _ _ hKept hFits _ => ⟨hKept.1.perform hFits.1,
      hKept.2.trans (growsTo_perform hKept.1.consistent hFits.2)⟩

/-! ### One request -/

/-- What a request that is granted does: nothing to the other tables, and to its own
one what asking for its key does. -/
structure GrowsBy (d : Dictionary) (request : Request) (index : Nat) (grown : Dictionary) :
    Prop where
  registry_eq : grown.registry = d.registry
  others_eq : ∀ kind ≠ request.kind, grown.table kind = d.table kind
  appends : (d.table request.kind).Appends request.key index (grown.table request.kind)

section

variable {d grown : Dictionary} {request : Request} {index : Nat}

theorem Reached.grants_of_add (hReached : d.Reached)
    (hAdd : d.add request = (grown, .ok index)) : d.Grants request :=
  ((add_eq_ok_iff hReached.name_eq).mp hAdd).1

/-- A request is answered with the index of its key, new or not. -/
theorem Reached.index_of_add (hReached : d.Reached)
    (hAdd : d.add request = (grown, .ok index)) :
    index = ((d.table request.kind).intern request.key).1 :=
  congrArg Prod.fst ((add_eq_ok_iff hReached.name_eq).mp hAdd).2

/-- A request has no effect on the other tables. -/
theorem Reached.table_of_add (hReached : d.Reached)
    (hAdd : d.add request = (grown, .ok index)) (kind : Kind) :
    grown.table kind = if kind = request.kind then ((d.table request.kind).intern request.key).2
      else d.table kind := by
  have hGrown : grown = (d.internIn request.kind request.key).2 :=
    congrArg Prod.snd ((add_eq_ok_iff hReached.name_eq).mp hAdd).2
  rw [hGrown, table_internIn]

theorem perform_of_add (hAdd : d.add request = (grown, .ok index)) :
    d.perform request.operation = grown := by
  rw [perform_operation, hAdd]

/-- The record asked for is at the index returned. -/
theorem Reached.record_of_add (hReached : d.Reached)
    (hAdd : d.add request = (grown, .ok index)) :
    (grown.table request.kind).records[index]? = some ⟨index, request.key⟩ := by
  rw [hReached.table_of_add hAdd, if_pos rfl, hReached.index_of_add hAdd]
  exact (hReached.consistent request.kind).records_intern_self request.key

/-- A request fits if the counter stands below the last index. -/
theorem Reached.fits_operation (hReached : d.Reached)
    (hRoom : (d.table request.kind).next < Numeral.maxIndex) : request.operation.Fits d := by
  intro kind index hMem
  have hIndex := Std.ExtTreeMap.mem_keys.mp hMem
  rw [perform_operation] at hIndex
  cases hOutcome : (d.add request).2 with
  | error fault =>
      rw [add_of_error hReached.name_eq hOutcome] at hIndex
      exact hReached.lt_maxIndex hIndex
  | ok result =>
      rw [hReached.table_of_add (Prod.ext rfl hOutcome)] at hIndex
      split at hIndex
      · rcases Table.mem_records_intern hIndex with rfl | hOld
        · exact hRoom
        · exact hReached.lt_maxIndex hOld
      · exact hReached.lt_maxIndex hIndex

/-- A request that is granted grows the dictionary by at most its record, where there is
room for it. -/
theorem Reached.growsBy_of_add (hReached : d.Reached)
    (hRoom : (d.table request.kind).next < Numeral.maxIndex)
    (hAdd : d.add request = (grown, .ok index)) : d.GrowsBy request index grown where
  registry_eq := by
    rw [← perform_of_add hAdd, registry_perform]
  others_eq kind hOther := by
    rw [hReached.table_of_add hAdd, if_neg hOther]
  appends := by
    rw [hReached.table_of_add hAdd, if_pos rfl, hReached.index_of_add hAdd]
    exact (hReached.consistent request.kind).appends_intern fun _ => hRoom

/-- The indices of records that are there are words. -/
theorem Reached.le_maxIndex_of_grants (hReached : d.Reached) (hGranted : d.Grants request) :
    ∀ index ∈ request.indices, index ≤ Numeral.maxIndex := by
  intro index hMem
  rw [← request.map_snd_references] at hMem
  obtain ⟨reference, hReference, rfl⟩ := List.mem_map.mp hMem
  exact Nat.le_of_lt (hReached.lt_maxIndex (hGranted.occupied reference hReference))

theorem Reached.growsTo_of_add (hReached : d.Reached)
    (hAdd : d.add request = (grown, .ok index)) : d.GrowsTo grown := by
  have hGrows : request.operation.Grows := by cases request <;> trivial
  rw [← perform_of_add hAdd]
  exact growsTo_perform hReached.consistent hGrows

/-- The same request again returns the same index and changes nothing, now or after the
dictionary has grown. -/
theorem Reached.add_again {later : Dictionary} (hReached : d.Reached)
    (hAdd : d.add request = (grown, .ok index)) (hGrows : grown.GrowsTo later)
    (hLater : later.Reached) : later.add request = (later, .ok index) := by
  have hGranted := ((hReached.growsTo_of_add hAdd).trans hGrows).grants
    (hReached.grants_of_add hAdd)
  have hStored := (hGrows.retains request.kind index).records _ (hReached.record_of_add hAdd)
  exact (add_eq_ok_iff hLater.name_eq).mpr
    ⟨hGranted, (internIn_of_record (hLater.consistent request.kind) hStored).symm⟩

end

section

variable {d grown later last : Dictionary} {first second : Request} {index other : Nat}

/-- Two requests for records of one kind get the same index exactly if they ask for
the same record, whatever has been added between them. -/
theorem Reached.index_eq_iff_key_eq (hReached : d.Reached)
    (hFirst : d.add first = (grown, .ok index)) (hGrows : grown.GrowsTo later)
    (hLater : later.Reached) (hKind : second.kind = first.kind)
    (hSecond : later.add second = (last, .ok other)) :
    other = index ↔ second.key = first.key := by
  have hStored := (hGrows.retains first.kind index).records _ (hReached.record_of_add hFirst)
  constructor
  · rintro rfl
    -- After the second request the index holds what either of them has asked for.
    have hKept := ((hLater.growsTo_of_add hSecond).retains first.kind other).records _ hStored
    have hNew := hLater.record_of_add hSecond
    rw [hKind, hKept] at hNew
    exact (congrArg Record.key (Option.some.inj hNew)).symm
  · intro hKey
    rw [hLater.index_of_add hSecond, hKind, hKey,
      ((hLater.consistent first.kind).assigns hStored).intern_eq]

/-- The indices of a request can be told from the arguments of its record. -/
theorem Reached.key_eq_iff_eq (hReached : d.Reached)
    (hFirst : d.add first = (grown, .ok index)) (hLater : later.Reached)
    (hKind : second.kind = first.kind) (hSecond : later.add second = (last, .ok other)) :
    second.key = first.key ↔ second = first := by
  constructor
  · intro hKey
    exact Request.eq_of_key_eq hKind hKey
      (hLater.le_maxIndex_of_grants (hLater.grants_of_add hSecond))
      (hReached.le_maxIndex_of_grants (hReached.grants_of_add hFirst))
  · rintro rfl
    rfl

end

/-- A request to a dictionary, whatever has been done to it before, that has a word left
for the record. It is met exactly if it is granted; otherwise the first check that fails
is reported, and the call that fails changes nothing. If it is met, then the other
tables are as they were, and its own table either had the record at the index returned,
or has it now as its last one. As long as nothing is discarded afterwards, the same
request returns the same index and changes nothing, and other requests for that table
return it exactly if they ask for the same tags and arguments, that is, if they are the
same request. -/
theorem add_growsBy_of_reached {d : Dictionary} (hReached : d.Reached) (request : Request)
    (hRoom : (d.table request.kind).next < Numeral.maxIndex) :
    ((∃ index, (d.add request).2 = .ok index) ↔ d.Grants request) ∧
    (∀ fault, (d.add request).2 = .error fault ↔ d.Refuses request fault) ∧
    (∀ fault, (d.add request).2 = .error fault → (d.add request).1 = d) ∧
    ∀ index grown, d.add request = (grown, .ok index) →
      d.perform request.operation = grown ∧ grown.Reached ∧ d.GrowsBy request index grown ∧
      ∀ ops later, growing.Run grown ops later → later.add request = (later, .ok index) ∧
        ∀ second other last, second.kind = request.kind →
          later.add second = (last, .ok other) →
            (other = index ↔ second.key = request.key) ∧
              (second.key = request.key ↔ second = request) := by
  refine ⟨add_snd_eq_ok_iff hReached.name_eq, fun fault => add_snd_eq_error_iff hReached.name_eq,
    fun fault => add_of_error hReached.name_eq, ?_⟩
  intro index grown hAdd
  have hGrown : grown.Reached := by
    rw [← perform_of_add hAdd]
    exact hReached.perform (hReached.fits_operation hRoom)
  refine ⟨perform_of_add hAdd, hGrown, hReached.growsBy_of_add hRoom hAdd, ?_⟩
  intro ops later run
  obtain ⟨hLater, hGrows⟩ := hGrown.grow run
  refine ⟨hReached.add_again hAdd hGrows hLater, ?_⟩
  intro second other last hKind hSecond
  exact ⟨hReached.index_eq_iff_key_eq hAdd hGrows hLater hKind hSecond,
    hReached.key_eq_iff_eq hAdd hLater hKind hSecond⟩

/-- A dictionary that has been loaded with a gap and from which a parameter has been
discarded. One attribute is granted, and another one gets another index later on; the
index in the gap is refused. -/
theorem add_growsBy_in_gap :
    ∃ (document : Element) (checkpoints : Checkpoints) (d grown later last : Dictionary)
      (request second refused : Request),
      document = ⟨rootName, [], Kind.all.map fun kind => ⟨kind.tableName, [],
        if kind = .attrParam then [⟨"n", [("ix", "4"), ("t", "aint"), ("a", "8")], []⟩] else []⟩⟩ ∧
      transitions.Run (new .standard)
        [.index .attrParam ⟨["astr", "x"], []⟩, .rollbackAll checkpoints,
          .index .attrParam ⟨["aint"], [2]⟩, .checkpointAll, .read document] d ∧
      d.Reached ∧ (d.table .attrParam).occupied = [4, 5] ∧
      request = .namedAttribute "aligned" [4] ∧ second = .namedAttribute "aligned" [5, 4] ∧
      refused = .namedAttribute "packed" [4, 3, 0] ∧
      (d.table .attribute).next < Numeral.maxIndex ∧
      d.add request = (grown, .ok 0) ∧ d.GrowsBy request 0 grown ∧
      growing.Run grown [.indexAttributes [0], .checkpointAll] later ∧
      later.add request = (later, .ok 0) ∧ later.add second = (last, .ok 1) ∧
      (1 = 0 ↔ second.key = request.key) ∧
      (d.add refused).2 = .error (.missingIndex "attrparam-table" 3 2) ∧
      (d.add refused).1 = d := by
  have run := (((((Transitions.RunWithin.refl : transitions.Run (new .standard) [] _).step
    (.read ⟨rootName, [], Kind.all.map fun kind => ⟨kind.tableName, [],
      if kind = .attrParam then [⟨"n", [("ix", "4"), ("t", "aint"), ("a", "8")], []⟩] else []⟩⟩)
      (by decide +kernel) trivial).step
    .checkpointAll (by decide +kernel) trivial).step
    (.index .attrParam ⟨["aint"], [2]⟩) (by decide +kernel) trivial).step
    (.rollbackAll ⟨fun kind => ⟨0, if kind = .attrParam then 5 else 0⟩⟩)
      (by decide +kernel) trivial).step
    (.index .attrParam ⟨["astr", "x"], []⟩) (by decide +kernel) trivial
  have met := add_growsBy_of_reached (reached_of_run run) (.namedAttribute "aligned" [4])
    (by decide +kernel)
  have hReached := reached_of_run run
  obtain ⟨index, hOk⟩ := met.1.mpr (by decide +kernel)
  obtain ⟨grown, hAdd⟩ : ∃ grown, Dictionary.add _ _ = (grown, .ok index) := ⟨_, Prod.ext rfl hOk⟩
  obtain rfl : index = 0 := (hReached.index_of_add hAdd).trans (by decide +kernel)
  obtain ⟨hGrown, hStill, hGrows, hLater⟩ := met.2.2.2 0 grown hAdd
  have growth := ((Transitions.RunWithin.refl : growing.Run grown [] grown).step
    .checkpointAll ⟨by subst hGrown; decide +kernel, trivial⟩ trivial).step
    (.indexAttributes [0]) ⟨by subst hGrown; decide +kernel, trivial⟩ trivial
  obtain ⟨hAgain, hOthers⟩ := hLater _ _ growth
  have hSecond : ∃ last, ((grown.perform .checkpointAll).perform (.indexAttributes [0])).add
      (.namedAttribute "aligned" [5, 4]) = (last, .ok 1) := by
    have hNames := (hStill.grow growth).1.name_eq
    subst hGrown
    exact ⟨_, (add_eq_ok_iff hNames).mpr ⟨by decide +kernel, Prod.ext (by decide +kernel) rfl⟩⟩
  obtain ⟨last, hSecond⟩ := hSecond
  have refuses := add_growsBy_of_reached hReached (.namedAttribute "packed" [4, 3, 0])
    (by decide +kernel)
  have hRefused := (refuses.2.1 _).mpr (@Refuses.unoccupied _ _ [(.attrParam, 4)]
    [(.attrParam, 0)] .attrParam 3 rfl (by decide +kernel) (by decide +kernel))
  have hKeys := (hOthers (.namedAttribute "aligned" [5, 4]) 1 last rfl hSecond).1
  exact ⟨_, _, _, grown, _, last, _, _, _, rfl, run, hReached, by decide +kernel, rfl,
    rfl, rfl, by decide +kernel, hAdd, hGrows, growth, hAgain, hSecond, hKeys,
    hRefused.trans (congrArg Except.error (by decide +kernel)), refuses.2.2.1 _ hRefused⟩

end Dictionary

end ProgramIndex
