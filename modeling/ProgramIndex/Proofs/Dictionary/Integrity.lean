import ProgramIndex.Proofs.Dictionary.Request
import ProgramIndex.Proofs.Dictionary.Session
import ProgramIndex.Proofs.Table.Consistency
import Mathlib.Data.List.GetD
import Mathlib.Data.List.Perm.Subperm

/-!
References between the tables of a dictionary that is built up record by record.
The checkpoint stacks of all tables are equally high, and each level of them cuts
the dictionary into an older part, below the frontiers of the level, and a newer
one. No record of the older part refers to the newer one. So whatever a rollback
leaves refers only to what it leaves.
-/

namespace ProgramIndex

namespace Table

/-- All indices below the counter are occupied, as they are in a table that has
never been loaded. -/
def Dense (t : Table) : Prop :=
  ∀ index < t.next, index ∈ t.records

/-- Interning adds the key at the counter, if anything. -/
theorem records_intern {t : Table} {key : Key} {index : Nat} {record : Record}
    (hRecord : (t.intern key).2.records[index]? = some record) :
    t.records[index]? = some record ∨ (index = t.next ∧ record.key = key) := by
  cases hLookup : t.lookup? key with
  | none =>
      rw [intern_of_lookup_none hLookup, allocate_records] at hRecord
      split at hRecord
      · rename_i hIndex
        exact Or.inr ⟨hIndex.symm, by rw [← Option.some.inj hRecord]⟩
      · exact Or.inl hRecord
  | some found =>
      rw [intern_of_lookup hLookup] at hRecord
      exact Or.inl hRecord

/-- The counter moves by one, to just beyond the new record. -/
theorem Dense.intern {t : Table} (h : t.Dense) {key : Key} (hRoom : t.HasRoom key) :
    (t.intern key).2.Dense := by
  cases hLookup : t.lookup? key with
  | none =>
      rw [intern_of_room hRoom hLookup]
      intro index hBelow
      have hNext : index < max t.next (t.next + 1) := hBelow
      by_cases hNew : index = t.next
      · rw [hNew]
        exact Std.ExtTreeMap.mem_insert_self
      · exact Std.ExtTreeMap.mem_insert.mpr (Or.inr (h index (by omega)))
  | some found =>
      rw [intern_of_lookup hLookup]
      exact h

/-- Cutting a table off leaves no gap below the frontier. -/
theorem Dense.discardFrom {t : Table} (h : t.Dense) {frontier : Nat} (hLe : frontier ≤ t.next) :
    (t.discardFrom frontier).Dense := by
  intro index hBelow
  exact mem_discardFrom.mpr ⟨hBelow, h index (Nat.lt_of_lt_of_le hBelow hLe)⟩

/-- A table that has a record at all indices below a bound has that many records. -/
theorem le_size_of_forall_mem {t : Table} {bound : Nat} (hFilled : ∀ index < bound, index ∈ t.records) :
    bound ≤ t.size := by
  have hSubset : List.range bound ⊆ t.records.keys := fun index hMem =>
    Std.ExtTreeMap.mem_keys.mpr (hFilled index (List.mem_range.mp hMem))
  have hLength := (List.subperm_of_subset List.nodup_range hSubset).length_le
  rwa [List.length_range, Std.ExtTreeMap.length_keys] at hLength

/-- A dense table that could be given a key with fewer records than there are words
had room for it. -/
theorem Dense.hasRoom {t : Table} (h : t.Dense) {key : Key}
    (hSize : (t.intern key).2.size ≤ Numeral.maxIndex) : t.HasRoom key := by
  intro hNew
  have hFilled : ∀ index < t.next + 1, index ∈ (t.intern key).2.records := by
    intro index hIndex
    rw [intern_of_lookup_none hNew]
    by_cases hLast : index = t.next
    · rw [hLast]
      exact Std.ExtTreeMap.mem_insert_self
    · exact Std.ExtTreeMap.mem_insert.mpr (Or.inr (h index (by omega)))
  exact Nat.le_trans (le_size_of_forall_mem hFilled) hSize

end Table

namespace Kind

/-- The kind of the records that an argument of a record refers to. The arguments of
the tagged families are not looked into. -/
def target? : Kind → Nat → Option Kind
  | .attribute, _ => some .attrParam
  | .attributes, _ => some .attribute
  | .funArg, 0 => some .typ
  | .funArg, 1 => some .attributes
  | .funArgs, _ => some .funArg
  | _, _ => none

/-- The shape that a record of a kind has when it is added: a tag that the registry
knows, or fixed numbers of tags and arguments. -/
def Admits (registry : Registry) : Kind → Key → Prop
  | .attrParam, key => registry.isRegistered .attrParam key.tag = true
  | .attribute, key => key.tags.length = 1
  | .attributes, key => key.tags.length = 0
  | .constant, key => registry.isRegistered .constant key.tag = true
  | .exp, key => registry.isRegistered .exp key.tag = true
  | .funArg, key => key.tags.length = 1 ∧ key.args.length = 2
  | .funArgs, key => key.tags.length = 0
  | .typ, key => registry.isRegistered .typ key.tag = true

theorem admits_family {registry : Registry} {family : Family} {key : Key} :
    family.kind.Admits registry key ↔ registry.isRegistered family key.tag = true := by
  cases family <;> exact Iff.rfl

theorem target?_family (family : Family) (position : Nat) :
    family.kind.target? position = none := by
  cases family <;> rfl

end Kind

/-- The arguments of a key that refer to records are indices below the bounds of
their tables. -/
def Key.RefersBelow (key : Key) (kind : Kind) (bound : Kind → Nat) : Prop :=
  ∀ (position : Nat) (target : Kind) (arg : Int64), kind.target? position = some target →
    key.args[position]? = some arg → ∃ index < bound target, arg = Numeral.ofIndex index

/-- References below some bounds are below any higher ones. -/
theorem Key.RefersBelow.mono {key : Key} {kind : Kind} {bound higher : Kind → Nat}
    (h : key.RefersBelow kind bound) (hLe : ∀ target, bound target ≤ higher target) :
    key.RefersBelow kind higher := by
  intro position target arg hTarget hArg
  obtain ⟨index, hBelow, hIndex⟩ := h position target arg hTarget hArg
  exact ⟨index, Nat.lt_of_lt_of_le hBelow (hLe target), hIndex⟩

namespace Dictionary

/-- The frontier of a table at a level of its stack, or its counter above the
stack. -/
def bound (d : Dictionary) (level : Nat) (kind : Kind) : Nat :=
  (d.table kind).frontiers.getD level (d.table kind).next

/-- What holds of a dictionary in which all references lead somewhere. -/
structure Sound (d : Dictionary) : Prop where
  name_eq : ∀ kind, (d.table kind).name = kind.tableName
  consistent : ∀ kind, (d.table kind).Consistent
  dense : ∀ kind, (d.table kind).Dense
  level : ∃ height, ∀ kind, (d.table kind).frontiers.length = height
  admitted : ∀ (kind : Kind) (index : Nat) (record : Record),
    (d.table kind).records[index]? = some record → kind.Admits d.registry record.key
  closed : ∀ (level : Nat) (kind : Kind) (index : Nat) (record : Record),
    (d.table kind).records[index]? = some record → index < d.bound level kind →
      record.key.RefersBelow kind (d.bound level)

/-- A dictionary without records has no references. -/
theorem sound_new (registry : Registry) : (new registry).Sound where
  name_eq kind := by
    rw [table_new]
    rfl
  consistent kind := by
    rw [table_new]
    exact Table.consistent_new _
  dense kind := by
    rw [table_new]
    exact fun index hBelow => absurd hBelow (Nat.not_lt_zero index)
  level := ⟨0, fun kind => by rw [table_new]; rfl⟩
  admitted kind index record hRecord := by
    rw [table_new] at hRecord
    simp [Table.new] at hRecord
  closed level kind index record hRecord := by
    rw [table_new] at hRecord
    simp [Table.new] at hRecord

theorem bound_of_lt {d : Dictionary} {kind : Kind} {level : Nat}
    (hLevel : level < (d.table kind).frontiers.length) :
    d.bound level kind ∈ (d.table kind).frontiers := by
  rw [bound, List.getD_eq_getElem _ _ hLevel]
  exact List.getElem_mem hLevel

theorem bound_of_le {d : Dictionary} {kind : Kind} {level : Nat}
    (hLevel : (d.table kind).frontiers.length ≤ level) :
    d.bound level kind = (d.table kind).next :=
  List.getD_eq_default _ _ hLevel

/-- No frontier of a sound dictionary is above the counter of its table. -/
theorem Sound.bound_le_next {d : Dictionary} (h : d.Sound) (level : Nat) (kind : Kind) :
    d.bound level kind ≤ (d.table kind).next := by
  by_cases hLevel : level < (d.table kind).frontiers.length
  · exact (h.consistent kind).frontier_le _ (bound_of_lt hLevel)
  · exact Nat.le_of_eq (bound_of_le (Nat.le_of_not_lt hLevel))

/-- Every reference of a record is the index of a record. -/
theorem Sound.refersBelow {d : Dictionary} (h : d.Sound) {kind : Kind} {index : Nat}
    {record : Record} (hRecord : (d.table kind).records[index]? = some record) :
    record.key.RefersBelow kind fun target => (d.table target).next := by
  obtain ⟨height, hHeight⟩ := h.level
  have hTop : ∀ target, d.bound height target = (d.table target).next := fun target =>
    bound_of_le (Nat.le_of_eq (hHeight target))
  have hBelow := (h.consistent kind).lt_next index (Table.mem_records_iff.mpr ⟨record, hRecord⟩)
  exact (h.closed height kind index record hRecord ((hTop kind).symm ▸ hBelow)).mono fun target =>
    Nat.le_of_eq (hTop target)

/-! ### Adding a record -/

/-- A key that may be added: it has the right shape and refers to records that
are there. -/
structure Admissible (d : Dictionary) (kind : Kind) (key : Key) : Prop where
  admitted : kind.Admits d.registry key
  refersBelow : key.RefersBelow kind fun target => (d.table target).next

theorem frontiers_internIn (d : Dictionary) (kind other : Kind) (key : Key) :
    ((d.internIn kind key).2.table other).frontiers = (d.table other).frontiers := by
  rw [table_internIn]
  split
  · rename_i hSame
    rw [hSame]
    exact ((d.table kind).intern_frame key).2
  · rfl

theorem next_le_internIn {d : Dictionary} {kind : Kind} {key : Key}
    (hRoom : (d.table kind).HasRoom key) (other : Kind) :
    (d.table other).next ≤ ((d.internIn kind key).2.table other).next := by
  rw [table_internIn]
  split
  · rename_i hSame
    rw [hSame]
    exact Table.next_le_intern hRoom
  · exact Nat.le_refl _

/-- Every record of the grown dictionary is an old one or the new one. -/
theorem records_internIn {d : Dictionary} {kind other : Kind} {key : Key} {index : Nat}
    {record : Record} (hRecord : ((d.internIn kind key).2.table other).records[index]? = some record) :
    (d.table other).records[index]? = some record ∨
      (other = kind ∧ index = (d.table kind).next ∧ record.key = key) := by
  rw [table_internIn] at hRecord
  split at hRecord
  · rename_i hSame
    rcases Table.records_intern hRecord with hOld | hNew
    · rw [hSame]
      exact Or.inl hOld
    · exact Or.inr ⟨hSame, hNew⟩
  · exact Or.inl hRecord

/-- Interning moves only the bounds above the stack, and only upwards. -/
theorem bound_internIn (d : Dictionary) (kind other : Kind) (key : Key) (level : Nat) :
    (d.internIn kind key).2.bound level other =
      if level < (d.table other).frontiers.length then d.bound level other
      else ((d.internIn kind key).2.table other).next := by
  rw [bound, bound, frontiers_internIn]
  split
  · rename_i hLevel
    rw [List.getD_eq_getElem _ _ hLevel, List.getD_eq_getElem _ _ hLevel]
  · rename_i hLevel
    exact List.getD_eq_default _ _ (Nat.le_of_not_lt hLevel)

/-- A new record is above all frontiers, so it may refer to anything. -/
theorem Sound.internIn {d : Dictionary} (h : d.Sound) {kind : Kind} {key : Key}
    (hKey : d.Admissible kind key) (hRoom : (d.table kind).HasRoom key) :
    (d.internIn kind key).2.Sound where
  name_eq other := by
    rw [table_internIn]
    split
    · rename_i hSame
      rw [((d.table kind).intern_frame key).1, h.name_eq, hSame]
    · exact h.name_eq other
  consistent other := by
    rw [table_internIn]
    split
    · exact (h.consistent kind).intern hRoom
    · exact h.consistent other
  dense other := by
    rw [table_internIn]
    split
    · exact (h.dense kind).intern hRoom
    · exact h.dense other
  level := by
    obtain ⟨height, hHeight⟩ := h.level
    exact ⟨height, fun other => (d.frontiers_internIn kind other key ▸ hHeight other)⟩
  admitted other index record hRecord := by
    rw [show (d.internIn kind key).2.registry = d.registry from d.registry_withTable kind _]
    rcases records_internIn hRecord with hOld | ⟨rfl, -, hNew⟩
    · exact h.admitted other index record hOld
    · rw [hNew]
      exact hKey.admitted
  closed level other index record hRecord hBelow := by
    obtain ⟨height, hHeight⟩ := h.level
    have hBounds : ∀ target, (d.internIn kind key).2.bound level target =
        if level < height then d.bound level target
        else ((d.internIn kind key).2.table target).next := by
      intro target
      rw [bound_internIn, hHeight]
    by_cases hLevel : level < height
    · simp only [hLevel, if_true] at hBounds
      rw [hBounds] at hBelow
      rw [funext hBounds]
      rcases records_internIn hRecord with hOld | ⟨rfl, hIndex, -⟩
      · exact h.closed level other index record hOld hBelow
      · -- The new record is above the frontier of every level.
        have hLe := h.bound_le_next level other
        omega
    · simp only [hLevel, if_false] at hBounds
      rw [funext hBounds]
      rcases records_internIn hRecord with hOld | ⟨rfl, -, hNew⟩
      · exact (h.refersBelow hOld).mono (next_le_internIn hRoom)
      · rw [hNew]
        exact hKey.refersBelow.mono (next_le_internIn hRoom)

/-! ### Checkpoints -/

/-- A dictionary stays sound when it keeps only records that it had and the bounds
of each of its levels are the ones of some level before. -/
theorem Sound.cut {d cut : Dictionary} (h : d.Sound) (hRegistry : cut.registry = d.registry)
    (hNames : ∀ kind, (cut.table kind).name = (d.table kind).name)
    (hConsistent : ∀ kind, (cut.table kind).Consistent) (hDense : ∀ kind, (cut.table kind).Dense)
    (hHeight : ∃ height, ∀ kind, (cut.table kind).frontiers.length = height)
    (hRecords : ∀ (kind : Kind) (index : Nat) (record : Record),
      (cut.table kind).records[index]? = some record →
        (d.table kind).records[index]? = some record)
    (hLevels : ∀ level, ∃ source, ∀ kind, cut.bound level kind = d.bound source kind) :
    cut.Sound where
  name_eq kind := (hNames kind).trans (h.name_eq kind)
  consistent := hConsistent
  dense := hDense
  level := hHeight
  admitted kind index record hRecord := by
    rw [hRegistry]
    exact h.admitted kind index record (hRecords kind index record hRecord)
  closed level kind index record hRecord hBelow := by
    obtain ⟨source, hBounds⟩ := hLevels level
    rw [hBounds] at hBelow
    rw [funext hBounds]
    exact h.closed source kind index record (hRecords kind index record hRecord) hBelow

/-- A new checkpoint adds a level that has the same bounds as the top. -/
theorem Sound.checkpointAll {d : Dictionary} (h : d.Sound) : d.checkpointAll.2.Sound := by
  refine h.cut rfl ?_ ?_ ?_ ?_ ?_ ?_
  · intro kind
    rw [table_checkpointAll]
    rfl
  · intro kind
    rw [table_checkpointAll]
    exact (h.consistent kind).checkpoint
  · intro kind
    rw [table_checkpointAll]
    exact h.dense kind
  · obtain ⟨height, hHeight⟩ := h.level
    refine ⟨height + 1, fun kind => ?_⟩
    rw [table_checkpointAll, Table.checkpoint, List.length_append, hHeight]
    rfl
  · intro kind index record hRecord
    rw [table_checkpointAll] at hRecord
    exact hRecord
  · intro level
    refine ⟨level, fun kind => ?_⟩
    rw [bound, bound, table_checkpointAll]
    show ((d.table kind).frontiers ++ [(d.table kind).next]).getD level (d.table kind).next = _
    by_cases hLevel : level < (d.table kind).frontiers.length
    · exact List.getD_append _ _ _ _ hLevel
    · rw [List.getD_append_right _ _ _ _ (Nat.le_of_not_lt hLevel),
        List.getD_eq_default _ _ (Nat.le_of_not_lt hLevel)]
      cases level - (d.table kind).frontiers.length <;> rfl

/-- Checkpoints that were taken of all tables at the same height of their stacks. -/
def Checkpoints.AtDepth (checkpoints : Checkpoints) (depth : Nat) : Prop :=
  ∀ kind, (checkpoints.token kind).depth = depth

/-- The tables of a sound dictionary have stacks of the same height, so the checkpoints of
all of them are at the same depth. -/
theorem Sound.atDepth_checkpointAll {d : Dictionary} (h : d.Sound) :
    ∃ depth, d.checkpointAll.1.AtDepth depth :=
  h.level

/-- Below the depth where a stack is cut its levels keep their bounds; above it there
is only the counter. -/
theorem bound_take {d cut : Dictionary} {kind : Kind} {depth : Nat}
    (hFrontiers : (cut.table kind).frontiers = (d.table kind).frontiers.take depth)
    (hDepth : depth < (d.table kind).frontiers.length) (level : Nat) :
    cut.bound level kind = if level < depth then d.bound level kind else (cut.table kind).next := by
  have hLength : (cut.table kind).frontiers.length = depth := by
    rw [hFrontiers, List.length_take]
    omega
  split
  · rename_i hLevel
    have hBelow : level < ((d.table kind).frontiers.take depth).length := by
      rwa [← hFrontiers, hLength]
    rw [bound, bound, hFrontiers, List.getD_eq_getElem _ _ hBelow, List.getElem_take,
      List.getD_eq_getElem]
  · rename_i hLevel
    exact bound_of_le (hLength ▸ Nat.le_of_not_lt hLevel)

/-- Cutting all stacks at one depth keeps a dictionary sound if the counters become
the bounds of one level. -/
theorem Sound.cutTo {d cut : Dictionary} (h : d.Sound) (hRegistry : cut.registry = d.registry)
    (hNames : ∀ kind, (cut.table kind).name = (d.table kind).name)
    (hConsistent : ∀ kind, (cut.table kind).Consistent) (hDense : ∀ kind, (cut.table kind).Dense)
    (hRecords : ∀ (kind : Kind) (index : Nat) (record : Record),
      (cut.table kind).records[index]? = some record →
        (d.table kind).records[index]? = some record)
    {depth source : Nat} (hDepth : ∀ kind, depth < (d.table kind).frontiers.length)
    (hFrontiers : ∀ kind, (cut.table kind).frontiers = (d.table kind).frontiers.take depth)
    (hNext : ∀ kind, (cut.table kind).next = d.bound source kind) : cut.Sound := by
  refine h.cut hRegistry hNames hConsistent hDense ⟨depth, fun kind => ?_⟩ hRecords fun level => ?_
  · have hLess := hDepth kind
    rw [hFrontiers, List.length_take]
    omega
  · by_cases hLevel : level < depth
    · refine ⟨level, fun kind => ?_⟩
      rw [bound_take (hFrontiers kind) (hDepth kind), if_pos hLevel]
    · refine ⟨source, fun kind => ?_⟩
      rw [bound_take (hFrontiers kind) (hDepth kind), if_neg hLevel, hNext]

theorem Checkpoints.AtDepth.lt_length {d : Dictionary} {checkpoints : Checkpoints} {depth : Nat}
    (hDepth : checkpoints.AtDepth depth) {kind : Kind}
    (hStands : (d.table kind).frontiers[(checkpoints.token kind).depth]? =
      some (checkpoints.token kind).frontier) : depth < (d.table kind).frontiers.length := by
  have hLess := (List.getElem?_eq_some_iff.mp hStands).1
  rwa [hDepth] at hLess

/-- Releasing drops levels and keeps the records and the counters. -/
theorem Sound.releaseAll {d released : Dictionary} (h : d.Sound)
    (hRegistry : released.registry = d.registry) {checkpoints : Checkpoints} {depth : Nat}
    (hDepth : checkpoints.AtDepth depth)
    (hEach : ∀ kind, (d.table kind).release (checkpoints.token kind) =
      (released.table kind, .ok ())) : released.Sound := by
  have hStands : ∀ kind, (d.table kind).frontiers[(checkpoints.token kind).depth]? =
      some (checkpoints.token kind).frontier := fun kind =>
    Table.release_eq_ok_iff.mp (congrArg Prod.snd (hEach kind))
  have hTable : ∀ kind, released.table kind =
      (d.table kind).dropCheckpoint (checkpoints.token kind) := fun kind =>
    congrArg Prod.fst ((hEach kind).symm.trans
      (Table.release_of_stands (Table.stands_iff.mpr (hStands kind))))
  obtain ⟨height, hHeight⟩ := h.level
  have hNext : ∀ kind, (released.table kind).next = d.bound height kind := by
    intro kind
    rw [hTable, bound_of_le (Nat.le_of_eq (hHeight kind))]
    rfl
  refine h.cutTo hRegistry ?_ ?_ ?_ ?_ (fun kind => hDepth.lt_length (hStands kind)) ?_ hNext
  · intro kind
    rw [hTable]
    rfl
  · intro kind
    rw [hTable]
    exact (h.consistent kind).dropCheckpoint _
  · intro kind
    rw [hTable]
    exact h.dense kind
  · intro kind index record hRecord
    rw [hTable] at hRecord
    exact hRecord
  · intro kind
    rw [hTable, Table.dropCheckpoint, hDepth]

/-- A rollback makes the bounds of its level the new counters. -/
theorem Sound.rollbackAll {d restored : Dictionary} (h : d.Sound)
    (hRegistry : restored.registry = d.registry) {checkpoints : Checkpoints} {depth : Nat}
    (hDepth : checkpoints.AtDepth depth)
    (hEach : ∀ kind, (d.table kind).rollback (checkpoints.token kind) =
      (restored.table kind, .ok ())) : restored.Sound := by
  have hStands : ∀ kind, (d.table kind).frontiers[(checkpoints.token kind).depth]? =
      some (checkpoints.token kind).frontier := fun kind =>
    Table.rollback_eq_ok_iff.mp (congrArg Prod.snd (hEach kind))
  have hTable : ∀ kind, restored.table kind =
      ((d.table kind).dropCheckpoint (checkpoints.token kind)).discardFrom
        (checkpoints.token kind).frontier := fun kind =>
    congrArg Prod.fst ((hEach kind).symm.trans
      (Table.rollback_of_stands (Table.stands_iff.mpr (hStands kind))))
  have hNext : ∀ kind, (restored.table kind).next = d.bound depth kind := by
    intro kind
    have hFrontier := hStands kind
    rw [hDepth] at hFrontier
    rw [hTable, Table.discardFrom, bound, List.getD_eq_getElem?_getD, hFrontier,
      Option.getD_some]
  refine h.cutTo hRegistry ?_ ?_ ?_ ?_ (fun kind => hDepth.lt_length (hStands kind)) ?_ hNext
  · intro kind
    rw [hTable]
    rfl
  · intro kind
    rw [hTable]
    exact (h.consistent kind).rollback (hStands kind)
  · intro kind
    have hLe := h.bound_le_next depth kind
    rw [← hNext, hTable] at hLe
    rw [hTable]
    exact Table.Dense.discardFrom (t := (d.table kind).dropCheckpoint _) (h.dense kind) hLe
  · intro kind index record hRecord
    rw [hTable, Table.discardFrom_records] at hRecord
    split at hRecord
    · exact hRecord
    · cases hRecord
  · intro kind
    rw [hTable, Table.discardFrom, Table.dropCheckpoint, hDepth]

/-! ### Requests -/

/-- An argument that refers to a record is one of the indices that were asked for. -/
theorem mem_references_of_target {request : Request} {position : Nat} {target : Kind} {arg : Int64}
    (hTarget : request.kind.target? position = some target)
    (hArg : request.key.args[position]? = some arg) :
    ∃ index, (target, index) ∈ request.references ∧ arg = Numeral.ofIndex index := by
  have hMapped : ∀ {kind : Kind} {indices : List Nat}, kind = target →
      (indices.map Numeral.ofIndex)[position]? = some arg →
        ∃ index, (target, index) ∈ indices.map (kind, ·) ∧ arg = Numeral.ofIndex index := by
    rintro kind indices rfl hSome
    obtain ⟨index, hMem, rfl⟩ := List.mem_map.mp (List.mem_of_getElem? hSome)
    exact ⟨index, List.mem_map_of_mem hMem, rfl⟩
  cases request with
  | tagged family key =>
      rw [Request.kind, Kind.target?_family] at hTarget
      cases hTarget
  | namedAttribute name params => exact hMapped (Option.some.inj hTarget) hArg
  | attributeList attributes => exact hMapped (Option.some.inj hTarget) hArg
  | funArgList args => exact hMapped (Option.some.inj hTarget) hArg
  | funArg name typ attributes =>
      rcases position with _ | _ | position
      · rw [← Option.some.inj hTarget]
        exact ⟨typ, List.mem_cons_self, (Option.some.inj hArg).symm⟩
      · rw [← Option.some.inj hTarget]
        exact ⟨attributes, List.mem_cons_of_mem _ List.mem_cons_self,
          (Option.some.inj hArg).symm⟩
      · cases hTarget

/-- What has been granted may be added. -/
theorem Sound.admissible {d : Dictionary} (h : d.Sound) {request : Request}
    (hGranted : d.Grants request) : d.Admissible request.kind request.key where
  admitted := by
    cases request with
    | tagged family key => exact Kind.admits_family.mpr (grants_tagged_iff.mp hGranted)
    | funArg name typ attributes => exact ⟨rfl, rfl⟩
    | _ => exact rfl
  refersBelow position target arg hTarget hArg := by
    obtain ⟨index, hMem, rfl⟩ := mem_references_of_target hTarget hArg
    exact ⟨index, (h.consistent target).lt_next index (hGranted.occupied _ hMem), rfl⟩

/-- A request keeps a dictionary sound, whether it is met or refused, as long as no
table holds as many records as there are words. -/
theorem Sound.add {d : Dictionary} (h : d.Sound) (request : Request)
    (hSizes : ∀ kind, ((d.add request).1.table kind).size ≤ Numeral.maxIndex) :
    (d.add request).1.Sound := by
  cases hOutcome : (d.add request).2 with
  | error fault =>
      rw [add_of_error h.name_eq hOutcome]
      exact h
  | ok index =>
      obtain ⟨hGranted, hGrown⟩ := (add_eq_ok_iff h.name_eq).mp (Prod.ext rfl hOutcome)
      have hHeld : (d.add request).1 = (d.internIn request.kind request.key).2 :=
        congrArg Prod.snd hGrown
      have hSize := hSizes request.kind
      rw [hHeld, table_internIn, if_pos rfl] at hSize
      rw [hHeld]
      exact h.internIn (h.admissible hGranted) ((h.dense request.kind).hasRoom hSize)

/-! ### Sessions -/

theorem eq_ok_of_changeEach {change : Kind → Table → Table × Except Fault Unit} {d : Dictionary}
    (hOk : (d.changeEach change Kind.all).2 = .ok ()) (kind : Kind) :
    change kind (d.table kind) = ((d.changeEach change Kind.all).1.table kind, .ok ()) := by
  have hOutcome := changeEach_changedUpTo change d Kind.all nodup_all
  rw [hOk] at hOutcome
  cases hOutcome with
  | all hChanged hOthers => exact hChanged kind kind.mem_all

namespace Session

/-- Rolling back and releasing do not fail. -/
def Succeeds (s : Session) : Operation → Prop
  | .rollbackAll checkpoints => (s.dictionary.rollbackAll checkpoints).2 = .ok ()
  | .releaseAll checkpoints => (s.dictionary.releaseAll checkpoints).2 = .ok ()
  | _ => True

instance (s : Session) : DecidablePred s.Succeeds
  | .rollbackAll checkpoints =>
      inferInstanceAs (Decidable ((s.dictionary.rollbackAll checkpoints).2 = .ok ()))
  | .releaseAll checkpoints =>
      inferInstanceAs (Decidable ((s.dictionary.releaseAll checkpoints).2 = .ok ()))
  | .index _ _ => isTrue trivial
  | .indexAttribute _ _ => isTrue trivial
  | .indexAttributes _ => isTrue trivial
  | .indexFunArg _ _ _ => isTrue trivial
  | .indexFunArgs _ => isTrue trivial
  | .checkpointAll => isTrue trivial
  | .read _ => isTrue trivial

/-- Sessions in which no rollback and no release fails. -/
def faultless : Transitions Session Operation :=
  ⟨perform, fun s op => s.Permits op ∧ s.Succeeds op⟩

/-- The dictionary is sound, and each of the checkpoints taken has the same depth in
all tables. -/
structure Sound (s : Session) : Prop where
  dictionary : s.dictionary.Sound
  level : ∀ checkpoints ∈ s.taken, ∃ depth, checkpoints.AtDepth depth

/-- Each operation of a session keeps it sound, as long as no table holds as many
records as there are words. -/
theorem Sound.perform {s : Session} (h : s.Sound) {op : Operation} (hPermits : s.Permits op)
    (hSucceeds : s.Succeeds op)
    (hSizes : ∀ kind, ((s.perform op).dictionary.table kind).size ≤ Numeral.maxIndex) :
    (s.perform op).Sound where
  dictionary := by
    rw [dictionary_perform] at hSizes ⊢
    have hSound := h.dictionary
    cases op with
    | index family key => exact hSound.add (.tagged family key) hSizes
    | indexAttribute name params => exact hSound.add (.namedAttribute name params) hSizes
    | indexAttributes attributes => exact hSound.add (.attributeList attributes) hSizes
    | indexFunArg name typ attributes =>
        exact hSound.add (.funArg name typ attributes) hSizes
    | indexFunArgs args => exact hSound.add (.funArgList args) hSizes
    | checkpointAll => exact hSound.checkpointAll
    | rollbackAll checkpoints =>
        obtain ⟨depth, hDepth⟩ := h.level checkpoints hPermits
        exact hSound.rollbackAll (registry_changeEach _ _ _) hDepth (eq_ok_of_changeEach hSucceeds)
    | releaseAll checkpoints =>
        obtain ⟨depth, hDepth⟩ := h.level checkpoints hPermits
        exact hSound.releaseAll (registry_changeEach _ _ _) hDepth (eq_ok_of_changeEach hSucceeds)
    | read root => exact hPermits.elim
  level checkpoints hTaken := by
    cases op with
    | checkpointAll =>
        rcases List.mem_cons.mp hTaken with rfl | hOld
        · exact h.dictionary.atDepth_checkpointAll
        · exact h.level checkpoints hOld
    | _ => exact h.level checkpoints hTaken

/-- By induction over the session: as long as no table is full, all references lead to
records that are there. -/
theorem sound_of_run {registry : Registry} {ops : List Operation} {s : Session}
    (run : faultless.RunWithin
      (fun s => ∀ kind, (s.dictionary.table kind).size ≤ Numeral.maxIndex)
      (.start (new registry)) ops s) : s.Sound :=
  run.invariant Sound ⟨sound_new registry, fun _ hTaken => absurd hTaken List.not_mem_nil⟩
    fun _ _ hKept hFits hSizes => hKept.perform hFits.1 hFits.2 hSizes

end Session

end Dictionary

end ProgramIndex
