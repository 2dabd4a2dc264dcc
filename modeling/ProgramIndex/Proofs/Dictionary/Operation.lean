import ProgramIndex.Dictionary.Codec
import ProgramIndex.Dictionary.Indexing
import ProgramIndex.Proofs.Attempts
import ProgramIndex.Proofs.Table.Operation

/-!
The operations that can change a dictionary, and what each of them does to each
table. A dictionary goes through its history table by table: every table has a
run of its own.
-/

namespace ProgramIndex.Dictionary

/-- The uses of a dictionary that can change it. -/
inductive Operation where
  | index (family : Family) (key : Key)
  | indexAttribute (name : String) (params : List Nat)
  | indexAttributes (attributes : List Nat)
  | indexFunArg (name : String) (typ attributes : Nat)
  | indexFunArgs (args : List Nat)
  | checkpointAll
  | rollbackAll (checkpoints : Checkpoints)
  | releaseAll (checkpoints : Checkpoints)
  | read (root : Element)

/-- The dictionary after an operation, whether it succeeds or fails. A rollback
or a release that fails leaves changed tables behind. -/
def perform (d : Dictionary) : Operation → Dictionary
  | .index family key => (d.index family key).1
  | .indexAttribute name params => (d.indexAttribute name params).1
  | .indexAttributes attributes => (d.indexAttributes attributes).1
  | .indexFunArg name typ attributes => (d.indexFunArg name typ attributes).1
  | .indexFunArgs args => (d.indexFunArgs args).1
  | .checkpointAll => d.checkpointAll.2
  | .rollbackAll checkpoints => (d.rollbackAll checkpoints).1
  | .releaseAll checkpoints => (d.releaseAll checkpoints).1
  | .read root => (d.read root).1

/-- Indices are 64-bit words: an operation fits if no record has the last index
afterwards, so that every counter could move beyond the last record. -/
def Operation.Fits (d : Dictionary) (op : Operation) : Prop :=
  ∀ kind, ∀ index ∈ ((d.perform op).table kind).occupied, index < Numeral.maxIndex

/-- Dictionaries in which no counter gets beyond its last value. -/
def transitions : Transitions Dictionary Operation :=
  ⟨perform, Operation.Fits⟩

/-- Dictionaries whose counters may start again at zero. -/
def wrapping : Transitions Dictionary Operation :=
  ⟨perform, fun _ _ => True⟩

instance (p : Kind → Prop) [DecidablePred p] : Decidable (∀ kind, p kind) :=
  decidable_of_iff (∀ kind ∈ Kind.all, p kind)
    ⟨fun hAll kind => hAll kind kind.mem_all, fun hAll kind _ => hAll kind⟩

instance (d : Dictionary) (op : Operation) : Decidable (op.Fits d) :=
  inferInstanceAs (Decidable
    (∀ kind, ∀ index ∈ ((d.perform op).table kind).occupied, index < Numeral.maxIndex))

instance (d : Dictionary) (op : Operation) : Decidable (transitions.fits d op) :=
  inferInstanceAs (Decidable (op.Fits d))

/-- A dictionary is its registry and its eight tables. -/
theorem ext_table {d d' : Dictionary} (hRegistry : d.registry = d'.registry)
    (hTable : ∀ kind, d.table kind = d'.table kind) : d = d' := by
  have hAttrParams := hTable .attrParam
  have hAttributes := hTable .attribute
  have hAttributeLists := hTable .attributes
  have hConstants := hTable .constant
  have hExps := hTable .exp
  have hFunArgs := hTable .funArg
  have hFunArgLists := hTable .funArgs
  have hTyps := hTable .typ
  cases d
  cases d'
  simp_all [table]

theorem exists_table_eq (registry : Registry) (tables : Kind → Table) :
    ∃ d : Dictionary, d.registry = registry ∧ ∀ kind, d.table kind = tables kind := by
  refine ⟨⟨registry, tables .attrParam, tables .attribute, tables .attributes, tables .constant,
    tables .exp, tables .funArg, tables .funArgs, tables .typ⟩, rfl, fun kind => ?_⟩
  cases kind <;> rfl

theorem table_new (registry : Registry) (kind : Kind) :
    (new registry).table kind = .new kind.tableName := by
  cases kind <;> rfl

/-- Interning in one table leaves the others alone. -/
theorem table_internIn (d : Dictionary) (kind other : Kind) (key : Key) :
    (d.internIn kind key).2.table other =
      if other = kind then ((d.table kind).intern key).2 else d.table other :=
  d.table_withTable kind other _

/-- An attempt to add a record leaves a table alone or interns one key in it. -/
theorem table_internChecked (d : Dictionary) (target : Kind) (checked : Except Fault Key)
    (kind : Kind) :
    (d.internChecked target checked).1.table kind = d.table kind ∨
      ∃ key, (d.internChecked target checked).1.table kind = ((d.table kind).intern key).2 := by
  cases checked with
  | error fault => exact Or.inl rfl
  | ok key =>
      rw [show (d.internChecked target (.ok key)).1.table kind = _ from
        d.table_internIn target kind key]
      split
      · rename_i hTarget
        exact Or.inr ⟨key, by rw [hTarget]⟩
      · exact Or.inl rfl

theorem table_checkpointAll (d : Dictionary) (kind : Kind) :
    d.checkpointAll.2.table kind = (d.table kind).checkpoint.2 := by
  cases kind <;> rfl

/-- What has become of a dictionary when its tables were to be changed one after
the other. Either all of them are changed, or some change fails; then the tables
before it are changed, the table of the fault is as the failed change has left it,
and the others are as they were. -/
inductive ChangedUpTo (change : Kind → Table → Table × Except Fault Unit) (d : Dictionary)
    (kinds : List Kind) (after : Dictionary) : Except Fault Unit → Prop where
  | all (hChanged : ∀ kind ∈ kinds, change kind (d.table kind) = (after.table kind, .ok ()))
      (hOthers : ∀ kind ∉ kinds, after.table kind = d.table kind) :
      ChangedUpTo change d kinds after (.ok ())
  | fault {earlier later : List Kind} {failed : Kind} {fault : Fault}
      (hKinds : kinds = earlier ++ failed :: later)
      (hChanged : ∀ kind ∈ earlier, change kind (d.table kind) = (after.table kind, .ok ()))
      (hFault : change failed (d.table failed) = (after.table failed, .error fault))
      (hOthers : ∀ kind ∉ earlier, kind ≠ failed → after.table kind = d.table kind) :
      ChangedUpTo change d kinds after (.error fault)

/-- One table more, changed before the others. -/
theorem ChangedUpTo.cons {change : Kind → Table → Table × Except Fault Unit}
    {d after : Dictionary} {kind : Kind} {rest : List Kind} {changed : Table}
    {outcome : Except Fault Unit} (hFresh : kind ∉ rest)
    (hChange : change kind (d.table kind) = (changed, .ok ()))
    (hRest : ChangedUpTo change (d.withTable kind changed) rest after outcome) :
    ChangedUpTo change d (kind :: rest) after outcome := by
  have hSame : (d.withTable kind changed).table kind = changed := by
    rw [table_withTable, if_pos rfl]
  have hOther : ∀ other, other ≠ kind → (d.withTable kind changed).table other = d.table other := by
    intro other hNe
    rw [table_withTable, if_neg hNe]
  have hNe : ∀ other ∈ rest, other ≠ kind := by
    rintro other hMem rfl
    exact hFresh hMem
  cases hRest with
  | all hChanged hOthers =>
      refine .all ?_ ?_
      · intro other hMem
        rcases List.mem_cons.mp hMem with rfl | hMem
        · rw [hOthers other hFresh, hSame, hChange]
        · rw [← hOther other (hNe other hMem)]
          exact hChanged other hMem
      · intro other hMem
        rw [List.mem_cons, not_or] at hMem
        rw [hOthers other hMem.2, hOther other hMem.1]
  | @fault earlier later failed fault hKinds hChanged hFault hOthers =>
      subst hKinds
      have hEarlier : kind ∉ earlier := fun hMem => hFresh (List.mem_append_left _ hMem)
      have hFailed : failed ≠ kind := hNe failed (by simp)
      refine .fault (List.cons_append).symm ?_ ?_ ?_
      · intro other hMem
        rcases List.mem_cons.mp hMem with rfl | hMem
        · rw [hOthers other hEarlier hFailed.symm, hSame, hChange]
        · rw [← hOther other (hNe other (List.mem_append_left _ hMem))]
          exact hChanged other hMem
      · rw [← hOther failed hFailed]
        exact hFault
      · intro other hMem hNotFailed
        rw [List.mem_cons, not_or] at hMem
        rw [hOthers other hMem.2 hNotFailed, hOther other hMem.1]

/-- By induction over the tables: those before the first failure are changed, and the others
are not touched. -/
theorem changeEach_changedUpTo (change : Kind → Table → Table × Except Fault Unit)
    (d : Dictionary) (kinds : List Kind) (hDistinct : kinds.Nodup) :
    ChangedUpTo change d kinds (d.changeEach change kinds).1 (d.changeEach change kinds).2 := by
  induction kinds generalizing d with
  | nil => exact .all (fun kind hKind => absurd hKind List.not_mem_nil) (fun _ _ => rfl)
  | cons kind rest ih =>
      obtain ⟨hFresh, hRest⟩ := List.nodup_cons.mp hDistinct
      unfold changeEach
      cases hChange : change kind (d.table kind) with
      | mk changed outcome =>
          cases outcome with
          | ok => exact .cons hFresh hChange (ih (d.withTable kind changed) hRest)
          | error fault =>
              refine .fault rfl (fun other hOther => absurd hOther List.not_mem_nil) ?_ ?_
              · rw [hChange, table_withTable, if_pos rfl]
              · intro other _ hNe
                rw [table_withTable, if_neg hNe]

/-- Each table has been left alone or changed once. -/
theorem ChangedUpTo.table {change : Kind → Table → Table × Except Fault Unit}
    {d after : Dictionary} {kinds : List Kind} {outcome : Except Fault Unit}
    (hChanged : ChangedUpTo change d kinds after outcome) (kind : Kind) :
    after.table kind = d.table kind ∨ after.table kind = (change kind (d.table kind)).1 := by
  cases hChanged with
  | all hEach hOthers =>
      by_cases hMem : kind ∈ kinds
      · exact Or.inr (congrArg Prod.fst (hEach kind hMem)).symm
      · exact Or.inl (hOthers kind hMem)
  | @fault earlier later failed fault hKinds hEach hFault hOthers =>
      by_cases hMem : kind ∈ earlier
      · exact Or.inr (congrArg Prod.fst (hEach kind hMem)).symm
      · by_cases hFailed : kind = failed
        · subst hFailed
          exact Or.inr (congrArg Prod.fst hFault).symm
        · exact Or.inl (hOthers kind hMem hFailed)

theorem nodup_all : Kind.all.Nodup := by
  decide

/-- Replacing every table leaves nothing of what was there. -/
theorem table_replaceEach (d : Dictionary) (tables : Kind → Table) (kind : Kind) :
    (d.replaceEach (Kind.all.map fun kind => (kind, tables kind))).table kind = tables kind := by
  cases kind <;> rfl

theorem registry_replaceEach (d : Dictionary) (tables : Kind → Table) :
    (d.replaceEach (Kind.all.map fun kind => (kind, tables kind))).registry = d.registry := by
  rfl

/-- All sections that a reading needs have been read before anything is replaced. -/
theorem exists_section_of_read {d : Dictionary} {root : Element}
    (hRead : (d.read root).2 = .ok ()) : ∀ kind, ∃ t, readSection root (d.table kind) = .ok t := by
  intro kind
  rw [Dictionary.read] at hRead
  cases hSections : Kind.all.mapM fun kind =>
      (readSection root (d.table kind)).map (kind, ·) with
  | error fault =>
      rw [hSections] at hRead
      cases hRead
  | ok sections =>
      obtain ⟨pair, hPair⟩ := exists_ok_of_mapM hSections (Kind.mem_all kind)
      cases hSection : readSection root (d.table kind) with
      | ok t => exact ⟨t, rfl⟩
      | error fault =>
          rw [hSection] at hPair
          cases hPair

/-- Reading succeeds exactly if the section of every table can be read, and then
all tables are replaced by what their sections store. -/
theorem read_eq_ok_iff {d loaded : Dictionary} {root : Element} :
    d.read root = (loaded, .ok ()) ↔
      loaded.registry = d.registry ∧
        ∀ kind, readSection root (d.table kind) = .ok (loaded.table kind) := by
  have hKnown : ∀ tables : Kind → Table,
      (∀ kind, readSection root (d.table kind) = .ok (tables kind)) →
        d.read root = (d.replaceEach (Kind.all.map fun kind => (kind, tables kind)), .ok ()) := by
    intro tables hTables
    rw [Dictionary.read, mapM_eq_ok_map fun kind _ => ?_]
    rw [hTables kind]
    rfl
  constructor
  · intro hRead
    obtain ⟨tables, hTables⟩ :=
      Classical.skolem.mp (exists_section_of_read (congrArg Prod.snd hRead))
    rw [hKnown tables hTables] at hRead
    rw [← (Prod.mk.inj hRead).1]
    refine ⟨d.registry_replaceEach tables, fun kind => ?_⟩
    rw [table_replaceEach, hTables]
  · rintro ⟨hRegistry, hTables⟩
    rw [hKnown loaded.table hTables]
    refine congrArg (·, _) (ext_table ?_ (d.table_replaceEach loaded.table))
    rw [registry_replaceEach, hRegistry]

/-- A reading that fails has replaced nothing: the sections are read first. -/
theorem read_of_error {d : Dictionary} {root : Element} {fault : Fault}
    (hRead : (d.read root).2 = .error fault) : (d.read root).1 = d := by
  unfold Dictionary.read at hRead ⊢
  cases hSections : Kind.all.mapM fun kind =>
      (readSection root (d.table kind)).map (kind, ·) with
  | error other => rfl
  | ok sections =>
      rw [hSections] at hRead
      cases hRead

/-- A reading replaces all tables or none. -/
theorem read_cases (d : Dictionary) (root : Element) :
    ((d.read root).2 = .ok () ∧ (d.read root).1.registry = d.registry ∧
      ∀ kind, readSection root (d.table kind) = .ok ((d.read root).1.table kind)) ∨
    ∃ fault, (d.read root).2 = .error fault ∧ (d.read root).1 = d := by
  cases hOutcome : (d.read root).2 with
  | ok => exact Or.inl ⟨rfl, read_eq_ok_iff.mp (Prod.ext rfl hOutcome)⟩
  | error fault => exact Or.inr ⟨fault, rfl, read_of_error hOutcome⟩

/-- A table that is read from a section has been read from some element. -/
theorem exists_read_of_readSection {root : Element} {t fresh : Table}
    (hRead : readSection root t = .ok fresh) : ∃ e, t.perform (.read e) = fresh := by
  unfold readSection at hRead
  split at hRead
  · cases hRead
  · rename_i e hFound
    exact ⟨e, congrArg Prod.fst (Table.read_of_ok hRead)⟩

/-- The operations of a kind's table that an operation of the dictionary may lead
to. Adding a record may lead to interning a key in any table. -/
inductive Operation.LeadsTo (kind : Kind) : Operation → Table.Operation → Prop where
  | intern (op : Operation) (key : Key) : LeadsTo kind op (.intern key)
  | checkpoint : LeadsTo kind .checkpointAll .checkpoint
  | rollback (checkpoints : Checkpoints) :
      LeadsTo kind (.rollbackAll checkpoints) (.rollback (checkpoints.token kind))
  | release (checkpoints : Checkpoints) :
      LeadsTo kind (.releaseAll checkpoints) (.release (checkpoints.token kind))
  | read (root e : Element) : LeadsTo kind (.read root) (.read e)

/-- Adding a record leads to nothing else in a table. -/
theorem internChecked_leadsTo (d : Dictionary) (target : Kind) (checked : Except Fault Key)
    (op : Operation) (kind : Kind) :
    (d.internChecked target checked).1.table kind = d.table kind ∨
      ∃ tableOp, op.LeadsTo kind tableOp ∧
        (d.internChecked target checked).1.table kind = (d.table kind).perform tableOp := by
  rcases d.table_internChecked target checked kind with hSame | ⟨key, hTable⟩
  · exact Or.inl hSame
  · exact Or.inr ⟨_, .intern op key, hTable⟩

/-- An operation leaves a table alone or does one operation to it. A rollback or a
release that fails leaves the later tables alone. -/
theorem table_perform (d : Dictionary) (op : Operation) (kind : Kind) :
    (d.perform op).table kind = d.table kind ∨
      ∃ tableOp, op.LeadsTo kind tableOp ∧
        (d.perform op).table kind = (d.table kind).perform tableOp := by
  cases op with
  | index family key => exact d.internChecked_leadsTo _ _ _ kind
  | indexAttribute name params => exact d.internChecked_leadsTo _ _ _ kind
  | indexAttributes attributes => exact d.internChecked_leadsTo _ _ _ kind
  | indexFunArg name typ attributes => exact d.internChecked_leadsTo _ _ _ kind
  | indexFunArgs args => exact d.internChecked_leadsTo _ _ _ kind
  | checkpointAll => exact Or.inr ⟨_, .checkpoint, d.table_checkpointAll kind⟩
  | rollbackAll checkpoints =>
      rcases (changeEach_changedUpTo _ d Kind.all nodup_all).table kind with hSame | hChange
      · exact Or.inl hSame
      · exact Or.inr ⟨_, .rollback checkpoints, hChange⟩
  | releaseAll checkpoints =>
      rcases (changeEach_changedUpTo _ d Kind.all nodup_all).table kind with hSame | hChange
      · exact Or.inl hSame
      · exact Or.inr ⟨_, .release checkpoints, hChange⟩
  | read root =>
      rcases d.read_cases root with ⟨-, -, hSections⟩ | ⟨fault, -, hSame⟩
      · obtain ⟨e, hTable⟩ := exists_read_of_readSection (hSections kind)
        exact Or.inr ⟨_, .read root e, hTable.symm⟩
      · rw [perform, hSame]
        exact Or.inl rfl

/-- Where an operation on a dictionary gives no record the last index, what it does to
a table fits the table. -/
theorem Operation.Fits.table {d : Dictionary} {op : Operation} (hFits : op.Fits d) {kind : Kind}
    {tableOp : Table.Operation} (hLeads : op.LeadsTo kind tableOp)
    (hTable : (d.perform op).table kind = (d.table kind).perform tableOp) :
    tableOp.Fits (d.table kind) := by
  have hBelow := hFits kind
  rw [hTable] at hBelow
  cases hLeads with
  | intern op key =>
      -- A new key is found at the index that the counter had, and that is not the last one.
      intro hNew
      refine hBelow _ (Std.ExtTreeMap.mem_keys.mpr ?_)
      rw [Table.perform, Table.intern_of_lookup_none hNew]
      exact Std.ExtTreeMap.mem_insert_self
  | checkpoint => trivial
  | rollback checkpoints => trivial
  | release checkpoints => trivial
  | read root e => trivial

/-- What an operation on a dictionary does to a table is a run of the table, of
one operation at most. -/
theorem exists_run_perform {d : Dictionary} {op : Operation} (hFits : op.Fits d) (kind : Kind) :
    ∃ tableOps, Table.transitions.Run (d.table kind) tableOps ((d.perform op).table kind) := by
  rcases d.table_perform op kind with hSame | ⟨tableOp, hLeads, hTable⟩
  · rw [hSame]
    exact ⟨[], .refl⟩
  · rw [hTable]
    exact ⟨[tableOp], Transitions.run_perform (hFits.table hLeads hTable)⟩

/-- In a run of a dictionary every table has a run of its own. -/
theorem exists_run_table {start d : Dictionary} {ops : List Operation}
    (run : transitions.Run start ops d) (kind : Kind) :
    ∃ tableOps, Table.transitions.Run (start.table kind) tableOps (d.table kind) := by
  induction run with
  | refl => exact ⟨[], .refl⟩
  | step prior op hFits hAllowed ih =>
      obtain ⟨earlier, first⟩ := ih
      obtain ⟨later, second⟩ := exists_run_perform hFits kind
      exact ⟨later ++ earlier, first.append second⟩

/-- In a wrapping run as well. -/
theorem exists_wrapping_run_table {start d : Dictionary} {ops : List Operation}
    (run : wrapping.Run start ops d) (kind : Kind) :
    ∃ tableOps, Table.wrapping.Run (start.table kind) tableOps (d.table kind) := by
  induction run with
  | refl => exact ⟨[], .refl⟩
  | @step ops middle prior op hFits hAllowed ih =>
      obtain ⟨earlier, first⟩ := ih
      rcases middle.table_perform op kind with hSame | ⟨tableOp, -, hTable⟩
      · rw [show (wrapping.perform middle op).table kind = _ from hSame]
        exact ⟨earlier, first⟩
      · rw [show (wrapping.perform middle op).table kind = _ from hTable]
        exact ⟨tableOp :: earlier, first.step tableOp trivial trivial⟩

end ProgramIndex.Dictionary
