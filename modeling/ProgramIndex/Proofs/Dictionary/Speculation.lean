import ProgramIndex.Proofs.Dictionary.Reachability
import ProgramIndex.Proofs.Dictionary.Session
import ProgramIndex.Proofs.Table.Rollback

/-!
Speculation on a whole dictionary. While a checkpoint of all tables stands, a
session that uses only newer checkpoints leaves it standing in every table, even
where a rollback of the session fails after it has changed some tables: each
token of the session lies above the checkpoint in every table. So the checkpoint
takes the dictionary back to where it was.
-/

namespace ProgramIndex

namespace Table

/-- The checkpoint taken in `before` still stands in `t`, and no record and no
reserved mark below its frontier has changed. -/
structure Shelters (before t : Table) : Prop where
  keeps : before.Keeps t
  consistent : t.Consistent
  reserved_iff : ∀ index < before.next, index ∈ t.reserved ↔ index ∈ before.reserved

/-- Operations that leave everything up to a depth of the stack alone and give no
reserved marks. -/
inductive Operation.Above (depth : Nat) : Operation → Prop where
  | intern (key : Key) : Above depth (.intern key)
  | checkpoint : Above depth .checkpoint
  | rollback {token : Checkpoint} (hDepth : depth < token.depth) : Above depth (.rollback token)
  | release {token : Checkpoint} (hDepth : depth < token.depth) : Above depth (.release token)

/-- Operations above a checkpoint leave it standing. -/
theorem Operation.Above.depth_lt {op : Operation} {t : Table} {depth : Nat} (hAbove : op.Above depth)
    (hStands : depth < t.frontiers.length) : depth < (t.perform op).frontiers.length := by
  cases hAbove with
  | intern key =>
      rw [Table.perform, (t.intern_frame key).2]
      exact hStands
  | checkpoint =>
      simp only [Table.perform, Table.checkpoint, List.length_append]
      omega
  | rollback hDepth =>
      rw [perform_rollback]
      split
      · exact lt_of_lt_of_eq (by omega) List.length_take.symm
      · exact hStands
  | release hDepth =>
      rw [perform_release]
      split
      · exact lt_of_lt_of_eq (by omega) List.length_take.symm
      · exact hStands

/-- A rollback to a newer checkpoint spares the marks below an older frontier. -/
theorem Operation.Above.reserved_iff {op : Operation} {t : Table} {depth frontier : Nat}
    (hAbove : op.Above depth) (h : t.Consistent) (hStanding : t.frontiers[depth]? = some frontier)
    {index : Nat} (hBelow : index < frontier) :
    index ∈ (t.perform op).reserved ↔ index ∈ t.reserved := by
  cases hAbove with
  | intern key => rw [Table.perform, t.intern_reserved key]
  | checkpoint => rfl
  | @rollback token hDepth =>
      rw [perform_rollback]
      split
      · rename_i hStands
        have hFrontier : frontier ≤ token.frontier :=
          h.frontier_mono (Nat.le_of_lt hDepth) hStanding (stands_iff.mp hStands)
        rw [mem_discardFrom_reserved]
        exact and_iff_right (Nat.lt_of_lt_of_le hBelow hFrontier)
      · rfl
  | release hDepth =>
      rw [perform_release]
      split <;> rfl

/-- Operations above the checkpoint keep everything that it shelters. -/
theorem Shelters.perform {before t : Table} (hShelters : before.Shelters t) {op : Operation}
    (hFits : op.Fits t) (hAbove : op.Above before.frontiers.length) :
    before.Shelters (t.perform op) where
  keeps :=
    hShelters.keeps.perform hShelters.consistent op
      (hAbove.depth_lt (List.getElem?_eq_some_iff.mp hShelters.keeps.standing).1)
  consistent := hShelters.consistent.perform hFits
  reserved_iff index hBelow := by
    rw [hAbove.reserved_iff hShelters.consistent hShelters.keeps.standing hBelow]
    exact hShelters.reserved_iff index hBelow

/-- The sheltered table comes back whole, reserved marks included. -/
theorem Shelters.rollback {before t : Table} (hShelters : before.Shelters t)
    (h : before.Consistent) : t.rollback before.here = (before, .ok ()) := by
  have hStands : t.stands before.here = true := stands_iff.mpr hShelters.keeps.standing
  have hReserved : t.reserved.filter (· < before.next) = before.reserved := by
    apply Std.ExtTreeSet.ext_mem
    intro index
    simp only [Std.ExtTreeSet.mem_filter, Std.ExtTreeSet.get_eq, decide_eq_true_eq, exists_prop]
    constructor
    · rintro ⟨hMarked, hBelow⟩
      exact (hShelters.reserved_iff index hBelow).mp hMarked
    · intro hMarked
      have hBelow := h.lt_next index (h.reserved_filled index hMarked)
      exact ⟨(hShelters.reserved_iff index hBelow).mpr hMarked, hBelow⟩
  have hRestored := hShelters.keeps.restored h hShelters.consistent
  rw [rollback_of_stands hStands]
  refine congrArg (·, _) (hRestored.trans ?_)
  rw [hReserved]

end Table

namespace Dictionary

/-- What holds throughout a session that began right after a checkpoint of all
tables was taken in `before`. -/
structure Session.Shelters (before : Dictionary) (s : Session) : Prop where
  registry_eq : s.dictionary.registry = before.registry
  tables : ∀ kind, (before.table kind).Shelters (s.dictionary.table kind)
  deeper : ∀ checkpoints ∈ s.taken, ∀ kind,
    (before.table kind).frontiers.length < (checkpoints.token kind).depth

theorem Session.Permits.above {s : Session} {op : Operation} (hPermits : s.Permits op) {kind : Kind}
    {depth : Nat} (hDeeper : ∀ checkpoints ∈ s.taken, depth < (checkpoints.token kind).depth)
    {tableOp : Table.Operation} (hLeads : op.LeadsTo kind tableOp) : tableOp.Above depth := by
  cases hLeads with
  | intern op key => exact .intern key
  | checkpoint => exact .checkpoint
  | rollback checkpoints => exact .rollback (hDeeper checkpoints hPermits)
  | release checkpoints => exact .release (hDeeper checkpoints hPermits)
  | read root e => exact hPermits.elim

theorem Session.Shelters.perform {before : Dictionary} {s : Session} (h : s.Shelters before)
    {op : Operation} (hPermits : s.Permits op) (hFits : op.Fits s.dictionary) :
    (s.perform op).Shelters before where
  registry_eq := (s.dictionary.registry_perform op).trans h.registry_eq
  tables kind := by
    rw [Session.dictionary_perform]
    rcases s.dictionary.table_perform op kind with hSame | ⟨tableOp, hLeads, hTable⟩
    · rw [hSame]
      exact h.tables kind
    · rw [hTable]
      refine (h.tables kind).perform (hFits.table hLeads hTable) (hPermits.above ?_ hLeads)
      exact fun checkpoints hTaken => h.deeper checkpoints hTaken kind
  deeper checkpoints hTaken kind := by
    cases op with
    | checkpointAll =>
        rcases List.mem_cons.mp hTaken with rfl | hOld
        · -- The new token lies on top of the checkpoint that the session shelters.
          exact (List.getElem?_eq_some_iff.mp (h.tables kind).keeps.standing).1
        · exact h.deeper checkpoints hOld kind
    | _ => exact h.deeper checkpoints hTaken kind

end Dictionary

end ProgramIndex
