import ProgramIndex.Proofs.Table.Consistency

/-!
Going back to a checkpoint. While a checkpoint stands, nothing below its frontier
changes: loading is refused, interning only appends, and a rollback that spares
the checkpoint does not cut below it. So the number kept for the checkpoint is
enough to rebuild the table of the moment when it was taken. Once the counter has
started again at zero it is not: then interning goes on below the frontier.
-/

namespace ProgramIndex.Table

/-- The checkpoint taken in `before` still stands in `t`, on top of the same older
ones, and all records below its frontier are those of `before`. -/
structure Keeps (before t : Table) : Prop where
  name_eq : t.name = before.name
  older : t.frontiers.take before.frontiers.length = before.frontiers
  standing : t.frontiers[before.frontiers.length]? = some before.next
  records_eq : ∀ index < before.next, t.records[index]? = before.records[index]?

/-- A checkpoint changes no record. -/
theorem keeps_checkpoint (before : Table) : before.Keeps before.checkpoint.2 where
  name_eq := rfl
  older := by simp [checkpoint]
  standing := by simp [checkpoint]
  records_eq _ _ := rfl

/-- Interning leaves the records below the counter alone. -/
theorem intern_records_of_lt (t : Table) (key : Key) {index : Nat} (hBelow : index < t.next) :
    (t.intern key).2.records[index]? = t.records[index]? := by
  cases hLookup : t.lookup? key with
  | none =>
      rw [intern_of_lookup_none hLookup, allocate_records, if_neg]
      exact Nat.ne_of_gt hBelow
  | some found => rw [intern_of_lookup hLookup]

/-- As long as a checkpoint stands before and after an operation, no record
below its frontier changes. -/
theorem records_perform {t : Table} (h : t.Consistent) (op : Operation) {depth frontier : Nat}
    (hStanding : t.frontiers[depth]? = some frontier)
    (hAfter : depth < (t.perform op).frontiers.length) {index : Nat} (hBelow : index < frontier) :
    (t.perform op).records[index]? = t.records[index]? := by
  have hNext : index < t.next :=
    Nat.lt_of_lt_of_le hBelow (h.frontier_le frontier (List.mem_of_getElem? hStanding))
  cases op with
  | intern key => exact t.intern_records_of_lt key hNext
  | reserve key => exact t.intern_records_of_lt key hNext
  | load entries =>
      have hSome : t.frontiers ≠ [] := List.ne_nil_of_mem (List.mem_of_getElem? hStanding)
      simp only [perform, load_of_checkpoint hSome]
  | checkpoint => rfl
  | rollback token =>
      rw [perform_rollback] at hAfter ⊢
      split
      · rename_i hStands
        rw [if_pos hStands] at hAfter
        -- The cut is above the standing checkpoint, so it is not below its frontier.
        have hDepth : depth < token.depth := by
          have hCut : depth < (t.frontiers.take token.depth).length := hAfter
          rw [List.length_take] at hCut
          omega
        have hFrontier : frontier ≤ token.frontier :=
          h.frontier_mono (Nat.le_of_lt hDepth) hStanding (stands_iff.mp hStands)
        rw [discardFrom_records, if_pos (Nat.lt_of_lt_of_le hBelow hFrontier)]
        rfl
      · rfl
  | release token =>
      rw [perform_release]
      split <;> rfl
  | reset => exact absurd hAfter (Nat.not_lt_zero _)
  | read e =>
      rcases t.perform_read_cases e with ⟨fresh, hRead, hFresh⟩ | ⟨-, hSame⟩
      · rw [hFresh, (ofElement_frame hRead).2.2] at hAfter
        exact absurd hAfter (Nat.not_lt_zero _)
      · rw [hSame]

/-- What a standing checkpoint protects stays protected by every operation that
leaves it standing. -/
theorem Keeps.perform {before t : Table} (hKeeps : before.Keeps t) (h : t.Consistent)
    (op : Operation) (hAfter : before.frontiers.length < (t.perform op).frontiers.length) :
    before.Keeps (t.perform op) where
  name_eq := (t.name_perform op).trans hKeeps.name_eq
  older := by
    have hLess := (List.getElem?_eq_some_iff.mp hKeeps.standing).1
    rw [take_frontiers_perform (Nat.le_of_lt hLess) (Nat.le_of_lt hAfter)]
    exact hKeeps.older
  standing := by
    have hLess := (List.getElem?_eq_some_iff.mp hKeeps.standing).1
    rw [getElem?_frontiers_perform hLess hAfter]
    exact hKeeps.standing
  records_eq index hBelow := by
    rw [records_perform h op hKeeps.standing hAfter hBelow]
    exact hKeeps.records_eq index hBelow

/-- What a checkpoint protects is protected as long as it stands. -/
theorem keeps_of_run {before t : Table} (h : before.Consistent) {later : List Operation}
    (run : transitions.RunWithin (fun s => before.frontiers.length < s.frontiers.length)
      before.checkpoint.2 later t) : before.Keeps t := by
  refine (run.invariant (fun s => before.Keeps s ∧ s.Consistent)
    ⟨before.keeps_checkpoint, h.checkpoint⟩ ?_).1
  intro s op hKept hFits hStill
  exact ⟨hKept.1.perform hKept.2 op hStill, hKept.2.perform hFits⟩

/-- Where the records below a frontier are kept their keys are kept as well. -/
theorem Keeps.indices_iff {before t : Table} (hKeeps : before.Keeps t) (hBefore : before.Consistent)
    (h : t.Consistent) {key : Key} {index : Nat} (hBelow : index < before.next) :
    t.indices[key]? = some index ↔ before.indices[key]? = some index := by
  rw [h.lookup_iff, hBefore.lookup_iff, hKeeps.records_eq index hBelow]

/-- Cutting the table back to the kept checkpoint gives the table of the moment
when it was taken, but for reserved marks given or lost since. -/
theorem Keeps.restored {before t : Table} (hKeeps : before.Keeps t) (hBefore : before.Consistent)
    (h : t.Consistent) :
    (t.dropCheckpoint ⟨before.frontiers.length, before.next⟩).discardFrom before.next =
      { before with reserved := t.reserved.filter (· < before.next) } := by
  have hIndices : (t.discardFrom before.next).indices = before.indices := by
    apply Std.ExtTreeMap.ext_getElem?
    intro key
    apply Option.ext
    intro index
    rw [h.discardFrom_indices]
    constructor
    · rintro ⟨hBelow, hStored⟩
      exact (hKeeps.indices_iff hBefore h hBelow).mp hStored
    · intro hStored
      have hRecord := (hBefore.lookup_iff key index).mp hStored
      have hBelow := hBefore.lt_next index (mem_records_iff.mpr ⟨_, hRecord⟩)
      exact ⟨hBelow, (hKeeps.indices_iff hBefore h hBelow).mpr hStored⟩
  have hRecords : (t.discardFrom before.next).records = before.records := by
    apply Std.ExtTreeMap.ext_getElem?
    intro index
    rw [discardFrom_records]
    split
    · rename_i hBelow
      exact hKeeps.records_eq index hBelow
    · rename_i hAbove
      cases hRecord : before.records[index]? with
      | none => rfl
      | some record =>
          exact absurd (hBefore.lt_next index (mem_records_iff.mpr ⟨record, hRecord⟩)) hAbove
  show Table.mk t.name (t.discardFrom before.next).indices (t.discardFrom before.next).records
    before.next _ (t.frontiers.take before.frontiers.length) = _
  rw [hIndices, hRecords, hKeeps.older, hKeeps.name_eq]
  rfl

/-- In the run `ops` from `start` to `t`, the checkpoint that now stands at `depth`
was taken in the table `before`. Since then the stack has always been higher than
`depth`, so it is this checkpoint, and no later one, that stands there. -/
def StandsSince (start : Table) (ops : List Operation) (t : Table) (depth : Nat)
    (before : Table) : Prop :=
  ∃ later earlier, ops = later ++ .checkpoint :: earlier ∧ transitions.Run start earlier before ∧
    before.frontiers.length = depth ∧
    transitions.RunWithin (fun s => depth < s.frontiers.length) before.checkpoint.2 later t

theorem StandsSince.snoc {start t before : Table} {ops : List Operation} {depth : Nat}
    (hSince : StandsSince start ops t depth before) {op : Operation} (hFits : op.Fits t)
    (hStill : depth < (t.perform op).frontiers.length) :
    StandsSince start (op :: ops) (t.perform op) depth before := by
  obtain ⟨later, earlier, rfl, hEarlier, hDepth, hLater⟩ := hSince
  exact ⟨op :: later, earlier, rfl, hEarlier, hDepth, hLater.step op hFits hStill⟩

theorem StandsSince.toRun {start t before : Table} {ops : List Operation} {depth : Nat}
    (hSince : StandsSince start ops t depth before) : transitions.Run start ops t := by
  obtain ⟨later, earlier, rfl, hEarlier, -, hLater⟩ := hSince
  exact (hEarlier.step .checkpoint trivial trivial).append hLater.toRun

/-- A checkpoint that stands at a depth which the stack did not reach at the start has
been taken in the run. -/
theorem exists_standsSince_of_length_le {start t : Table} {ops : List Operation}
    (run : transitions.Run start ops t) {depth : Nat} (hStart : start.frontiers.length ≤ depth)
    (hStands : depth < t.frontiers.length) : ∃ before, StandsSince start ops t depth before := by
  induction run with
  | refl => exact absurd hStands (Nat.not_lt_of_le hStart)
  | @step earlier s prior op hFits _ ih =>
      have hStill : depth < (s.perform op).frontiers.length := hStands
      by_cases hOld : depth < s.frontiers.length
      · obtain ⟨before, hSince⟩ := ih hOld
        exact ⟨before, hSince.snoc hFits hStill⟩
      · rcases s.frontiers_perform op with rfl | ⟨cut, hCut⟩
        · -- The checkpoint is the one just taken.
          have hLength : (s.perform .checkpoint).frontiers.length = s.frontiers.length + 1 := by
            simp [perform, checkpoint]
          exact ⟨s, [], earlier, rfl, prior, by omega, Transitions.RunWithin.refl⟩
        · rw [hCut, List.length_take] at hStill
          omega

end ProgramIndex.Table
