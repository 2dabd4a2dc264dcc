import ProgramIndex.Proofs.Table.Rollback

/-!
Tokens whose checkpoint is gone. A token names a depth and a frontier only, so it fits
a later checkpoint at the same place as well. As long as the checkpoints below have
stood all the time this does no harm: the counter never falls below the frontier and
no record below it changes, so whichever checkpoint the token is taken for, a
rollback gives the same table. A token that is never given out again stays refused.
-/

namespace ProgramIndex.Table

/-! ### Tables under standing checkpoints -/

/-- The operation may store records in gaps or replace all of them: it is a load where
no checkpoint stands, a reset, or a successful reading. -/
inductive Operation.Refills (t : Table) : Operation → Prop where
  | load {entries : List Record} (hNone : t.frontiers = []) : Refills t (.load entries)
  | reset : Refills t .reset
  | read {e : Element} (hRead : (t.read e).2 = .ok ()) : Refills t (.read e)

/-- A reading that succeeds leaves no checkpoints. -/
theorem frontiers_of_read {t : Table} {e : Element} (hRead : (t.read e).2 = .ok ()) :
    (t.perform (.read e)).frontiers = [] := by
  rcases t.perform_read_cases e with ⟨fresh, hFresh, hSame⟩ | ⟨⟨fault, hFault⟩, -⟩
  · rw [hSame, (ofElement_frame hFresh).2.2]
  · rw [read_of_error hFault] at hRead
    cases hRead

/-- The table `before` lies below the later table `t`, on the same checkpoints: its
records are the first of `t`, and neither the counter nor a newer frontier is lower
than its own counter. -/
structure Underlies (before t : Table) : Prop where
  name_eq : t.name = before.name
  older : t.frontiers.take before.frontiers.length = before.frontiers
  records_eq : ∀ index < before.next, t.records[index]? = before.records[index]?
  next_le : before.next ≤ t.next
  frontier_le : ∀ frontier, t.frontiers[before.frontiers.length]? = some frontier →
    before.next ≤ frontier

/-- Where the stack stays as high as `depth`, an operation that does not refill the
table spares what is below a bound that neither the counter nor the frontier at this
depth falls short of. -/
theorem Consistent.perform_below {t : Table} (h : t.Consistent) {op : Operation}
    (hFits : op.Fits t) {depth bound : Nat} (hRefills : ¬ op.Refills t)
    (hAbove : depth ≤ (t.perform op).frontiers.length) (hNext : bound ≤ t.next)
    (hFrontier : ∀ frontier, t.frontiers[depth]? = some frontier → bound ≤ frontier) :
    bound ≤ (t.perform op).next ∧
      ∀ index < bound, (t.perform op).records[index]? = t.records[index]? := by
  cases op with
  | intern key =>
      exact ⟨Nat.le_trans hNext (next_le_intern hFits),
        fun index hBelow => t.intern_records_of_lt key (Nat.lt_of_lt_of_le hBelow hNext)⟩
  | reserve key =>
      exact ⟨Nat.le_trans hNext (next_le_intern hFits),
        fun index hBelow => t.intern_records_of_lt key (Nat.lt_of_lt_of_le hBelow hNext)⟩
  | load entries =>
      have hStanding : t.frontiers ≠ [] := fun hNone => hRefills (.load hNone)
      rw [Table.perform, load_of_checkpoint hStanding]
      exact ⟨hNext, fun _ _ => rfl⟩
  | checkpoint => exact ⟨hNext, fun _ _ => rfl⟩
  | rollback token =>
      rw [perform_rollback] at hAbove ⊢
      split
      · rename_i hStands
        rw [if_pos hStands] at hAbove
        have hToken := stands_iff.mp hStands
        have hCut : depth ≤ (t.frontiers.take token.depth).length := hAbove
        rw [List.length_take] at hCut
        -- The cut is at the frontier of a checkpoint that is not below the depth.
        have hBound : bound ≤ token.frontier := by
          have hLess := (List.getElem?_eq_some_iff.mp hToken).1
          have hAt : t.frontiers[depth]? = some t.frontiers[depth] :=
            List.getElem?_eq_getElem (by omega)
          exact Nat.le_trans (hFrontier _ hAt) (h.frontier_mono (by omega) hAt hToken)
        refine ⟨hBound, fun index hBelow => ?_⟩
        rw [discardFrom_records, if_pos (Nat.lt_of_lt_of_le hBelow hBound)]
        rfl
      · exact ⟨hNext, fun _ _ => rfl⟩
  | release token =>
      rw [perform_release]
      split <;> exact ⟨hNext, fun _ _ => rfl⟩
  | reset => exact absurd .reset hRefills
  | read e =>
      rcases t.perform_read_cases e with ⟨fresh, hRead, -⟩ | ⟨-, hSame⟩
      · exact absurd (.read (by rw [read_of_ok hRead])) hRefills
      · rw [hSame]
        exact ⟨hNext, fun _ _ => rfl⟩

theorem Underlies.length_le {before t : Table} (hUnder : before.Underlies t) :
    before.frontiers.length ≤ t.frontiers.length := by
  have hLength := congrArg List.length hUnder.older
  rw [List.length_take] at hLength
  omega

theorem Underlies.perform {before t : Table} (hUnder : before.Underlies t) (h : t.Consistent)
    {op : Operation} (hFits : op.Fits t) (hRefills : ¬ op.Refills t)
    (hAbove : before.frontiers.length ≤ (t.perform op).frontiers.length) :
    before.Underlies (t.perform op) := by
  obtain ⟨hNext, hRecords⟩ :=
    h.perform_below hFits hRefills hAbove hUnder.next_le hUnder.frontier_le
  refine {
    name_eq := (t.name_perform op).trans hUnder.name_eq
    older := (take_frontiers_perform hUnder.length_le hAbove).trans hUnder.older
    records_eq := fun index hBelow => (hRecords index hBelow).trans (hUnder.records_eq index hBelow)
    next_le := hNext
    frontier_le := fun frontier hFrontier => ?_ }
  have hAfter := (List.getElem?_eq_some_iff.mp hFrontier).1
  rcases Nat.lt_or_eq_of_le hUnder.length_le with hLess | hTop
  · rw [getElem?_frontiers_perform hLess hAfter] at hFrontier
    exact hUnder.frontier_le frontier hFrontier
  · -- The stack has grown, by a checkpoint whose frontier is the counter.
    rcases t.frontiers_perform op with rfl | ⟨cut, hCut⟩
    · have hAppend : (t.perform .checkpoint).frontiers = t.frontiers ++ [t.next] := rfl
      rw [hAppend, hTop, List.getElem?_concat_length] at hFrontier
      exact Nat.le_trans hUnder.next_le (Nat.le_of_eq (Option.some.inj hFrontier))
    · rw [hCut, List.length_take] at hAfter
      omega

/-- Where the token fits a checkpoint, this one might as well be the one that the
token was taken for. -/
theorem Underlies.keeps {before t : Table} (hUnder : before.Underlies t)
    (hStands : t.frontiers[before.frontiers.length]? = some before.next) : before.Keeps t where
  name_eq := hUnder.name_eq
  older := hUnder.older
  standing := hStands
  records_eq := hUnder.records_eq

/-- The operation discards the checkpoint that stands at a depth: this one or an older
one is rolled back or released, or the table is reset or read anew. -/
inductive Operation.Discards (t : Table) (depth : Nat) : Operation → Prop where
  | rollback {token : Checkpoint} (hAccepted : (t.rollback token).2 = .ok ())
      (hDepth : token.depth ≤ depth) : Discards t depth (.rollback token)
  | release {token : Checkpoint} (hAccepted : (t.release token).2 = .ok ())
      (hDepth : token.depth ≤ depth) : Discards t depth (.release token)
  | reset : Discards t depth .reset
  | read {e : Element} (hRead : (t.read e).2 = .ok ()) : Discards t depth (.read e)

/-- A token is refused for going back and for releasing, and nothing changes. -/
structure Rejects (t : Table) (token : Checkpoint) : Prop where
  rollback_eq : t.rollback token = (t, .error (.staleCheckpoint t.name token.frontier))
  release_eq : t.release token = (t, .error (.staleCheckpoint t.name token.frontier))

theorem Operation.Discards.length_le {t : Table} {depth : Nat} {op : Operation}
    (hDiscards : op.Discards t depth) : (t.perform op).frontiers.length ≤ depth := by
  cases hDiscards with
  | rollback hAccepted hDepth =>
      rw [perform_rollback, if_pos (stands_iff.mpr (rollback_eq_ok_iff.mp hAccepted))]
      exact Nat.le_trans (List.length_take_le _ _) hDepth
  | release hAccepted hDepth =>
      rw [perform_release, if_pos (stands_iff.mpr (release_eq_ok_iff.mp hAccepted))]
      exact Nat.le_trans (List.length_take_le _ _) hDepth
  | reset => exact Nat.zero_le depth
  | read hRead =>
      rw [frontiers_of_read hRead]
      exact Nat.zero_le depth

/-- A token is refused exactly if it does not stand. -/
theorem rejects_iff {t : Table} {token : Checkpoint} :
    t.Rejects token ↔ t.frontiers[token.depth]? ≠ some token.frontier := by
  constructor
  · intro hRejects hStands
    have hAccepted := rollback_eq_ok_iff.mpr hStands
    rw [hRejects.rollback_eq] at hAccepted
    cases hAccepted
  · intro hStale
    have hStands : t.stands token = false := by
      rw [← Bool.not_eq_true, stands_iff]
      exact hStale
    exact ⟨rollback_of_stale hStands, release_of_stale hStands⟩

/-- A token fits the checkpoint that stands at its depth exactly if it is the one that
was given out for it. -/
theorem StandsSince.fits_iff {start t before : Table} {ops : List Operation} {token : Checkpoint}
    (hStart : start.Consistent) (hSince : StandsSince start ops t token.depth before) :
    t.frontiers[token.depth]? = some token.frontier ↔ before.checkpoint.1 = token := by
  obtain ⟨later, earlier, -, hEarlier, hDepth, hLater⟩ := hSince
  rw [← hDepth] at hLater ⊢
  rw [(keeps_of_run (hStart.run hEarlier) hLater).standing, Option.some.injEq]
  constructor
  · intro hFrontier
    rw [checkpoint, here, hDepth, hFrontier]
  · rintro rfl
    rfl

/-- Once the checkpoint that a token was given out for has been discarded, the token is
refused in every later table, except where the same token has been given out again
and the later checkpoint stands. -/
theorem rejects_iff_not_retaken_of_run {name : String} {ops : List Operation}
    {s before : Table} (hSince : StandsSince (new name) ops s before.frontiers.length before)
    {op : Operation} (hFits : op.Fits s) (hDiscards : op.Discards s before.frontiers.length)
    {later : List Operation} {u : Table} (run : transitions.Run (s.perform op) later u) :
    u.Rejects before.checkpoint.1 ↔
      ¬ ∃ again, StandsSince (s.perform op) later u before.frontiers.length again ∧
        again.checkpoint.1 = before.checkpoint.1 := by
  have hStart : (s.perform op).Consistent :=
    (consistent_new name).run (hSince.toRun.step op hFits trivial)
  rw [rejects_iff]
  refine not_congr ⟨fun hStands => ?_, ?_⟩
  · have hLess := (List.getElem?_eq_some_iff.mp hStands).1
    obtain ⟨again, hAgain⟩ := exists_standsSince_of_length_le run hDiscards.length_le hLess
    exact ⟨again, hAgain, (hAgain.fits_iff hStart).mp hStands⟩
  · rintro ⟨again, hAgain, hToken⟩
    exact (StandsSince.fits_iff hStart hAgain).mpr hToken

/-- A token that is given out again after its checkpoint was rolled back, and whose
second checkpoint is released, is refused once the table has grown under a third one. -/
theorem rejects_after_growth :
    ∃ (before s u : Table) (later : List Operation),
      StandsSince (new "typ-table") [.intern ⟨["tint"], []⟩, .checkpoint] s
        before.frontiers.length before ∧
      Operation.Fits s (.rollback ⟨0, 0⟩) ∧
      Operation.Discards s before.frontiers.length (.rollback ⟨0, 0⟩) ∧
      later = [.checkpoint, .release ⟨0, 0⟩, .intern ⟨["tptr"], [0]⟩, .checkpoint] ∧
      transitions.Run (s.perform (.rollback ⟨0, 0⟩)) later u ∧ u.frontiers = [1] ∧
      u.Rejects before.checkpoint.1 ∧
      ¬ ∃ again, StandsSince (s.perform (.rollback ⟨0, 0⟩)) later u before.frontiers.length again ∧
        again.checkpoint.1 = before.checkpoint.1 := by
  have standing := (Transitions.RunWithin.refl :
    transitions.RunWithin (fun s => 0 < s.frontiers.length) (new "typ-table").checkpoint.2 [] _).step
    (.intern ⟨["tint"], []⟩) (fun _ => by decide +kernel) (by decide +kernel)
  have hSince : StandsSince (new "typ-table") _ _ (new "typ-table").frontiers.length _ :=
    ⟨_, _, rfl, .refl, rfl, standing⟩
  have hDiscards : Operation.Discards
      ((new "typ-table").checkpoint.2.perform (.intern ⟨["tint"], []⟩)) 0 (.rollback ⟨0, 0⟩) :=
    .rollback (rollback_eq_ok_iff.mpr (by decide +kernel)) (Nat.le_refl 0)
  have run := ((((Transitions.RunWithin.refl : transitions.Run
    (((new "typ-table").checkpoint.2.perform (.intern ⟨["tint"], []⟩)).perform
      (.rollback ⟨0, 0⟩)) [] _).step
    .checkpoint trivial trivial).step
    (.intern ⟨["tptr"], [0]⟩) (fun _ => by decide +kernel) trivial).step
    (.release ⟨0, 0⟩) trivial trivial).step
    .checkpoint trivial trivial
  exact ⟨_, _, _, _, hSince, trivial, hDiscards, rfl, run, by decide +kernel,
    rejects_iff.mpr (by decide +kernel),
    (rejects_iff_not_retaken_of_run hSince (by trivial) hDiscards run).mp
      (rejects_iff.mpr (by decide +kernel))⟩

/-- A released token is given out again for the next checkpoint. It is then accepted
for a rollback, which discards a record stored under that checkpoint. -/
theorem released_token_accepted_again :
    ∃ before s u : Table,
      StandsSince (new "typ-table") [.checkpoint] s before.frontiers.length before ∧
      Operation.Fits s (.release ⟨0, 0⟩) ∧
      Operation.Discards s before.frontiers.length (.release ⟨0, 0⟩) ∧
      transitions.Run (s.perform (.release ⟨0, 0⟩)) [.intern ⟨["tint"], []⟩, .checkpoint] u ∧
      u.size = 1 ∧ u.frontiers = [0] ∧ (u.rollback before.checkpoint.1).2 = .ok () ∧
      (u.rollback before.checkpoint.1).1.size = 0 ∧
      (u.rollback before.checkpoint.1).1.frontiers = [] ∧ ¬ u.Rejects before.checkpoint.1 := by
  have hSince : StandsSince (new "typ-table") [.checkpoint] (new "typ-table").checkpoint.2
      (new "typ-table").frontiers.length (new "typ-table") :=
    ⟨[], [], rfl, .refl, rfl, .refl⟩
  have hDiscards : Operation.Discards (new "typ-table").checkpoint.2 0 (.release ⟨0, 0⟩) :=
    .release (release_eq_ok_iff.mpr rfl) (Nat.le_refl 0)
  have run := ((Transitions.RunWithin.refl :
    transitions.Run ((new "typ-table").checkpoint.2.perform (.release ⟨0, 0⟩)) [] _).step
    .checkpoint trivial trivial).step
    (.intern ⟨["tint"], []⟩) (fun _ => by decide +kernel) trivial
  exact ⟨_, _, _, hSince, trivial, hDiscards, run, by decide +kernel, by decide +kernel,
    rollback_eq_ok_iff.mpr (by decide +kernel), by decide +kernel, by decide +kernel,
    fun hRejects => rejects_iff.mp hRejects (by decide +kernel)⟩

end ProgramIndex.Table
