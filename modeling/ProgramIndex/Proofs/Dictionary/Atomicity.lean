import ProgramIndex.Proofs.Dictionary.Operation

/-!
Rolling all tables back, or releasing a checkpoint in all of them. The tokens are
checked one table at a time while earlier tables are changed already. So a stale
token leaves the dictionary alone only if it is the first one; if it is a later
one, the tables before it have lost a checkpoint and perhaps records.
-/

namespace ProgramIndex.Dictionary

/-- Either all tables have been changed, or some token was found stale and no
table has lost or gained a record, an index or a checkpoint. -/
def AllOrNothing (change : Kind → Table → Table × Except Fault Unit) (d : Dictionary)
    (outcome : Dictionary × Except Fault Unit) : Prop :=
  (outcome.2 = .ok () ∧
    ∀ kind, change kind (d.table kind) = (outcome.1.table kind, .ok ())) ∨
  ((∃ table frontier, outcome.2 = .error (.staleCheckpoint table frontier)) ∧
    ∀ kind, (outcome.1.table kind).indices = (d.table kind).indices ∧
      (outcome.1.table kind).records = (d.table kind).records ∧
      (outcome.1.table kind).next = (d.table kind).next ∧
      (outcome.1.table kind).frontiers = (d.table kind).frontiers)

/-- A change of tables that drops the checkpoint of a standing token and all newer
ones, and that refuses a stale token without a change. -/
structure DropsCheckpoint (tokens : Kind → Checkpoint)
    (change : Kind → Table → Table × Except Fault Unit) : Prop where
  accept : ∀ kind t, t.stands (tokens kind) = true →
    ∃ changed, change kind t = (changed, .ok ()) ∧
      changed.frontiers = t.frontiers.take (tokens kind).depth
  refuse : ∀ kind t, t.stands (tokens kind) = false →
    change kind t = (t, .error (.staleCheckpoint t.name (tokens kind).frontier))

theorem dropsCheckpoint_rollback (tokens : Kind → Checkpoint) :
    DropsCheckpoint tokens fun kind t => t.rollback (tokens kind) where
  accept _ _ hStands := ⟨_, Table.rollback_of_stands hStands, rfl⟩
  refuse _ _ hStale := Table.rollback_of_stale hStale

theorem dropsCheckpoint_release (tokens : Kind → Checkpoint) :
    DropsCheckpoint tokens fun kind t => t.release (tokens kind) where
  accept _ _ hStands := ⟨_, Table.release_of_stands hStands, rfl⟩
  refuse _ _ hStale := Table.release_of_stale hStale

/-- A change that succeeds had a standing token. -/
theorem DropsCheckpoint.stands_of_ok {tokens : Kind → Checkpoint}
    {change : Kind → Table → Table × Except Fault Unit} (hDrops : DropsCheckpoint tokens change)
    {kind : Kind} {t changed : Table} (hChange : change kind t = (changed, .ok ())) :
    t.stands (tokens kind) = true := by
  cases hStands : t.stands (tokens kind) with
  | true => rfl
  | false =>
      have hStale := congrArg Prod.snd (hChange.symm.trans (hDrops.refuse kind t hStands))
      cases hStale

/-- A change that fails had a stale token, and it is refused for that reason. -/
theorem DropsCheckpoint.stale_of_error {tokens : Kind → Checkpoint}
    {change : Kind → Table → Table × Except Fault Unit} (hDrops : DropsCheckpoint tokens change)
    {kind : Kind} {t changed : Table} {fault : Fault}
    (hChange : change kind t = (changed, .error fault)) :
    t.stands (tokens kind) = false ∧ changed = t ∧
      fault = .staleCheckpoint t.name (tokens kind).frontier := by
  cases hStands : t.stands (tokens kind) with
  | false =>
      have hStale := hChange.symm.trans (hDrops.refuse kind t hStands)
      exact ⟨rfl, congrArg Prod.fst hStale, Except.error.inj (congrArg Prod.snd hStale)⟩
  | true =>
      obtain ⟨dropped, hOk, -⟩ := hDrops.accept kind t hStands
      have hFault := congrArg Prod.snd (hChange.symm.trans hOk)
      cases hFault

/-- A change that succeeds has shortened the stack of checkpoints. -/
theorem DropsCheckpoint.frontiers_ne {tokens : Kind → Checkpoint}
    {change : Kind → Table → Table × Except Fault Unit} (hDrops : DropsCheckpoint tokens change)
    {kind : Kind} {t changed : Table} (hChange : change kind t = (changed, .ok ())) :
    changed.frontiers ≠ t.frontiers := by
  have hStands := hDrops.stands_of_ok hChange
  obtain ⟨dropped, hOk, hFrontiers⟩ := hDrops.accept kind t hStands
  have hSame : changed = dropped := congrArg Prod.fst (hChange.symm.trans hOk)
  have hLess := (List.getElem?_eq_some_iff.mp (Table.stands_iff.mp hStands)).1
  intro hEqual
  have hLength := congrArg List.length hEqual
  rw [hSame, hFrontiers, List.length_take] at hLength
  omega

/-- The first table comes before every stale one but itself. -/
theorem first_mem_of_split {earlier later : List Kind} {failed : Kind}
    (hKinds : Kind.all = earlier ++ failed :: later) (hFailed : failed ≠ .attrParam) :
    Kind.attrParam ∈ earlier := by
  cases earlier with
  | nil => exact absurd (List.cons.inj hKinds).1.symm hFailed
  | cons first rest =>
      rw [← (List.cons.inj hKinds).1]
      exact List.mem_cons_self

/-- Changing all tables is all or nothing exactly if all tokens are good or the
first one is stale. -/
theorem DropsCheckpoint.allOrNothing_iff {tokens : Kind → Checkpoint}
    {change : Kind → Table → Table × Except Fault Unit} (hDrops : DropsCheckpoint tokens change)
    (d : Dictionary) :
    AllOrNothing change d (d.changeEach change Kind.all) ↔
      (∀ kind, (d.table kind).stands (tokens kind) = true) ∨
        (d.table .attrParam).stands (tokens .attrParam) = false := by
  have hOutcome := changeEach_changedUpTo change d Kind.all nodup_all
  unfold AllOrNothing
  revert hOutcome
  generalize (d.changeEach change Kind.all).1 = after
  generalize (d.changeEach change Kind.all).2 = result
  intro hOutcome
  cases hOutcome with
  | all hChanged hOthers =>
      have hAll : ∀ kind, change kind (d.table kind) = (after.table kind, .ok ()) := fun kind =>
        hChanged kind (Kind.mem_all kind)
      exact ⟨fun _ => Or.inl fun kind => hDrops.stands_of_ok (hAll kind),
        fun _ => Or.inl ⟨rfl, hAll⟩⟩
  | @fault earlier later failed fault hKinds hChanged hFault hOthers =>
      obtain ⟨hStale, hKept, hReason⟩ := hDrops.stale_of_error hFault
      constructor
      · rintro (⟨hOk, -⟩ | ⟨-, hSame⟩)
        · cases hOk
        · by_cases hFailed : failed = .attrParam
          · subst hFailed
            exact Or.inr hStale
          · -- The first table was changed, so it has lost a checkpoint.
            have hFirst := hChanged .attrParam (first_mem_of_split hKinds hFailed)
            exact absurd (hSame .attrParam).2.2.2 (hDrops.frontiers_ne hFirst)
      · rintro (hAll | hFirst)
        · rw [hAll failed] at hStale
          cases hStale
        · have hNone : earlier = [] := by
            cases earlier with
            | nil => rfl
            | cons first rest =>
                have hHead : Kind.attrParam = first := (List.cons.inj hKinds).1
                have hStands := hDrops.stands_of_ok (hChanged first List.mem_cons_self)
                rw [← hHead, hFirst] at hStands
                cases hStands
          subst hNone
          refine Or.inr ⟨⟨_, _, congrArg _ hReason⟩, fun kind => ?_⟩
          have hSame : after.table kind = d.table kind := by
            by_cases hFailed : kind = failed
            · rw [hFailed, hKept]
            · exact hOthers kind List.not_mem_nil hFailed
          rw [hSame]
          exact ⟨rfl, rfl, rfl, rfl⟩

/-- Rolling all tables back and releasing them is all or nothing exactly if all
the tokens stand or the one of the first table does not. This covers every
dictionary and all checkpoints, standing or not, returned or made up. -/
theorem rollbackAll_releaseAll_allOrNothing_iff (d : Dictionary) (checkpoints : Checkpoints) :
    (AllOrNothing (fun kind t => t.rollback (checkpoints.token kind)) d
        (d.rollbackAll checkpoints) ↔
      (∀ kind, (d.table kind).stands (checkpoints.token kind) = true) ∨
        (d.table .attrParam).stands (checkpoints.token .attrParam) = false) ∧
    (AllOrNothing (fun kind t => t.release (checkpoints.token kind)) d
        (d.releaseAll checkpoints) ↔
      (∀ kind, (d.table kind).stands (checkpoints.token kind) = true) ∨
        (d.table .attrParam).stands (checkpoints.token .attrParam) = false) :=
  ⟨(dropsCheckpoint_rollback checkpoints.token).allOrNothing_iff d,
    (dropsCheckpoint_release checkpoints.token).allOrNothing_iff d⟩

/-- Checkpoints that were released, while the first two tables have stood still
since: asked for again, they are found stale in the third table only, after the
second one has lost a record that belongs to a newer checkpoint. -/
theorem stale_rollbackAll_loses_record :
    ∃ d : Dictionary,
      transitions.Run (new .standard)
        [.indexAttribute "packed" [], .checkpointAll, .indexAttributes [],
          .releaseAll (new .standard).checkpointAll.1, .checkpointAll] d ∧
      (d.rollbackAll (new .standard).checkpointAll.1).2 =
        .error (.staleCheckpoint "attributes-table" 0) ∧
      (d.table .attribute).size = 1 ∧
      ((d.rollbackAll (new .standard).checkpointAll.1).1.table .attribute).size = 0 ∧
      ¬ AllOrNothing (fun kind t => t.rollback ((new .standard).checkpointAll.1.token kind)) d
        (d.rollbackAll (new .standard).checkpointAll.1) := by
  have run := (((((Transitions.RunWithin.refl : transitions.Run (new .standard) [] _).step
    .checkpointAll (by decide +kernel) trivial).step
    (.releaseAll (new .standard).checkpointAll.1) (by decide +kernel) trivial).step
    (.indexAttributes []) (by decide +kernel) trivial).step
    .checkpointAll (by decide +kernel) trivial).step
    (.indexAttribute "packed" []) (by decide +kernel) trivial
  refine ⟨_, run, by rfl, by decide +kernel, by decide +kernel, ?_⟩
  intro hAtomic
  rcases ((dropsCheckpoint_rollback _).allOrNothing_iff _).mp hAtomic with hAll | hFirst
  · exact absurd (hAll .attributes) (by decide +kernel)
  · exact absurd hFirst (by decide +kernel)

end ProgramIndex.Dictionary
