import Mathlib.Data.Finset.Card
import ProgramIndex.Proofs.Table.Rollback

/-!
The numbering of keys under nested speculation. A block of speculation stands
between a checkpoint and the rollback or release of this checkpoint. What is
interned in a rolled-back block leaves no trace: the table and the indices are
those of the other calls alone, made without any checkpoint.
-/

namespace ProgramIndex.Table

/-- How a block of speculation ends. -/
inductive Ending where
  | rollback
  | release
  deriving DecidableEq, Repr

/-- Calls that intern keys, and blocks of speculation around such calls, which may
contain further blocks. -/
inductive Script where
  | done
  | intern (key : Key) (rest : Script)
  | block (body : Script) (ending : Ending) (rest : Script)

/-- What is left of the calls in a block. -/
def Ending.keep {α : Type} : Ending → List α → List α
  | .rollback, _ => []
  | .release, calls => calls

/-- Leave the block that the checkpoint has opened. -/
def close (t : Table) (token : Checkpoint) : Ending → Table × Except Fault Unit
  | .rollback => t.rollback token
  | .release => t.release token

/-- Make all calls of a script, those in rolled-back blocks as well. The indices are
the answers to the calls that lie in no rolled-back block. -/
def exec (t : Table) : Script → Except Fault (List Nat × Table)
  | .done => .ok ([], t)
  | .intern key rest => do
      let (index, held) := t.intern key
      let (indices, after) ← held.exec rest
      return (index :: indices, after)
  | .block body ending rest => do
      let (token, opened) := t.checkpoint
      let (inner, filled) ← opened.exec body
      let (closed, outcome) := filled.close token ending
      outcome
      let (indices, after) ← closed.exec rest
      return (ending.keep inner ++ indices, after)

/-- No call of a script needs the last index when its turn comes. What follows a block
is made in the table that the block leaves. -/
def Script.Fits (t : Table) : Script → Prop
  | .done => True
  | .intern key rest => t.HasRoom key ∧ rest.Fits (t.intern key).2
  | .block body ending rest => body.Fits t.checkpoint.2 ∧
      ∀ inner filled, t.checkpoint.2.exec body = .ok (inner, filled) →
        rest.Fits (filled.close t.checkpoint.1 ending).1

/-- Intern keys one after the other. -/
def internAll (t : Table) : List Key → List Nat × Table
  | [] => ([], t)
  | key :: rest =>
      let (index, held) := t.intern key
      let (indices, after) := held.internAll rest
      (index :: indices, after)

/-- There is room for each of the keys when its turn comes. -/
def HasRooms (t : Table) : List Key → Prop
  | [] => True
  | key :: rest => t.HasRoom key ∧ (t.intern key).2.HasRooms rest

/-! ### Interning many keys -/

theorem Consistent.internAll {t : Table} (h : t.Consistent) {keys : List Key}
    (hRooms : t.HasRooms keys) : (t.internAll keys).2.Consistent := by
  induction keys generalizing t with
  | nil => exact h
  | cons key rest ih => exact ih (h.intern hRooms.1) hRooms.2

/-- What a standing checkpoint protects is not touched by interning. -/
theorem Keeps.internAll {before t : Table} (hKeeps : before.Keeps t) (h : t.Consistent)
    {keys : List Key} (hRooms : t.HasRooms keys) : before.Keeps (t.internAll keys).2 := by
  induction keys generalizing t with
  | nil => exact hKeeps
  | cons key rest ih =>
      have hStill : before.frontiers.length < (t.perform (.intern key)).frontiers.length := by
        rw [show (t.perform (.intern key)).frontiers = t.frontiers from (t.intern_frame key).2]
        exact (List.getElem?_eq_some_iff.mp hKeeps.standing).1
      exact ih (hKeeps.perform h (.intern key) hStill) (h.intern hRooms.1) hRooms.2

/-! ### One block -/

/-- The number of different keys before the first occurrence of a key. -/
def rank (keys : List Key) (key : Key) : Nat :=
  (keys.takeWhile fun other => other ≠ key).toFinset.card

theorem rank_append_of_mem {keys : List Key} {key : Key} (hMem : key ∈ keys) (later : List Key) :
    rank (keys ++ later) key = rank keys key := by
  have hTake : (keys ++ later).takeWhile (fun other => other ≠ key) =
      keys.takeWhile fun other => other ≠ key := by
    induction keys with
    | nil => cases hMem
    | cons first rest ih =>
        by_cases hFirst : first = key
        · simp [hFirst]
        · have hRest : key ∈ rest := (List.mem_cons.mp hMem).resolve_left (Ne.symm hFirst)
          simpa [hFirst] using ih hRest
  rw [rank, rank, hTake]

/-- A key that has not occurred yet comes after all that have. -/
theorem rank_append_of_not_mem {keys : List Key} {key : Key} (hNew : key ∉ keys) :
    rank (keys ++ [key]) key = keys.toFinset.card := by
  have hPass : ∀ other ∈ keys, decide (other ≠ key) = true := by
    intro other hOther
    simp only [decide_eq_true_eq]
    rintro rfl
    exact hNew hOther
  rw [rank, List.takeWhile_append_of_pos hPass]
  simp

/-- The table holds the given keys and no others, numbered in the order in which
they first occur. -/
structure Numbered (t : Table) (keys : List Key) : Prop where
  next_eq : t.next = keys.toFinset.card
  lookup_eq : ∀ key, t.lookup? key = if key ∈ keys then some (rank keys key) else none

/-- A key is numbered when it comes, after those that have come before. -/
theorem Numbered.intern {t : Table} {keys : List Key} (hNumbered : t.Numbered keys) {key : Key}
    (hRoom : t.HasRoom key) :
    (t.intern key).1 = rank (keys ++ [key]) key ∧ (t.intern key).2.Numbered (keys ++ [key]) := by
  have hOld : ∀ other ∈ keys, rank (keys ++ [key]) other = rank keys other :=
    fun other hOther => rank_append_of_mem hOther [key]
  by_cases hMem : key ∈ keys
  · have hLookup : t.lookup? key = some (rank keys key) := by
      rw [hNumbered.lookup_eq, if_pos hMem]
    rw [intern_of_lookup hLookup]
    refine ⟨(hOld key hMem).symm, ?_, fun other => ?_⟩
    · simp [hNumbered.next_eq, List.toFinset_append, hMem]
    · rw [hNumbered.lookup_eq]
      by_cases hOther : other ∈ keys
      · simp [hOther, hOld other hOther]
      · have hNe : other ≠ key := fun hSame => hOther (hSame ▸ hMem)
        simp [hOther, hNe]
  · have hLookup : t.lookup? key = none := by
      rw [hNumbered.lookup_eq, if_neg hMem]
    rw [intern_of_room hRoom hLookup]
    have hRank : rank (keys ++ [key]) key = t.next :=
      (rank_append_of_not_mem hMem).trans hNumbered.next_eq.symm
    refine ⟨hRank.symm, ?_, fun other => ?_⟩
    · have hCard : (keys ++ [key]).toFinset.card = t.next + 1 := by
        rw [hNumbered.next_eq]
        simp [List.toFinset_append, hMem]
      rw [hCard]
      exact Nat.max_eq_right (Nat.le_succ t.next)
    · rw [lookup?, insert_indices]
      by_cases hSame : key = other
      · subst hSame
        simp [hRank]
      · rw [if_neg hSame]
        refine (hNumbered.lookup_eq other).trans ?_
        by_cases hOther : other ∈ keys
        · simp [hOther, hOld other hOther]
        · simp [hOther, Ne.symm hSame]

/-- Each call is answered by the rank of its key among all keys, those of later
calls included, since these come too late to change it. -/
theorem Numbered.internAll {t : Table} {keys : List Key} (hNumbered : t.Numbered keys)
    {more : List Key} (hRooms : t.HasRooms more) :
    (t.internAll more).1 = more.map (rank (keys ++ more)) ∧
      (t.internAll more).2.Numbered (keys ++ more) := by
  induction more generalizing t keys with
  | nil => exact ⟨rfl, by rwa [List.append_nil]⟩
  | cons key rest ih =>
      obtain ⟨hFirst, hHeld⟩ := hNumbered.intern hRooms.1
      obtain ⟨hRest, hAfter⟩ := ih hHeld hRooms.2
      have hKeys : keys ++ [key] ++ rest = keys ++ key :: rest := by simp
      rw [hKeys] at hRest hAfter
      refine ⟨?_, hAfter⟩
      have hRank : (t.intern key).1 = rank (keys ++ key :: rest) key := by
        rw [hFirst, ← hKeys]
        exact (rank_append_of_mem (by simp) rest).symm
      rw [List.map_cons, ← hRank, ← hRest]
      rfl

end ProgramIndex.Table
