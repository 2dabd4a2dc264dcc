import ProgramIndex.Proofs.Linkage.Operation

/-!
The two directions of a bimap. A new pair of ids can meet four situations at
once: the local id may have had another global id, the global id may have had
another local id of the same file, both, or neither. In each of them both
directions give up the same pairs, so that they stay inverse to each other.
-/

namespace ProgramIndex

namespace Bimap

/-- No global id keeps a list of files that has become empty. -/
def NoneEmpty (map : Bimap) : Prop :=
  ∀ global : Int64, map.reverse[global]? ≠ some []

/-- The two directions say the same: a local id of a file has a global id exactly
if the global id lists the file with that local id. Every list of files is a
map, and none of them is empty. -/
structure Lockstep (map : Bimap) : Prop where
  paired : ∀ (fid : Nat) (id global : Int64),
    map.global? fid id = some global ↔ map.local? global fid = some id
  listed_once : ∀ global : Int64, ((map.references global).map Prod.fst).Nodup
  none_empty : map.NoneEmpty

/-- Within one file no two local ids have the same global id. -/
def Injective (map : Bimap) : Prop :=
  ∀ (fid : Nat) (i j global : Int64),
    map.global? fid i = some global → map.global? fid j = some global → i = j

/-- A global id lists one local id of a file, so only this one leads to it. -/
theorem Lockstep.injective {map : Bimap} (h : map.Lockstep) : map.Injective := by
  intro fid i j global hFirst hSecond
  rw [h.paired] at hFirst hSecond
  exact Option.some.inj (hFirst.symm.trans hSecond)

/-- Where there are no ids the two directions have nothing to disagree about. -/
theorem lockstep_empty : empty.Lockstep where
  paired fid id global := by
    simp [empty, global?, locals, local?, references]
  listed_once global := by simp [empty, references]
  none_empty := by
    intro global
    simp [empty]

/-! ### Lists of references -/

theorem lookup_reference_cons (fid other : Nat) (id : Int64) (refs : List (Nat × Int64)) :
    ((fid, id) :: refs).lookup other = if fid = other then some id else refs.lookup other := by
  rw [List.lookup_cons]
  by_cases hSame : fid = other
  · subst hSame
    simp
  · simp [hSame, beq_eq_false_iff_ne.mpr (Ne.symm hSame)]

/-- The file that was put into the list is found there with its new local id, and every
other file as before. -/
theorem lookup_putReference (fid other : Nat) (id : Int64) (refs : List (Nat × Int64)) :
    (putReference fid id refs).lookup other =
      if fid = other then some id else refs.lookup other := by
  induction refs with
  | nil => exact lookup_reference_cons fid other id []
  | cons reference rest ih =>
      obtain ⟨f, i⟩ := reference
      rw [putReference, lookup_reference_cons]
      by_cases hHead : f = fid
      · subst hHead
        rw [if_pos rfl, lookup_reference_cons]
        split <;> rfl
      · rw [if_neg hHead, lookup_reference_cons, ih]
        -- The file in front is another one, so at most one of the two tests succeeds.
        by_cases hOther : f = other
        · subst hOther
          simp only [if_true, Ne.symm hHead, if_false]
        · simp only [hOther, if_false]

/-- A file that was removed is no longer found, and every other file as before. -/
theorem lookup_removeReference (fid other : Nat) (refs : List (Nat × Int64)) :
    (removeReference fid refs).lookup other =
      if fid = other then none else refs.lookup other := by
  induction refs with
  | nil => exact (ite_self none).symm
  | cons reference rest ih =>
      obtain ⟨f, i⟩ := reference
      unfold removeReference at ih ⊢
      rw [lookup_reference_cons]
      by_cases hHead : f = fid
      · subst hHead
        rw [List.filter_cons_of_neg (by simp), ih]
        split <;> rfl
      · rw [List.filter_cons_of_pos (by simpa using hHead), lookup_reference_cons, ih]
        by_cases hOther : f = other
        · subst hOther
          simp only [if_true, Ne.symm hHead, if_false]
        · simp only [hOther, if_false]

theorem putReference_ne_nil (fid : Nat) (id : Int64) (refs : List (Nat × Int64)) :
    putReference fid id refs ≠ [] := by
  cases refs with
  | nil => exact List.cons_ne_nil _ _
  | cons reference rest =>
      rw [putReference]
      split <;> exact List.cons_ne_nil _ _

/-- Putting a file into the list moves no file: a new one comes last, and one that is there
keeps its place. -/
theorem map_fst_putReference (fid : Nat) (id : Int64) (refs : List (Nat × Int64)) :
    (putReference fid id refs).map Prod.fst =
      if fid ∈ refs.map Prod.fst then refs.map Prod.fst else refs.map Prod.fst ++ [fid] := by
  induction refs with
  | nil => rfl
  | cons reference rest ih =>
      obtain ⟨f, i⟩ := reference
      rw [putReference]
      by_cases hHead : f = fid
      · simp [hHead]
      · rw [if_neg hHead, List.map_cons, ih]
        by_cases hRest : fid ∈ rest.map Prod.fst
        · simp only [hRest, if_true, List.map_cons, List.mem_cons, or_true]
        · simp only [hRest, if_false, List.map_cons, List.mem_cons, Ne.symm hHead, or_false,
            List.cons_append]

/-- A list of references stays a map: no file is put into it twice. -/
theorem nodup_putReference {refs : List (Nat × Int64)} (hOnce : (refs.map Prod.fst).Nodup)
    (fid : Nat) (id : Int64) : ((putReference fid id refs).map Prod.fst).Nodup := by
  rw [map_fst_putReference]
  split
  · exact hOnce
  · rename_i hNew
    refine List.nodup_append.mpr ⟨hOnce, by simp, ?_⟩
    intro f hOld g hLast hSame
    rw [hSame, List.mem_singleton.mp hLast] at hOld
    exact hNew hOld

theorem nodup_removeReference {refs : List (Nat × Int64)} (hOnce : (refs.map Prod.fst).Nodup)
    (fid : Nat) : ((removeReference fid refs).map Prod.fst).Nodup :=
  hOnce.sublist (List.filter_sublist.map Prod.fst)

/-! ### The steps of an insertion -/

theorem global?_setForward (map : Bimap) (fid other : Nat) (id i global : Int64) :
    (map.setForward fid id global).global? other i =
      if fid = other ∧ id = i then some global else map.global? other i := by
  unfold global? setForward locals
  by_cases hFile : fid = other
  · subst hFile
    simp only [Std.ExtTreeMap.getD_insert_self, Std.ExtTreeMap.getElem?_insert,
      Std.compare_eq_iff_eq, true_and]
  · simp only [Std.ExtTreeMap.getD_insert, Std.compare_eq_iff_eq, hFile, false_and, if_false]

/-- Dropping a local id takes its global id away, and no other one. -/
theorem global?_dropForward (map : Bimap) (fid other : Nat) (id i : Int64) :
    (map.dropForward fid id).global? other i =
      if fid = other ∧ id = i then none else map.global? other i := by
  unfold global? dropForward locals
  by_cases hFile : fid = other
  · subst hFile
    simp only [Std.ExtTreeMap.getD_insert_self, Std.ExtTreeMap.getElem?_erase,
      Std.compare_eq_iff_eq, true_and]
  · simp only [Std.ExtTreeMap.getD_insert, Std.compare_eq_iff_eq, hFile, false_and, if_false]

/-- Only the list of the given global id is changed. -/
theorem references_setReverse (map : Bimap) (fid : Nat) (id global g : Int64) :
    (map.setReverse fid id global).references g =
      if global = g then putReference fid id (map.references global) else map.references g := by
  simp only [references, setReverse, Std.ExtTreeMap.getD_insert, Std.compare_eq_iff_eq]

/-- Forgetting removes the file from the list of the global id, provided that the
local id is the file's. The list may disappear with its last file. -/
theorem references_forget (map : Bimap) (fid : Nat) (id global g : Int64) :
    (map.forget global fid id).references g =
      if global = g ∧ map.local? g fid = some id then removeReference fid (map.references g)
      else map.references g := by
  unfold forget
  generalize hRemaining : (if map.local? global fid = some id then
    removeReference fid (map.references global) else map.references global) = remaining
  have hReferences : (if remaining.isEmpty then map.reverse.erase global
      else map.reverse.insert global remaining).getD g [] =
        if global = g then remaining else map.references g := by
    by_cases hEmpty : remaining = []
    · simp only [hEmpty, List.isEmpty_nil, if_true, Std.ExtTreeMap.getD_erase,
        Std.compare_eq_iff_eq]
      rfl
    · simp only [List.isEmpty_iff, hEmpty, if_false, Std.ExtTreeMap.getD_insert,
        Std.compare_eq_iff_eq]
      rfl
  refine hReferences.trans ?_
  by_cases hGlobal : global = g
  · subst hGlobal
    simp only [← hRemaining, if_true, true_and]
  · simp only [hGlobal, if_false, false_and]

/-- A list with a file in it is not empty. -/
theorem NoneEmpty.setReverse {map : Bimap} (hNone : map.NoneEmpty) (fid : Nat)
    (id global : Int64) : (map.setReverse fid id global).NoneEmpty := by
  intro g
  simp only [Bimap.setReverse, Std.ExtTreeMap.getElem?_insert, Std.compare_eq_iff_eq]
  split
  · intro hEmpty
    exact putReference_ne_nil _ _ _ (Option.some.inj hEmpty)
  · exact hNone g

/-- A list that loses its last file disappears with it. -/
theorem NoneEmpty.forget {map : Bimap} (hNone : map.NoneEmpty) (fid : Nat) (id global : Int64) :
    (map.forget global fid id).NoneEmpty := by
  intro g
  unfold Bimap.forget
  generalize (if map.local? global fid = some id then
    removeReference fid (map.references global) else map.references global) = remaining
  show (if remaining.isEmpty then map.reverse.erase global
    else map.reverse.insert global remaining)[g]? ≠ some []
  by_cases hEmpty : remaining = []
  · simp only [hEmpty, List.isEmpty_nil, if_true, Std.ExtTreeMap.getElem?_erase,
      Std.compare_eq_iff_eq]
    split
    · exact nofun
    · exact hNone g
  · simp only [List.isEmpty_iff, hEmpty, if_false, Std.ExtTreeMap.getElem?_insert,
      Std.compare_eq_iff_eq]
    split
    · exact fun hSame => hEmpty (Option.some.inj hSame)
    · exact hNone g

/-! ### Insertion -/

/-- Forget that the local id had another global id, if it had one. -/
def forgetOld (map : Bimap) (old? : Option Int64) (fid : Nat) (id : Int64) : Bimap :=
  match old? with
  | some old => map.forget old fid id
  | none => map

/-- Drop the other local id that the file had for the global id, if it had one. -/
def dropStale (map : Bimap) (fid : Nat) (stale? : Option Int64) : Bimap :=
  match stale? with
  | some stale => map.dropForward fid stale
  | none => map

/-- Insertion as the sequence of its four steps, of which the second and the last have
nothing to do if neither id was paired before. -/
theorem insert_eq (map : Bimap) (fid : Nat) (id global : Int64) :
    map.insert fid id global =
      (((map.setForward fid id global).forgetOld
        ((map.global? fid id).filter (· ≠ global)) fid id).setReverse fid id global).dropStale fid
        ((map.local? global fid).filter (· ≠ id)) := by
  unfold insert replacedBy forgetOld dropStale
  cases (map.global? fid id).filter (· ≠ global) <;>
    cases (map.local? global fid).filter (· ≠ id) <;> rfl

theorem global?_forgetOld (map : Bimap) (old? : Option Int64) (fid other : Nat) (id i : Int64) :
    (map.forgetOld old? fid id).global? other i = map.global? other i := by
  cases old? <;> rfl

/-- The file leaves the list of the older global id, if the local id had one that lists it.
-/
theorem references_forgetOld (map : Bimap) (old? : Option Int64) (fid : Nat) (id g : Int64) :
    (map.forgetOld old? fid id).references g =
      if old? = some g ∧ map.local? g fid = some id then removeReference fid (map.references g)
      else map.references g := by
  cases old? with
  | none => simp [forgetOld]
  | some old => simp only [forgetOld, references_forget, Option.some.injEq]

/-- The older local id of the file loses its global id, if there was one. -/
theorem global?_dropStale (map : Bimap) (stale? : Option Int64) (fid other : Nat) (i : Int64) :
    (map.dropStale fid stale?).global? other i =
      if fid = other ∧ stale? = some i then none else map.global? other i := by
  cases stale? with
  | none => simp [dropStale]
  | some stale => simp only [dropStale, global?_dropForward, Option.some.injEq]

theorem reverse_dropStale (map : Bimap) (stale? : Option Int64) (fid : Nat) :
    (map.dropStale fid stale?).reverse = map.reverse := by
  cases stale? <;> rfl

/-- What has become of the way from local to global ids: the new pair is there,
and another local id that the file had for the global id is not. -/
theorem global?_insert (map : Bimap) (fid other : Nat) (id i global : Int64) :
    (map.insert fid id global).global? other i =
      if fid = other ∧ id = i then some global
      else if fid = other ∧ map.local? global fid = some i then none
      else map.global? other i := by
  rw [insert_eq, global?_dropStale]
  show (if _ then none else ((map.setForward fid id global).forgetOld _ fid id).global? other i) = _
  rw [global?_forgetOld, global?_setForward]
  by_cases hPair : fid = other ∧ id = i
  · obtain ⟨rfl, rfl⟩ := hPair
    simp
  · simp only [hPair, if_false, Option.filter_eq_some_iff, decide_eq_true_eq]
    by_cases hFile : fid = other
    · have hNe : i ≠ id := fun hSame => hPair ⟨hFile, hSame.symm⟩
      simp only [hFile, hNe, true_and, ne_eq, not_false_eq_true, and_true]
    · simp only [hFile, false_and]

/-- What has become of the lists of files: the list of the new global id has the
new local id, and the file is no longer in the list of the global id that the
local id had before. -/
theorem references_insert (map : Bimap) (fid : Nat) (id global g : Int64) :
    (map.insert fid id global).references g =
      if global = g then putReference fid id (map.references g)
      else if map.global? fid id = some g ∧ map.local? g fid = some id then
        removeReference fid (map.references g)
      else map.references g := by
  have hForget : ∀ other, ((map.setForward fid id global).forgetOld
      ((map.global? fid id).filter (· ≠ global)) fid id).references other =
        if other ≠ global ∧ map.global? fid id = some other ∧ map.local? other fid = some id then
          removeReference fid (map.references other)
        else map.references other := by
    intro other
    rw [references_forgetOld]
    simp only [Option.filter_eq_some_iff, decide_eq_true_eq, and_assoc, and_left_comm]
    rfl
  rw [insert_eq, references, reverse_dropStale]
  refine (references_setReverse _ fid id global g).trans ?_
  rw [hForget, hForget]
  by_cases hGlobal : global = g
  · subst hGlobal
    simp
  · simp only [hGlobal, if_false, ne_eq, Ne.symm hGlobal, not_false_eq_true, true_and]

/-- What has become of the way from global to local ids: the new pair is there,
and the other global id that had the local id has it no longer. -/
theorem local?_insert (map : Bimap) (fid other : Nat) (id global g : Int64) :
    (map.insert fid id global).local? g other =
      if fid = other ∧ global = g then some id
      else if fid = other ∧ map.global? fid id = some g ∧ map.local? g fid = some id then none
      else map.local? g other := by
  rw [local?, references_insert]
  by_cases hGlobal : global = g
  · simp only [hGlobal, if_true, lookup_putReference, and_true]
    by_cases hFile : fid = other
    · simp only [hFile, if_true]
    · simp only [hFile, if_false, false_and]
      rfl
  · simp only [hGlobal, if_false, and_false]
    by_cases hHeld : map.global? fid id = some g ∧ map.local? g fid = some id
    · simp only [hHeld, if_true, lookup_removeReference, and_self, and_true]
      rfl
    · simp only [hHeld, if_false, and_false]
      rfl

/-- An id that gives up its partner just in case this is `old` keeps all the others. -/
theorem partner_kept_iff {partner? : Option Int64} {old other : Int64} :
    (if partner? = some old then none else partner?) = some other ↔
      partner? = some other ∧ ¬old = other := by
  rw [Option.ite_none_left_eq_some]
  constructor
  · rintro ⟨hKept, hSome⟩
    exact ⟨hSome, fun hSame => hKept (hSame ▸ hSome)⟩
  · rintro ⟨hSome, hOther⟩
    exact ⟨fun hOld => hOther (Option.some.inj (hOld.symm.trans hSome)), hSome⟩

/-- Of the older pairs in the file those with neither of the two ids are left. -/
theorem Lockstep.global?_insert_eq_some_iff {map : Bimap} (h : map.Lockstep) {fid other : Nat}
    {id i global g : Int64} :
    (map.insert fid id global).global? other i = some g ↔
      (fid = other ∧ id = i ∧ global = g) ∨
        (map.global? other i = some g ∧ (fid = other → id ≠ i ∧ global ≠ g)) := by
  rw [global?_insert]
  by_cases hFile : fid = other
  · subst hFile
    by_cases hId : id = i
    · simp [hId]
    · -- The local id loses its global id just in case this is the new one.
      simp only [hId, ← h.paired, true_and, false_and, and_false, if_false, false_or, ne_eq,
        not_false_eq_true, forall_const]
      exact partner_kept_iff
  · simp [hFile]

/-- The same from the other side. Together both say that a new pair keeps the two directions
inverse to each other. -/
theorem Lockstep.local?_insert_eq_some_iff {map : Bimap} (h : map.Lockstep) {fid other : Nat}
    {id i global g : Int64} :
    (map.insert fid id global).local? g other = some i ↔
      (fid = other ∧ id = i ∧ global = g) ∨
        (map.local? g other = some i ∧ (fid = other → id ≠ i ∧ global ≠ g)) := by
  rw [local?_insert]
  by_cases hFile : fid = other
  · subst hFile
    by_cases hGlobal : global = g
    · simp [hGlobal]
    · -- The global id loses its local id just in case this is the new one.
      simp only [hGlobal, h.paired, and_self, true_and, and_false, if_false, false_or, ne_eq,
        not_false_eq_true, and_true, forall_const]
      exact partner_kept_iff
  · simp [hFile]

/-- A new pair of ids keeps both directions in lockstep, whatever the two ids
were paired with before. -/
theorem Lockstep.insert {map : Bimap} (h : map.Lockstep) (fid : Nat) (id global : Int64) :
    (map.insert fid id global).Lockstep where
  paired other i g := by
    rw [h.global?_insert_eq_some_iff, h.local?_insert_eq_some_iff, h.paired]
  listed_once g := by
    rw [references_insert]
    split
    · exact nodup_putReference (h.listed_once g) fid id
    · split
      · exact nodup_removeReference (h.listed_once g) fid
      · exact h.listed_once g
  none_empty := by
    intro g
    rw [insert_eq, reverse_dropStale]
    refine NoneEmpty.setReverse ?_ fid id global g
    have hForward : (map.setForward fid id global).NoneEmpty := h.none_empty
    cases (map.global? fid id).filter (· ≠ global) with
    | none => exact hForward
    | some old => exact hForward.forget fid id old

/-- Any number of pairs keeps both directions in lockstep, also if they are at odds with
each other. -/
theorem Lockstep.insertAll {map : Bimap} (h : map.Lockstep) (fid : Nat)
    (pairs : List (Int64 × Int64)) : (map.insertAll fid pairs).Lockstep := by
  induction pairs generalizing map with
  | nil => exact h
  | cons ids rest ih => exact ih (h.insert fid ids.1 ids.2)

/-! ### Files without ids -/

/-- A file that has just been entered has no ids, like a file that has not been. -/
theorem locals_enter (map : Bimap) (fid : Nat) : (map.enter fid).locals = map.locals := by
  funext other
  unfold locals enter
  rw [Std.ExtTreeMap.getD_insertIfNew]
  split
  · rename_i hNew
    rw [Std.ExtTreeMap.getD_eq_fallback (Std.compare_eq_iff_eq.mp hNew.1 ▸ hNew.2)]
  · rfl

/-- No local id gets a global id just because its file is entered. -/
theorem global?_enter (map : Bimap) (fid other : Nat) (id : Int64) :
    (map.enter fid).global? other id = map.global? other id := by
  rw [global?, locals_enter, global?]

/-- An empty entry has no pair that the other direction would have to know. -/
theorem Lockstep.enter {map : Bimap} (h : map.Lockstep) (fid : Nat) : (map.enter fid).Lockstep where
  paired other id global := by
    rw [global?_enter]
    exact h.paired other id global
  listed_once := h.listed_once
  none_empty := h.none_empty

/-- So a file that is given its ids keeps both directions in lockstep, entered before or
not. -/
theorem Lockstep.bring {map : Bimap} (h : map.Lockstep) (fid : Nat) (entered : Bool)
    (pairs : List (Int64 × Int64)) : (map.bring fid entered pairs).Lockstep := by
  unfold Bimap.bring
  split
  · exact (h.enter fid).insertAll fid pairs
  · exact h.insertAll fid pairs

/-- The two maps give the same ids to every file and list the same files for every
global id, in the same order. Only a file without ids may have an entry in one of them
and none in the other. -/
structure Alike (a b : Bimap) : Prop where
  locals_eq : a.locals = b.locals
  references_eq : a.references = b.references

theorem Alike.refl (map : Bimap) : map.Alike map :=
  ⟨rfl, rfl⟩

theorem Alike.trans {a b c : Bimap} (hFirst : a.Alike b) (hSecond : b.Alike c) : a.Alike c :=
  ⟨hFirst.locals_eq.trans hSecond.locals_eq, hFirst.references_eq.trans hSecond.references_eq⟩

theorem Alike.symm {a b : Bimap} (h : a.Alike b) : b.Alike a :=
  ⟨h.locals_eq.symm, h.references_eq.symm⟩

/-- Maps that are alike lead from local to global ids alike. -/
theorem Alike.global?_eq {a b : Bimap} (h : a.Alike b) (fid : Nat) (id : Int64) :
    a.global? fid id = b.global? fid id := by
  rw [global?, global?, h.locals_eq]

/-- They lead from global to local ids alike as well. -/
theorem Alike.local?_eq {a b : Bimap} (h : a.Alike b) (global : Int64) (fid : Nat) :
    a.local? global fid = b.local? global fid := by
  rw [local?, local?, h.references_eq]

/-- Entering a file shows nowhere. -/
theorem alike_enter (map : Bimap) (fid : Nat) : (map.enter fid).Alike map :=
  ⟨locals_enter map fid, rfl⟩

/-- A new pair of ids does to one map what it does to the other. -/
theorem Alike.insert {a b : Bimap} (h : a.Alike b) (fid : Nat) (id global : Int64) :
    (a.insert fid id global).Alike (b.insert fid id global) where
  locals_eq := by
    funext other
    apply Std.ExtTreeMap.ext_getElem?
    intro i
    show (a.insert fid id global).global? other i = (b.insert fid id global).global? other i
    rw [global?_insert, global?_insert, h.local?_eq, h.global?_eq]
  references_eq := by
    funext g
    rw [references_insert, references_insert, h.references_eq, h.global?_eq, h.local?_eq]

/-- By induction over the pairs: what is alike stays alike. -/
theorem Alike.insertAll {a b : Bimap} (h : a.Alike b) (fid : Nat) (pairs : List (Int64 × Int64)) :
    (a.insertAll fid pairs).Alike (b.insertAll fid pairs) := by
  induction pairs generalizing a b with
  | nil => exact h
  | cons ids rest ih => exact ih (h.insert fid ids.1 ids.2)

/-- It does not show whether a file was entered before it was given its pairs. -/
theorem alike_bring (map : Bimap) (fid : Nat) (entered : Bool) (pairs : List (Int64 × Int64)) :
    (map.bring fid entered pairs).Alike (map.insertAll fid pairs) := by
  unfold Bimap.bring
  split
  · exact (map.alike_enter fid).insertAll fid pairs
  · exact .refl _

theorem Alike.bring {a b : Bimap} (h : a.Alike b) (fid : Nat) (entered : Bool)
    (pairs : List (Int64 × Int64)) : (a.bring fid entered pairs).Alike (b.bring fid entered pairs) :=
  ((a.alike_bring fid entered pairs).trans (h.insertAll fid pairs)).trans
    (b.alike_bring fid entered pairs).symm

end Bimap

namespace Linkage

theorem lockstep_of_fresh {start : Linkage} (hStart : Fresh start) :
    start.vids.Lockstep ∧ start.ckeys.Lockstep := by
  cases hStart <;> exact ⟨Bimap.lockstep_empty, Bimap.lockstep_empty⟩

/-- Each operation keeps both maps in lockstep. -/
theorem lockstep_perform {m : Linkage} (hMaps : m.vids.Lockstep ∧ m.ckeys.Lockstep)
    (op : Operation) : (m.perform op).vids.Lockstep ∧ (m.perform op).ckeys.Lockstep := by
  obtain ⟨definitions, vidCeilings, hPerform⟩ := m.perform_eq op
  rw [hPerform]
  exact ⟨hMaps.1.bring _ _ _, hMaps.2.bring _ _ _⟩

/-- Both maps are in lockstep in every linkage that is reached. -/
theorem maps_lockstep {start m : Linkage} {ops : List Operation} (hStart : Fresh start)
    (run : transitions.Run start ops m) : m.vids.Lockstep ∧ m.ckeys.Lockstep :=
  run.invariant (fun m => m.vids.Lockstep ∧ m.ckeys.Lockstep) (lockstep_of_fresh hStart)
    fun _ op hMaps _ _ => lockstep_perform hMaps op

/-- Whatever has been registered, overwritten, read from documents or refused
since nothing was known, the two directions of both maps are inverse to each
other in every file, and no global id keeps an empty list of files. -/
theorem lockstep_of_run {start m : Linkage} {ops : List Operation} (hStart : Fresh start)
    (run : transitions.Run start ops m) :
    (m.vids.Lockstep ∧ m.vids.Injective) ∧ (m.ckeys.Lockstep ∧ m.ckeys.Injective) := by
  obtain ⟨hVars, hKeys⟩ := maps_lockstep hStart run
  exact ⟨⟨hVars, hVars.injective⟩, ⟨hKeys, hKeys.injective⟩⟩

/-- A variable takes over both the global id that another variable of its file had
and the place of its own older global id. -/
theorem lockstep_after_double_overwrite :
    ∃ m, transitions.Run (new false)
        [.addLinks 2 ⟨∅, ((∅ : LocalMap).insert 3 20).insert 4 20⟩, .addVar ⟨1, 7⟩ 20, .addKey ⟨1, 7⟩ 10,
          .addVar ⟨1, 8⟩ 20, .addVar ⟨1, 7⟩ 10] m ∧
      m.vids.global? 1 7 = some 20 ∧ m.vids.global? 1 8 = none ∧
      m.references 20 = [⟨1, 7⟩, ⟨2, 4⟩] ∧ m.vids.reverse[(10 : Int64)]? = none ∧
      (m.vids.Lockstep ∧ m.vids.Injective) ∧ (m.ckeys.Lockstep ∧ m.ckeys.Injective) := by
  have run := (((((Transitions.RunWithin.refl : transitions.Run (new false) [] _).step
    (.addVar ⟨1, 7⟩ 10) trivial trivial).step (.addVar ⟨1, 8⟩ 20) trivial trivial).step
    (.addKey ⟨1, 7⟩ 10) trivial trivial).step (.addVar ⟨1, 7⟩ 20) trivial trivial).step
    (.addLinks 2 ⟨∅, ((∅ : LocalMap).insert 3 20).insert 4 20⟩) trivial trivial
  exact ⟨_, run, by decide +kernel, by decide +kernel, by decide +kernel, by decide +kernel,
    lockstep_of_run (.new false) run⟩

end Linkage

end ProgramIndex
