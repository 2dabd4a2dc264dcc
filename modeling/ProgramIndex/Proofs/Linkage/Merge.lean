import Mathlib.Data.List.Nodup
import ProgramIndex.Proofs.Linkage.Lockstep

/-!
Merging the cross-references of several files. A new pair of ids changes the ids
of its own file only, in a way that the other files have no part in. The lists of
files that global ids keep are shared between the files, but apart from their
order they follow from the ids of each file. So the order in which files are
merged shows nowhere but in the order of these lists.
-/

namespace ProgramIndex

namespace LocalMap

/-- Give a local id of a file a global id. Another local id that had it is dropped. -/
def assign (ids : LocalMap) (id global : Int64) : LocalMap :=
  (ids.filter fun _ other => global ≠ other).insert id global

def assignAll (ids : LocalMap) (pairs : List (Int64 × Int64)) : LocalMap :=
  pairs.foldl (fun (ids : LocalMap) pair => ids.assign pair.1 pair.2) ids

/-- Of the older pairs those with neither of the two ids are left. -/
theorem assign_eq_some_iff {ids : LocalMap} {id i global g : Int64} :
    (ids.assign id global)[i]? = some g ↔
      (id = i ∧ global = g) ∨ (ids[i]? = some g ∧ id ≠ i ∧ global ≠ g) := by
  rw [assign, Std.ExtTreeMap.getElem?_insert, Std.ExtTreeMap.getElem?_filter']
  simp only [Std.compare_eq_iff_eq]
  by_cases hId : id = i
  · simp [hId]
  · simp [hId, Option.filter_eq_some_iff]

theorem assignAll_cons (ids : LocalMap) (pair : Int64 × Int64) (rest : List (Int64 × Int64)) :
    ids.assignAll (pair :: rest) = (ids.assign pair.1 pair.2).assignAll rest := rfl

end LocalMap

namespace Bimap

variable {map a b : Bimap}

theorem global?_eq (map : Bimap) (fid : Nat) (id : Int64) :
    map.global? fid id = (map.locals fid)[id]? := rfl

/-! ### The ids of one file -/

/-- A new pair of ids changes the ids of its own file only, whatever it makes the
lists of files give up. -/
theorem Lockstep.locals_insert (h : map.Lockstep) (fid : Nat) (id global : Int64) :
    (map.insert fid id global).locals =
      Function.update map.locals fid ((map.locals fid).assign id global) := by
  funext other
  apply Std.ExtTreeMap.ext_getElem?
  intro i
  apply Option.ext
  intro g
  rw [← global?_eq, h.global?_insert_eq_some_iff]
  by_cases hFile : fid = other
  · subst hFile
    simp [LocalMap.assign_eq_some_iff, global?_eq]
  · simp [hFile, Ne.symm hFile, global?_eq]

/-- By induction over the pairs: they all go to the same file. -/
theorem Lockstep.locals_insertAll (h : map.Lockstep) (fid : Nat) (pairs : List (Int64 × Int64)) :
    (map.insertAll fid pairs).locals =
      Function.update map.locals fid ((map.locals fid).assignAll pairs) := by
  induction pairs generalizing map with
  | nil => exact (Function.update_eq_self fid map.locals).symm
  | cons pair rest ih =>
      have hRest := ih (h.insert fid pair.1 pair.2)
      rw [h.locals_insert, Function.update_self, Function.update_idem] at hRest
      exact hRest

theorem Lockstep.locals_bring (h : map.Lockstep) (fid : Nat) (entered : Bool)
    (pairs : List (Int64 × Int64)) :
    (map.bring fid entered pairs).locals =
      Function.update map.locals fid ((map.locals fid).assignAll pairs) := by
  rw [(map.alike_bring fid entered pairs).locals_eq, h.locals_insertAll]

/-! ### Lists of files -/

theorem lookup_eq_some_iff_mem {refs : List (Nat × Int64)} (hOnce : (refs.map Prod.fst).Nodup)
    {fid : Nat} {id : Int64} : refs.lookup fid = some id ↔ (fid, id) ∈ refs := by
  induction refs with
  | nil => simp
  | cons reference rest ih =>
      obtain ⟨f, i⟩ := reference
      rw [List.map_cons, List.nodup_cons] at hOnce
      rw [lookup_reference_cons, List.mem_cons, Prod.mk.injEq]
      by_cases hHead : f = fid
      · -- The file is in front, so it is nowhere else.
        subst hHead
        have hRest : (f, id) ∉ rest := fun hMem =>
          hOnce.1 (List.mem_map.mpr ⟨(f, id), hMem, rfl⟩)
        simp [hRest, eq_comm]
      · simp [hHead, Ne.symm hHead, ih hOnce.2]

/-- A global id lists the files that have a local id for it, with these ids. -/
theorem Lockstep.mem_references_iff (h : map.Lockstep) {global : Int64} {fid : Nat} {id : Int64} :
    (fid, id) ∈ map.references global ↔ map.global? fid id = some global := by
  rw [h.paired, local?, lookup_eq_some_iff_mem (h.listed_once global)]

/-- The two maps answer all questions alike, except that the files of a global id
may be listed in another order. -/
structure Agrees (a b : Bimap) : Prop where
  locals_eq : a.locals = b.locals
  local?_eq : ∀ (global : Int64) (fid : Nat), a.local? global fid = b.local? global fid
  perm : ∀ global : Int64, (a.references global).Perm (b.references global)

theorem Agrees.global?_eq (hAgrees : a.Agrees b) (fid : Nat) (id : Int64) :
    a.global? fid id = b.global? fid id := by
  rw [Bimap.global?_eq, Bimap.global?_eq, hAgrees.locals_eq]

/-- The ids of each file determine the lists of files up to their order. It makes no
difference whether a file without ids has an empty entry. -/
theorem Lockstep.agrees (ha : a.Lockstep) (hb : b.Lockstep) (hLocals : a.locals = b.locals) :
    a.Agrees b where
  locals_eq := hLocals
  local?_eq global fid := by
    apply Option.ext
    intro id
    rw [← ha.paired, ← hb.paired, Bimap.global?_eq, Bimap.global?_eq, hLocals]
  perm global := by
    apply (List.perm_ext_iff_of_nodup (ha.listed_once global).of_map
      (hb.listed_once global).of_map).mpr
    rintro ⟨fid, id⟩
    rw [ha.mem_references_iff, hb.mem_references_iff, Bimap.global?_eq, Bimap.global?_eq, hLocals]

/-- Maps that list the files in the same order as well agree all the more. -/
theorem Alike.agrees (h : a.Alike b) : a.Agrees b where
  locals_eq := h.locals_eq
  local?_eq := h.local?_eq
  perm global := .of_eq (congrFun h.references_eq global)

/-! ### Several files -/

/-- Give several files their ids, one file after the other. `part` tells which ids
of the cross-references are meant. -/
def insertEach (map : Bimap) (part : FileLinks → LocalMap) (batch : List (Nat × FileLinks)) :
    Bimap :=
  batch.foldl (fun map entry => map.bring entry.1 true (part entry.2).toList) map

/-- The ids of all files after one file has been given its ids. -/
def assignEntry (part : FileLinks → LocalMap) (slices : Nat → LocalMap) (entry : Nat × FileLinks) :
    Nat → LocalMap :=
  Function.update slices entry.1 ((slices entry.1).assignAll (part entry.2).toList)

variable {part : FileLinks → LocalMap}

theorem Lockstep.insertEach (h : map.Lockstep) (part : FileLinks → LocalMap)
    (batch : List (Nat × FileLinks)) : (map.insertEach part batch).Lockstep := by
  induction batch generalizing map with
  | nil => exact h
  | cons entry rest ih => exact ih (h.bring entry.1 true (part entry.2).toList)

/-- So the ids of all files follow from those that the files had before. -/
theorem Lockstep.locals_insertEach (h : map.Lockstep) (part : FileLinks → LocalMap)
    (batch : List (Nat × FileLinks)) :
    (map.insertEach part batch).locals = batch.foldl (assignEntry part) map.locals := by
  induction batch generalizing map with
  | nil => rfl
  | cons entry rest ih =>
      have hRest := ih (h.bring entry.1 true (part entry.2).toList)
      rw [h.locals_bring] at hRest
      exact hRest

/-- Two files do not get in each other's way. -/
theorem assignEntry_comm {first second : Nat × FileLinks} (hOther : first.1 ≠ second.1)
    (slices : Nat → LocalMap) :
    assignEntry part (assignEntry part slices first) second =
      assignEntry part (assignEntry part slices second) first := by
  simp only [assignEntry, Function.update_of_ne hOther, Function.update_of_ne (Ne.symm hOther)]
  exact Function.update_comm hOther _ _ slices

/-- The files can be given their ids in any order, as long as each of them is given them
once. -/
theorem foldl_assignEntry_perm {first second : List (Nat × FileLinks)}
    (hDistinct : (first.map Prod.fst).Nodup) (hOrder : first.Perm second)
    (slices : Nat → LocalMap) :
    first.foldl (assignEntry part) slices = second.foldl (assignEntry part) slices := by
  apply hOrder.foldl_eq'
  intro x hx y hy slices
  by_cases hFile : x.1 = y.1
  · rw [List.inj_on_of_nodup_map hDistinct hx hy hFile]
  · exact assignEntry_comm hFile slices

/-- Two orders of the same files lead to maps that agree. -/
theorem Lockstep.insertEach_perm (h : map.Lockstep) (part : FileLinks → LocalMap)
    {first second : List (Nat × FileLinks)} (hDistinct : (first.map Prod.fst).Nodup)
    (hOrder : first.Perm second) :
    (map.insertEach part first).Agrees (map.insertEach part second) := by
  refine (h.insertEach part first).agrees (h.insertEach part second) ?_
  rw [h.locals_insertEach, h.locals_insertEach, foldl_assignEntry_perm hDistinct hOrder]

end Bimap

namespace Linkage

/-- Give several files the ids of their cross-references, one file after the other. -/
def addEach (m : Linkage) (batch : List (Nat × FileLinks)) : Noted Linkage :=
  batch.foldlM (fun m entry => m.addLinks entry.1 entry.2) m

/-- Several files are given their ids by what happens to the two maps. -/
theorem addEach_eq (m : Linkage) (batch : List (Nat × FileLinks)) :
    (m.addEach batch).value =
      { m with
        ckeys := m.ckeys.insertEach FileLinks.ckeys batch
        vids := m.vids.insertEach FileLinks.vids batch } := by
  rw [addEach, Noted.value_foldlM]
  induction batch generalizing m with
  | nil => rfl
  | cons entry rest ih =>
      rw [List.foldl_cons, addLinks_eq, ih]
      rfl

/-- All questions about ids are answered alike, except that the variables of a
global id may be listed in another order. -/
structure SameIds (m n : Linkage) : Prop where
  fileLinks : ∀ fid, m.fileLinks fid = n.fileLinks fid
  globalVar? : ∀ var, m.globalVar? var = n.globalVar? var
  localVar? : ∀ fid global, m.localVar? fid global = n.localVar? fid global
  globalKey? : ∀ key, m.globalKey? key = n.globalKey? key
  convertVar? : ∀ var target, m.convertVar? var target = n.convertVar? var target
  convertKey? : ∀ key target, m.convertKey? key target = n.convertKey? key target
  hasReference : ∀ global fid, m.hasReference global fid = n.hasReference global fid
  references : ∀ global, (m.references global).Perm (n.references global)
  otherReferences : ∀ var, (m.otherReferences var).Perm (n.otherReferences var)

/-- Maps that agree answer all questions about ids alike. -/
theorem sameIds_of_agrees {m n : Linkage} (hSingle : m.singleFile = n.singleFile)
    (hVars : m.vids.Agrees n.vids) (hKeys : m.ckeys.Agrees n.ckeys) : m.SameIds n := by
  have hGlobalVar : ∀ var, m.globalVar? var = n.globalVar? var := by
    intro var
    rw [globalVar?, globalVar?, hSingle, hVars.global?_eq]
  have hGlobalKey : ∀ key, m.globalKey? key = n.globalKey? key := by
    intro key
    rw [globalKey?, globalKey?, hSingle, hKeys.global?_eq]
  have hReferences : ∀ global, (m.references global).Perm (n.references global) :=
    fun global => (hVars.perm global).map _
  exact {
    fileLinks := by
      intro fid
      rw [fileLinks, fileLinks, hVars.locals_eq, hKeys.locals_eq]
    globalVar? := hGlobalVar
    localVar? := by
      intro fid global
      rw [localVar?, localVar?, hSingle, hVars.local?_eq]
    globalKey? := hGlobalKey
    convertVar? := by
      intro var target
      simp only [convertVar?, hGlobalVar, hVars.local?_eq]
    convertKey? := by
      intro key target
      simp only [convertKey?, hGlobalKey, hKeys.local?_eq]
    hasReference := by
      intro global fid
      rw [hasReference, hasReference, reference?, reference?, hVars.local?_eq]
    references := hReferences
    otherReferences := by
      intro var
      rw [otherReferences, otherReferences, hSingle, hVars.global?_eq]
      cases n.singleFile with
      | true => exact .refl []
      | false =>
          cases n.vids.global? var.fid var.vid with
          | none => exact .refl []
          | some global => exact (hReferences global).filter _ }

/-- The cross-references of different files can be merged in any order, into
whatever is known already about these and other files. -/
theorem addEach_perm_of_run {start m : Linkage} {ops : List Operation} (hStart : Fresh start)
    (run : transitions.Run start ops m) {first second : List (Nat × FileLinks)}
    (hDistinct : (first.map Prod.fst).Nodup) (hOrder : first.Perm second) :
    (m.addEach first).value.SameIds (m.addEach second).value ∧
      (∀ global, (m.addEach first).value.definition? global =
        (m.addEach second).value.definition? global) ∧
      (∀ fid, (m.addEach first).value.vidCeiling? fid =
        (m.addEach second).value.vidCeiling? fid) := by
  obtain ⟨hVars, hKeys⟩ := maps_lockstep hStart run
  rw [addEach_eq, addEach_eq]
  refine ⟨sameIds_of_agrees rfl ?_ ?_, fun _ => rfl, fun _ => rfl⟩
  · exact hVars.insertEach_perm FileLinks.vids hDistinct hOrder
  · exact hKeys.insertEach_perm FileLinks.ckeys hDistinct hOrder

/-- One file gives a global id to two of its variables, and the other moves a
variable that had a global id already. Only the lists of files tell which came
first. -/
theorem addEach_perm_with_conflicts :
    ∃ (m : Linkage) (first second : List (Nat × FileLinks)),
      first = [(1, ⟨∅, (((∅ : LocalMap).insert 3 20).insert 4 20).insert 8 50⟩),
        (2, ⟨∅, ((∅ : LocalMap).insert 5 30).insert 9 50⟩)] ∧ second = first.reverse ∧
      transitions.Run (new false) [.addVar ⟨2, 5⟩ 20, .addVar ⟨1, 7⟩ 30] m ∧
      (m.addEach first).value.references 50 = [⟨1, 8⟩, ⟨2, 9⟩] ∧
      (m.addEach second).value.references 50 = [⟨2, 9⟩, ⟨1, 8⟩] ∧
      (m.addEach first).value.SameIds (m.addEach second).value ∧
      (∀ global, (m.addEach first).value.definition? global =
        (m.addEach second).value.definition? global) ∧
      (∀ fid, (m.addEach first).value.vidCeiling? fid =
        (m.addEach second).value.vidCeiling? fid) := by
  have run := ((Transitions.RunWithin.refl : transitions.Run (new false) [] _).step
    (.addVar ⟨1, 7⟩ 30) trivial trivial).step (.addVar ⟨2, 5⟩ 20) trivial trivial
  exact ⟨_, _, _, rfl, rfl, run, by decide +kernel, by decide +kernel,
    addEach_perm_of_run (.new false) run (by decide) (.swap _ _ _)⟩

end Linkage

end ProgramIndex
