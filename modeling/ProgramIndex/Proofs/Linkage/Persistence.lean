import ProgramIndex.Proofs.Linkage.Answers
import ProgramIndex.Proofs.Linkage.Merge
import ProgramIndex.Proofs.Markup.Document
import ProgramIndex.Proofs.Numeral.Decimal

/-!
Cross-references that are written to documents and read back. The documents lose
nothing, whatever the ids. Installing them keeps everything as well, since no two
local ids of a file have the same global id: none of the pairs evicts another.
-/

namespace ProgramIndex

/-- A map is rebuilt from the list of its entries. -/
theorem LocalMap.foldl_insert_toList (ids : LocalMap) :
    ids.toList.foldl (fun (built : LocalMap) entry => built.insert entry.1 entry.2) ∅ = ids := by
  have hMany : ∀ (pairs : List (Int64 × Int64)) (built : LocalMap),
      pairs.foldl (fun (built : LocalMap) entry => built.insert entry.1 entry.2) built =
        built.insertMany pairs := by
    intro pairs
    induction pairs with
    | nil =>
        intro built
        exact Std.ExtTreeMap.insertMany_nil.symm
    | cons pair rest ih =>
        intro built
        rw [List.foldl_cons, ih, Std.ExtTreeMap.insertMany_cons]
  rw [hMany]
  apply Std.ExtTreeMap.ext_getElem?
  intro i
  cases hFound : ids[i]? with
  | none =>
      have hAbsent : (ids.toList.map Prod.fst).contains i = false := by
        rw [Std.ExtTreeMap.map_fst_toList_eq_keys]
        simpa using hFound
      rw [Std.ExtTreeMap.getElem?_insertMany_list_of_contains_eq_false hAbsent]
      exact Std.ExtTreeMap.getElem?_empty
  | some g =>
      exact Std.ExtTreeMap.getElem?_insertMany_list_of_mem Std.compare_self
        Std.ExtTreeMap.distinct_keys_toList
        (Std.ExtTreeMap.mem_toList_iff_getElem?_eq_some.mpr hFound)

namespace FileLinks

/-! ### Documents of cross-references -/

/-- The names of a section can stand in a document as they are, and the keys of
its entries are told apart. -/
structure Section.Legible (form : Section) : Prop where
  name : Markup.isName form.name.toList = true
  entryName : Markup.isName form.entryName.toList = true
  localKey : Markup.isName form.localKey.toList = true
  globalKey : Markup.isName form.globalKey.toList = true
  keys_ne : form.localKey ≠ form.globalKey

theorem legible_ckeySection : ckeySection.Legible := by
  constructor <;> decide

theorem legible_vidSection : vidSection.Legible := by
  constructor <;> decide

theorem Section.Legible.entry {form : Section} (h : form.Legible) (ids : Int64 × Int64) :
    (form.entry ids).Legible := by
  refine .mk h.entryName ?_ ?_ (fun child hChild => absurd hChild List.not_mem_nil)
  · simp [h.localKey, h.globalKey]
  · simp [h.keys_ne]

/-- A section can stand in a document, whatever ids are in it. -/
theorem Section.Legible.toElement {form : Section} (h : form.Legible) (ids : LocalMap) :
    (form.toElement ids).Legible := by
  refine .mk h.name (fun _ hEntry => absurd hEntry List.not_mem_nil) List.nodup_nil ?_
  intro child hChild
  obtain ⟨pair, -, rfl⟩ := List.mem_map.mp hChild
  exact h.entry pair

/-- The cross-references of a file can stand in a document, whatever the ids. -/
theorem legible_toElement (links : FileLinks) : links.toElement.Legible := by
  refine .mk (by decide) (fun _ hEntry => absurd hEntry List.not_mem_nil) List.nodup_nil ?_
  intro child hChild
  simp only [List.mem_cons, List.not_mem_nil, or_false] at hChild
  rcases hChild with rfl | rfl
  · exact legible_ckeySection.toElement links.ckeys
  · exact legible_vidSection.toElement links.vids

/-- An attribute that holds a written id is read as this id. -/
theorem Section.readId_of_get? {form : Section} {e : Element} {key : String} {id : Int64}
    (hGet : e.get? key = some (Numeral.ofInt64 id)) : form.readId e key = .ok id := by
  have hTrim : Text.trim (Numeral.ofInt64 id).toList = Numeral.int64Digits id := by
    rw [Numeral.ofInt64, String.toList_ofList]
    exact Text.trim_of_forall_not_blank fun c => Numeral.isBlank_of_mem_int64Digits
  simp only [readId, hGet, hTrim, Numeral.readInt64_int64Digits]

/-- An entry is read as it is written, whatever the two ids. -/
theorem Section.Legible.readEntry_entry {form : Section} (h : form.Legible)
    (ids : Int64 × Int64) : form.readEntry (form.entry ids) = .ok ids := by
  have hLocal : (form.entry ids).get? form.localKey = some (Numeral.ofInt64 ids.1) := by
    simp [Element.get?, Section.entry]
  have hGlobal : (form.entry ids).get? form.globalKey = some (Numeral.ofInt64 ids.2) := by
    simp [Element.get?, Section.entry, List.lookup_cons, beq_false_of_ne (Ne.symm h.keys_ne)]
  rw [readEntry, readId_of_get? hLocal, readId_of_get? hGlobal]
  rfl

theorem Section.findAll_toElement (form : Section) (ids : LocalMap) :
    (form.toElement ids).findAll form.entryName = ids.toList.map form.entry := by
  apply List.filter_eq_self.mpr
  intro child hChild
  obtain ⟨pair, -, rfl⟩ := List.mem_map.mp hChild
  exact decide_eq_true rfl

/-- A section is read as it is written, in whichever element it stands. -/
theorem Section.Legible.ofElement_toElement {form : Section} (h : form.Legible) {ids : LocalMap}
    {root : Element} (hFind : root.find? form.name = some (form.toElement ids)) :
    form.ofElement root = .ok ids := by
  have hRead : (ids.toList.map form.entry).mapM form.readEntry = .ok ids.toList := by
    rw [mapM_eq_ok_iff, List.map_map]
    exact List.map_congr_left fun pair _ => h.readEntry_entry pair
  simp only [Section.ofElement, hFind, form.findAll_toElement, hRead, Except.map,
    ids.foldl_insert_toList]

theorem rootOf_toElement (links : FileLinks) : rootOf links.toElement = links.toElement :=
  if_pos rfl

/-- Cross-references are read as they are written, also those in which several
local ids have the same global id. -/
theorem ofElement_toElement (links : FileLinks) : ofElement links.toElement = .ok links := by
  have hKeys : ckeySection.ofElement links.toElement = .ok links.ckeys :=
    legible_ckeySection.ofElement_toElement rfl
  have hVars : vidSection.ofElement links.toElement = .ok links.vids :=
    legible_vidSection.ofElement_toElement rfl
  rw [ofElement, rootOf_toElement, hKeys, hVars]
  rfl

/-- A document loses nothing, whatever the ids are. -/
theorem parse_document (links : FileLinks) : parse links.toElement.document = .ok links := by
  rw [parse, links.legible_toElement.parse_document]
  exact links.ofElement_toElement

end FileLinks

/-! ### Files that are installed anew -/

namespace LocalMap

/-- No two local ids have the same global id. -/
def Injective (ids : LocalMap) : Prop :=
  ∀ i j g : Int64, ids[i]? = some g → ids[j]? = some g → i = j

/-- All pairs of ids are among those of another map. -/
def Within (ids whole : LocalMap) : Prop :=
  ∀ i g : Int64, ids[i]? = some g → whole[i]? = some g

theorem within_empty (whole : LocalMap) : Within ∅ whole := by
  intro i g hPair
  simp at hPair

theorem within_self (ids : LocalMap) : ids.Within ids :=
  fun _ _ hPair => hPair

/-- A pair evicts nothing as long as all pairs are from one injective map. -/
theorem Within.assign_eq_some_iff {ids whole : LocalMap} (hWithin : ids.Within whole)
    (hInjective : whole.Injective) {id global : Int64} (hPair : whole[id]? = some global)
    {i g : Int64} :
    (ids.assign id global)[i]? = some g ↔ (id = i ∧ global = g) ∨ ids[i]? = some g := by
  rw [LocalMap.assign_eq_some_iff]
  constructor
  · rintro (hNew | ⟨hOld, -, -⟩)
    · exact Or.inl hNew
    · exact Or.inr hOld
  · rintro (hNew | hOld)
    · exact Or.inl hNew
    · have hWhole := hWithin i g hOld
      by_cases hId : id = i
      · subst hId
        exact Or.inl ⟨rfl, Option.some.inj (hPair.symm.trans hWhole)⟩
      · refine Or.inr ⟨hOld, hId, fun hGlobal => hId ?_⟩
        exact hInjective id i g (hGlobal ▸ hPair) hWhole

theorem Within.assign {ids whole : LocalMap} (hWithin : ids.Within whole)
    (hInjective : whole.Injective) {id global : Int64} (hPair : whole[id]? = some global) :
    (ids.assign id global).Within whole := by
  intro i g hFound
  rcases (hWithin.assign_eq_some_iff hInjective hPair).mp hFound with ⟨rfl, rfl⟩ | hOld
  · exact hPair
  · exact hWithin i g hOld

/-- By induction over the pairs: none of them evicts another, as they are all from one
injective map. -/
theorem Within.assignAll_eq_some_iff {ids whole : LocalMap} (hWithin : ids.Within whole)
    (hInjective : whole.Injective) {pairs : List (Int64 × Int64)}
    (hPairs : ∀ pair ∈ pairs, whole[pair.1]? = some pair.2) {i g : Int64} :
    (ids.assignAll pairs)[i]? = some g ↔ (i, g) ∈ pairs ∨ ids[i]? = some g := by
  induction pairs generalizing ids with
  | nil => simp [assignAll]
  | cons pair rest ih =>
      have hPair := hPairs pair List.mem_cons_self
      rw [assignAll_cons, ih (hWithin.assign hInjective hPair)
        (fun other hOther => hPairs other (List.mem_cons_of_mem pair hOther)),
        hWithin.assign_eq_some_iff hInjective hPair]
      obtain ⟨id, global⟩ := pair
      simp only [List.mem_cons, Prod.mk.injEq, eq_comm, or_left_comm, or_assoc]

/-- Installing all pairs of an injective map gives that map, if there were no other
pairs before. -/
theorem Within.assignAll_toList {ids whole : LocalMap} (hWithin : ids.Within whole)
    (hInjective : whole.Injective) : ids.assignAll whole.toList = whole := by
  apply Std.ExtTreeMap.ext_getElem?
  intro i
  apply Option.ext
  intro g
  rw [hWithin.assignAll_eq_some_iff hInjective fun pair hPair =>
    Std.ExtTreeMap.mem_toList_iff_getElem?_eq_some.mp hPair,
    Std.ExtTreeMap.mem_toList_iff_getElem?_eq_some]
  constructor
  · rintro (hNew | hOld)
    · exact hNew
    · exact hWithin i g hOld
  · exact Or.inl

end LocalMap

namespace Bimap

variable {map whole : Bimap} {part : FileLinks → LocalMap} {links : Nat → FileLinks}

/-- Installing some files brings exactly these files to what is installed. -/
theorem foldl_assignEntry_of_within (hInjective : ∀ fid, (part (links fid)).Injective)
    (files : List Nat) {slices : Nat → LocalMap}
    (hWithin : ∀ fid, (slices fid).Within (part (links fid))) (fid : Nat) :
    (files.map fun file => (file, links file)).foldl (assignEntry part) slices fid =
      if fid ∈ files then part (links fid) else slices fid := by
  induction files generalizing slices with
  | nil => simp
  | cons file rest ih =>
      have hEntry : assignEntry part slices (file, links file) =
          Function.update slices file (part (links file)) := by
        rw [assignEntry, (hWithin file).assignAll_toList (hInjective file)]
      have hUpdated : ∀ other, (Function.update slices file (part (links file)) other).Within
          (part (links other)) := by
        intro other
        by_cases hFile : other = file
        · subst hFile
          rw [Function.update_self]
          exact LocalMap.within_self _
        · rw [Function.update_of_ne hFile]
          exact hWithin other
      rw [List.map_cons, List.foldl_cons, hEntry, ih hUpdated]
      by_cases hFile : fid = file
      · subst hFile
        simp
      · simp [hFile]

/-- A map is rebuilt from the ids of its files, as long as no file with ids is
left out. -/
theorem Lockstep.insertEach_agrees (h : map.Lockstep) (hWhole : whole.Lockstep)
    (hNone : ∀ fid, map.locals fid = ∅) (hPart : ∀ fid, part (links fid) = whole.locals fid)
    {files : List Nat} (hCover : ∀ fid, whole.locals fid ≠ ∅ → fid ∈ files) :
    (map.insertEach part (files.map fun fid => (fid, links fid))).Agrees whole := by
  refine (h.insertEach part _).agrees hWhole ?_
  funext fid
  rw [h.locals_insertEach, foldl_assignEntry_of_within]
  · rw [hPart, hNone]
    split
    · rfl
    · rename_i hOut
      by_contra hSome
      exact hOut (hCover fid (Ne.symm hSome))
  · intro other
    rw [hPart]
    exact hWhole.injective other
  · intro other
    rw [hNone]
    exact LocalMap.within_empty _

/-! ### Pairs that are there already -/

theorem getElem?_of_getD_ne {α β : Type} {cmp : α → α → Ordering} [Std.TransCmp cmp]
    {entries : Std.ExtTreeMap α β cmp} {key : α} {fallback : β}
    (hOther : entries.getD key fallback ≠ fallback) :
    entries[key]? = some (entries.getD key fallback) := by
  rw [Std.ExtTreeMap.getD_eq_getD_getElem?] at hOther ⊢
  cases hFound : entries[key]? with
  | none =>
      rw [hFound] at hOther
      exact absurd rfl hOther
  | some value => rfl

theorem insert_of_getElem? {α β : Type} {cmp : α → α → Ordering} [Std.TransCmp cmp]
    [Std.LawfulEqCmp cmp] {entries : Std.ExtTreeMap α β cmp} {key : α} {value : β}
    (hFound : entries[key]? = some value) : entries.insert key value = entries := by
  apply Std.ExtTreeMap.ext_getElem?
  intro other
  rw [Std.ExtTreeMap.getElem?_insert]
  split
  · rename_i hSame
    rw [← Std.LawfulEqCmp.eq_of_compare hSame, hFound]
  · rfl

/-- A file that has the local id already is put where it stands. -/
theorem putReference_of_lookup {refs : List (Nat × Int64)} {fid : Nat} {id : Int64}
    (hListed : refs.lookup fid = some id) : putReference fid id refs = refs := by
  induction refs with
  | nil => cases hListed
  | cons reference rest ih =>
      obtain ⟨f, i⟩ := reference
      rw [lookup_reference_cons] at hListed
      rw [putReference]
      split
      · rename_i hHead
        rw [if_pos hHead] at hListed
        rw [Option.some.inj hListed]
      · rename_i hHead
        rw [if_neg hHead] at hListed
        rw [ih hListed]

/-- A pair that is there is set to what it is. -/
theorem setForward_of_global? {fid : Nat} {id global : Int64}
    (hPair : map.global? fid id = some global) : map.setForward fid id global = map := by
  have hSome : map.locals fid ≠ ∅ := by
    intro hEmpty
    rw [global?_eq, hEmpty, Std.ExtTreeMap.getElem?_empty] at hPair
    cases hPair
  have hLocals : map.forward[fid]? = some (map.locals fid) := getElem?_of_getD_ne hSome
  rw [setForward, insert_of_getElem? hPair, insert_of_getElem? hLocals]

/-- So is the local id in the list of the global id. -/
theorem setReverse_of_local? {fid : Nat} {id global : Int64}
    (hListed : map.local? global fid = some id) : map.setReverse fid id global = map := by
  have hSome : map.references global ≠ [] := by
    intro hEmpty
    rw [local?, hEmpty] at hListed
    cases hListed
  have hReferences : map.reverse[global]? = some (map.references global) :=
    getElem?_of_getD_ne hSome
  rw [setReverse, putReference_of_lookup hListed, insert_of_getElem? hReferences]

/-- A pair that is there replaces nothing. -/
theorem Lockstep.replacedBy_of_global? (h : map.Lockstep) {fid : Nat} {id global : Int64}
    (hPair : map.global? fid id = some global) : map.replacedBy fid id global = ⟨none, none⟩ := by
  have hListed := (h.paired fid id global).mp hPair
  simp [replacedBy, hPair, hListed]

/-- A pair that is there already changes nothing, not even the order of the files. -/
theorem Lockstep.insert_of_global? (h : map.Lockstep) {fid : Nat} {id global : Int64}
    (hPair : map.global? fid id = some global) : map.insert fid id global = map := by
  simp only [Bimap.insert, h.replacedBy_of_global? hPair, setForward_of_global? hPair]
  exact setReverse_of_local? ((h.paired fid id global).mp hPair)

end Bimap

/-- A loop of steps that do nothing does nothing, and gives no notice. -/
theorem Noted.foldlM_eq_pure {α β : Type} {step : β → α → Noted β} {state : β} {xs : List α}
    (hEach : ∀ x ∈ xs, step state x = pure state) : xs.foldlM step state = pure state := by
  induction xs with
  | nil => rfl
  | cons x rest ih =>
      rw [List.foldlM_cons, hEach x List.mem_cons_self]
      exact ih fun y hMem => hEach y (List.mem_cons_of_mem x hMem)

namespace Linkage

/-! ### Saving and reloading -/

/-- Write the cross-references of some files to documents, read them back and give
them to these files in another linkage, one file after the other. -/
def reload (m fresh : Linkage) (files : List Nat) : Except LinkFault Linkage :=
  files.foldlM (fun loaded fid =>
    (FileLinks.parse (m.fileLinks fid).toElement.document).map fun links =>
      (loaded.addLinks fid links).value) fresh

/-- Since documents lose nothing, reloading is installing the cross-references of the files
one after the other. -/
theorem reload_eq (m fresh : Linkage) (files : List Nat) :
    m.reload fresh files =
      .ok (fresh.addEach (files.map fun fid => (fid, m.fileLinks fid))).value := by
  induction files generalizing fresh with
  | nil => rfl
  | cons fid rest ih =>
      rw [reload, List.foldlM_cons, FileLinks.parse_document]
      exact ih _

/-- Nothing is known of any file at the beginning. -/
theorem locals_of_fresh {fresh : Linkage} (hFresh : Fresh fresh) (fid : Nat) :
    fresh.vids.locals fid = ∅ ∧ fresh.ckeys.locals fid = ∅ := by
  have hNone : Bimap.empty.locals fid = ∅ := Std.ExtTreeMap.getD_empty
  cases hFresh <;> exact ⟨hNone, hNone⟩

/-- Only finitely many files have cross-references. -/
theorem mem_keys_of_fileLinks {m : Linkage} {fid : Nat} (hSome : m.fileLinks fid ≠ .empty) :
    fid ∈ m.ckeys.forward.keys ++ m.vids.forward.keys := by
  by_contra hOut
  simp only [List.mem_append, not_or, Std.ExtTreeMap.mem_keys] at hOut
  apply hSome
  rw [fileLinks, Bimap.locals, Bimap.locals, Std.ExtTreeMap.getD_eq_fallback hOut.1,
    Std.ExtTreeMap.getD_eq_fallback hOut.2]
  rfl

/-- Pairs of ids that are there already are given to a file again without any change. -/
theorem addKeys_again {m : Linkage} (hKeys : m.ckeys.Lockstep) {fid : Nat}
    {pairs : List (Int64 × Int64)} (hPairs : ∀ ids ∈ pairs, m.ckeys.global? fid ids.1 = some ids.2) :
    pairs.foldlM (fun m ids => m.addKey ⟨fid, ids.1⟩ ids.2) m = pure m := by
  apply Noted.foldlM_eq_pure
  intro ids hMem
  simp only [addKey, hKeys.insert_of_global? (hPairs ids hMem),
    hKeys.replacedBy_of_global? (hPairs ids hMem)]
  rfl

theorem addVars_again {m : Linkage} (hVars : m.vids.Lockstep) {fid : Nat}
    {pairs : List (Int64 × Int64)} (hPairs : ∀ ids ∈ pairs, m.vids.global? fid ids.1 = some ids.2) :
    pairs.foldlM (fun m ids => m.addVar ⟨fid, ids.1⟩ ids.2) m = pure m := by
  apply Noted.foldlM_eq_pure
  intro ids hMem
  simp only [addVar, hVars.insert_of_global? (hPairs ids hMem),
    hVars.replacedBy_of_global? (hPairs ids hMem)]
  rfl

/-- The linkage in which a file has an entry in both maps, perhaps without ids. -/
def entered (m : Linkage) (fid : Nat) : Linkage :=
  { m with ckeys := m.ckeys.enter fid, vids := m.vids.enter fid }

/-- Nothing shows that a file has been entered. -/
theorem alike_entered (m : Linkage) (fid : Nat) : (m.entered fid).Alike m where
  singleFile_eq := rfl
  settings_eq := rfl
  vids := m.vids.alike_enter fid
  ckeys := m.ckeys.alike_enter fid
  definitions_eq := rfl
  vidCeilings_eq := rfl

/-- A file that is given its own ids once more is entered, and that is all. -/
theorem addLinks_fileLinks {m : Linkage} (hVars : m.vids.Lockstep) (hKeys : m.ckeys.Lockstep)
    (fid : Nat) : m.addLinks fid (m.fileLinks fid) = pure (m.entered fid) := by
  have hKeyPairs : ∀ ids ∈ (m.ckeys.locals fid).toList,
      (m.ckeys.enter fid).global? fid ids.1 = some ids.2 := by
    intro ids hMem
    rw [Bimap.global?_enter]
    exact Std.ExtTreeMap.mem_toList_iff_getElem?_eq_some.mp hMem
  have hVarPairs : ∀ ids ∈ (m.vids.locals fid).toList,
      (m.vids.enter fid).global? fid ids.1 = some ids.2 := by
    intro ids hMem
    rw [Bimap.global?_enter]
    exact Std.ExtTreeMap.mem_toList_iff_getElem?_eq_some.mp hMem
  have hKeyed : (m.ckeys.locals fid).toList.foldlM (fun m ids => m.addKey ⟨fid, ids.1⟩ ids.2)
      { m with ckeys := m.ckeys.enter fid } = pure { m with ckeys := m.ckeys.enter fid } :=
    addKeys_again (hKeys.enter fid) hKeyPairs
  have hBoth : (m.vids.locals fid).toList.foldlM (fun m ids => m.addVar ⟨fid, ids.1⟩ ids.2)
      (m.entered fid) = pure (m.entered fid) :=
    addVars_again (m := m.entered fid) (hVars.enter fid) hVarPairs
  rw [addLinks, fileLinks, hKeyed]
  exact hBoth

/-- A program of several files is rebuilt from the stored cross-references of its
files, in whichever order they are loaded, as long as no file that has any is left
out. Installing the cross-references of a file where they come from changes no answer to
any question and no order of references, neither now nor later, and gives no notice. -/
theorem reload_sameIds_of_run {start m : Linkage} {ops : List Operation} (hStart : Fresh start)
    (run : transitions.Run start ops m) (hFiles : m.singleFile = false) :
    (∀ (fresh : Linkage) (files : List Nat), Fresh fresh → fresh.singleFile = false →
      (∀ fid, m.fileLinks fid ≠ .empty → fid ∈ files) →
      ∃ loaded, m.reload fresh files = .ok loaded ∧ loaded.SameIds m) ∧
    ∀ fid, ∃ again, m.addLinks fid (m.fileLinks fid) = pure again ∧
      again.SameAnswers m ∧ again.Indistinguishable m := by
  obtain ⟨hVars, hKeys⟩ := maps_lockstep hStart run
  have hAgain : ∀ fid, ∃ again, m.addLinks fid (m.fileLinks fid) = pure again ∧
      again.SameAnswers m ∧ again.Indistinguishable m := fun fid =>
    ⟨m.entered fid, addLinks_fileLinks hVars hKeys fid, (m.alike_entered fid).sameAnswers,
      (m.alike_entered fid).indistinguishable⟩
  refine ⟨?_, hAgain⟩
  intro fresh files hFresh hFreshFiles hCover
  refine ⟨_, m.reload_eq fresh files, ?_⟩
  rw [addEach_eq]
  refine sameIds_of_agrees (hFreshFiles.trans hFiles.symm) ?_ ?_
  · apply (lockstep_of_fresh hFresh).1.insertEach_agrees hVars
      (fun fid => (locals_of_fresh hFresh fid).1) (fun _ => rfl)
    exact fun fid hSome => hCover fid fun hEmpty => hSome (congrArg FileLinks.vids hEmpty)
  · apply (lockstep_of_fresh hFresh).2.insertEach_agrees hKeys
      (fun fid => (locals_of_fresh hFresh fid).2) (fun _ => rfl)
    exact fun fid hSome => hCover fid fun hEmpty => hSome (congrArg FileLinks.ckeys hEmpty)

/-- Two files share a variable with the smallest of all global ids, one of them
after its variable got another number. The files are loaded the other way round. -/
theorem reload_sameIds_after_overwrite :
    ∃ m, transitions.Run (new false)
        [.addKey ⟨1, -4⟩ 1, .addVar ⟨1, 8⟩ (-9223372036854775808), .addVar ⟨1, 3⟩ 5,
          .addVar ⟨1, 7⟩ (-9223372036854775808), .addVar ⟨2, 6⟩ (-9223372036854775808)] m ∧
      m.singleFile = false ∧ (∀ fid, m.fileLinks fid ≠ .empty → fid ∈ [1, 2]) ∧
      m.references (-9223372036854775808) = [⟨2, 6⟩, ⟨1, 8⟩] ∧
      (∃ loaded, m.reload (new false) [1, 2] = .ok loaded ∧ loaded.SameIds m) ∧
      ∀ fid, ∃ again, m.addLinks fid (m.fileLinks fid) = pure again ∧
        again.SameAnswers m ∧ again.Indistinguishable m := by
  have run := (((((Transitions.RunWithin.refl : transitions.Run (new false) [] _).step
    (.addVar ⟨2, 6⟩ (-9223372036854775808)) trivial trivial).step
    (.addVar ⟨1, 7⟩ (-9223372036854775808)) trivial trivial).step
    (.addVar ⟨1, 3⟩ 5) trivial trivial).step
    (.addVar ⟨1, 8⟩ (-9223372036854775808)) trivial trivial).step
    (.addKey ⟨1, -4⟩ 1) trivial trivial
  have hReload := reload_sameIds_of_run (.new false) run rfl
  have hKeys : ∀ fid ∈ [1] ++ [1, 2], fid ∈ [1, 2] := by decide
  refine ⟨_, run, rfl, ?_, by decide +kernel, ?_, hReload.2⟩
  · exact fun fid hSome => hKeys fid (mem_keys_of_fileLinks hSome)
  · exact hReload.1 (new false) [1, 2] (.new false) rfl fun fid hSome =>
      hKeys fid (mem_keys_of_fileLinks hSome)

end Linkage

end ProgramIndex
