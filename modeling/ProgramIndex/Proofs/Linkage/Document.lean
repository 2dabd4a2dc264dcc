import Mathlib.Data.List.Induction
import ProgramIndex.Proofs.Linkage.History
import ProgramIndex.Proofs.Linkage.Persistence
import ProgramIndex.Proofs.Numeral.Spelling

/-!
What a document of cross-references means. Two rules settle which pairs of ids a file
gets. Within a section the last entry of a local id counts, wherever it stands. Of several
local ids whose last entries have the same global id the largest one keeps it, as the pairs
are installed in ascending order and each of them evicts the one before. A single faulty
entry makes the whole document unreadable, and then nothing is installed.
-/

namespace ProgramIndex

open Numeral (SpellsInt)

namespace FileLinks

/-! ### Entries -/

/-- The entries that count for a section: those in the first section of its name. -/
def Section.entries (form : Section) (root : Element) : List Element :=
  match root.find? form.name with
  | none => []
  | some e => e.findAll form.entryName

/-- An attribute of an entry holds an id, perhaps with blanks around it. -/
def SpellsId (entry : Element) (key : String) (id : Int64) : Prop :=
  ∃ text, entry.get? key = some text ∧ SpellsInt (Text.trim text.toList) id.toInt

/-- An entry holds a local and a global id. Its children and its other attributes do not
matter. -/
def Section.Spells (form : Section) (entry : Element) (ids : Int64 × Int64) : Prop :=
  SpellsId entry form.localKey ids.1 ∧ SpellsId entry form.globalKey ids.2

/-- All entries of a section hold two ids. -/
def Section.Readable (form : Section) (root : Element) : Prop :=
  ∀ entry ∈ form.entries root, ∃ ids, form.Spells entry ids

/-- What is wrong with an attribute that holds no id. -/
inductive Section.IdFault (form : Section) (entry : Element) (key : String) :
    LinkFault → Prop where
  | missing (hMissing : entry.get? key = none) :
      IdFault form entry key (.missingAttribute form.kind key)
  | invalid {text : String} (hText : entry.get? key = some text)
      (hInvalid : ∀ id : Int64, ¬ SpellsInt (Text.trim text.toList) id.toInt) :
      IdFault form entry key (.invalidInteger form.kind key text)

/-- What is wrong with an entry. Its local id is looked at before its global id. -/
inductive Section.EntryFault (form : Section) (entry : Element) (fault : LinkFault) : Prop where
  | ofLocal (hLocal : form.IdFault entry form.localKey fault)
  | ofGlobal {id : Int64} (hLocal : SpellsId entry form.localKey id)
      (hGlobal : form.IdFault entry form.globalKey fault)

/-- What is wrong with the first faulty entry of a section. -/
def Section.FirstFault (form : Section) (root : Element) (fault : LinkFault) : Prop :=
  ∃ earlier entry later, form.entries root = earlier ++ entry :: later ∧
    (∀ other ∈ earlier, ∃ ids, form.Spells other ids) ∧ form.EntryFault entry fault

/-- The last entry with this local id has this global id. -/
def Section.Settles (form : Section) (root : Element) (id global : Int64) : Prop :=
  ∃ earlier entry later, form.entries root = earlier ++ entry :: later ∧
    form.Spells entry (id, global) ∧ ∀ other ∈ later, ¬ SpellsId other form.localKey id

/-- The local id keeps the global id of its last entry: no larger local id ends up with
the same one. -/
def Section.Prevails (form : Section) (root : Element) (id global : Int64) : Prop :=
  form.Settles root id global ∧ ∀ other, id < other → ¬ form.Settles root other global

/-- An id is read exactly if the attribute spells it. -/
theorem Section.readId_eq_ok_iff {form : Section} {entry : Element} {key : String} {id : Int64} :
    form.readId entry key = .ok id ↔ SpellsId entry key id := by
  rw [readId, SpellsId]
  cases entry.get? key with
  | none => simp
  | some text =>
      simp only [Option.some.injEq, exists_eq_left', ← Numeral.readInt64_eq_ok_iff]
      cases Numeral.readInt64 (Text.trim text.toList) <;> simp

/-- An attribute holds one id at most. -/
theorem SpellsId.unique {entry : Element} {key : String} {id other : Int64}
    (hId : SpellsId entry key id) (hOther : SpellsId entry key other) : id = other := by
  obtain ⟨text, hText, hSpells⟩ := hId
  obtain ⟨same, hSame, hSpellsOther⟩ := hOther
  obtain rfl := Option.some.inj (hText.symm.trans hSame)
  exact Except.ok.inj ((Numeral.readInt64_eq_ok_iff.mpr hSpells).symm.trans
    (Numeral.readInt64_eq_ok_iff.mpr hSpellsOther))

/-- An id that cannot be read is missing or is not spelled like one. -/
theorem Section.readId_eq_error_iff {form : Section} {entry : Element} {key : String}
    {fault : LinkFault} : form.readId entry key = .error fault ↔ form.IdFault entry key fault := by
  constructor
  · intro hError
    unfold readId at hError
    split at hError
    · rename_i hMissing
      rw [← Except.error.inj hError]
      exact .missing hMissing
    · rename_i text hText
      split at hError
      · cases hError
      · rename_i cause hRead
        rw [← Except.error.inj hError]
        refine .invalid hText fun id hSpells => ?_
        rw [Numeral.readInt64_eq_ok_iff.mpr hSpells] at hRead
        cases hRead
  · rintro (hMissing | @⟨text, hText, hInvalid⟩)
    · simp only [readId, hMissing]
    · simp only [readId, hText]
      cases hRead : Numeral.readInt64 (Text.trim text.toList) with
      | ok id => exact absurd (Numeral.readInt64_eq_ok_iff.mp hRead) (hInvalid id)
      | error cause => rfl

/-- An entry is read exactly if it holds both ids. -/
theorem Section.readEntry_eq_ok_iff {form : Section} {entry : Element} {ids : Int64 × Int64} :
    form.readEntry entry = .ok ids ↔ form.Spells entry ids := by
  simp only [readEntry, Spells, bind_eq_ok_iff, readId_eq_ok_iff, pure, Except.pure,
    Except.ok.injEq, Prod.ext_iff, ↓existsAndEq, and_true]

/-- An entry that cannot be read is faulty in its local id, or else in its global id. -/
theorem Section.readEntry_eq_error_iff {form : Section} {entry : Element} {fault : LinkFault} :
    form.readEntry entry = .error fault ↔ form.EntryFault entry fault := by
  constructor
  · intro hError
    rw [readEntry] at hError
    cases hLocal : form.readId entry form.localKey with
    | error other =>
        rw [hLocal] at hError
        rw [← Except.error.inj hError]
        exact .ofLocal (readId_eq_error_iff.mp hLocal)
    | ok id =>
        cases hGlobal : form.readId entry form.globalKey with
        | error other =>
            rw [hLocal, hGlobal] at hError
            rw [← Except.error.inj hError]
            exact .ofGlobal (readId_eq_ok_iff.mp hLocal) (readId_eq_error_iff.mp hGlobal)
        | ok global =>
            rw [hLocal, hGlobal] at hError
            cases hError
  · rintro (hLocal | ⟨hLocal, hGlobal⟩)
    · rw [readEntry, readId_eq_error_iff.mpr hLocal]
      rfl
    · rw [readEntry, readId_eq_ok_iff.mpr hLocal, readId_eq_error_iff.mpr hGlobal]
      rfl

/-! ### Sections -/

/-- The map after some pairs have been inserted one after the other: the last pair with a
local id counts. -/
theorem getElem?_foldl_insert {pairs : List (Int64 × Int64)} {id global : Int64} :
    (pairs.foldl (fun (ids : LocalMap) pair => ids.insert pair.1 pair.2) ∅)[id]? = some global ↔
      ∃ earlier later, pairs = earlier ++ (id, global) :: later ∧ ∀ pair ∈ later, pair.1 ≠ id := by
  -- Seen from the end: the last pair decides, unless it is about another id.
  induction pairs using List.reverseRecOn with
  | nil => simp
  | append_singleton pairs last ih =>
      rw [List.foldl_append, List.foldl_cons, List.foldl_nil, Std.ExtTreeMap.getElem?_insert]
      simp only [Std.compare_eq_iff_eq]
      constructor
      · split
        · rename_i hId
          intro hLast
          refine ⟨pairs, [], ?_, nofun⟩
          rw [← hId, ← Option.some.inj hLast]
        · rename_i hId
          intro hEarlier
          obtain ⟨earlier, later, rfl, hLater⟩ := ih.mp hEarlier
          refine ⟨earlier, later ++ [last], by simp, fun pair hMem => ?_⟩
          rcases List.mem_append.mp hMem with hMem | hMem
          · exact hLater pair hMem
          · rwa [List.mem_singleton.mp hMem]
      · rintro ⟨earlier, later, hSplit, hLater⟩
        cases later using List.reverseRecOn with
        | nil =>
            obtain ⟨-, hLast⟩ := List.append_inj' hSplit rfl
            rw [List.cons.inj hLast |>.1, if_pos rfl]
        | append_singleton later newest =>
            rw [← List.cons_append, ← List.append_assoc] at hSplit
            obtain ⟨rfl, hLast⟩ := List.append_inj' hSplit rfl
            obtain rfl := (List.cons.inj hLast).1
            rw [if_neg (hLater last (by simp))]
            exact ih.mpr ⟨earlier, later, rfl, fun pair hMem => hLater pair (by simp [hMem])⟩

theorem Section.ofElement_eq (form : Section) (root : Element) :
    form.ofElement root = ((form.entries root).mapM form.readEntry).map fun pairs =>
      pairs.foldl (fun (ids : LocalMap) pair => ids.insert pair.1 pair.2) ∅ := by
  rw [Section.ofElement, entries]
  cases root.find? form.name <;> rfl

/-- A section that cannot be read has a first entry that is faulty. -/
theorem Section.ofElement_eq_error_iff {form : Section} {root : Element} {fault : LinkFault} :
    form.ofElement root = .error fault ↔ form.FirstFault root fault := by
  simp only [ofElement_eq, map_eq_error_iff, mapM_eq_error_iff, readEntry_eq_ok_iff, readEntry_eq_error_iff, FirstFault]

/-- A section is read exactly if each of its entries holds two ids. -/
theorem Section.exists_ofElement_iff {form : Section} {root : Element} :
    (∃ ids, form.ofElement root = .ok ids) ↔ form.Readable root := by
  rw [ofElement_eq]
  constructor
  · rintro ⟨ids, hRead⟩ entry hMem
    obtain ⟨pairs, hPairs, -⟩ := map_eq_ok_iff.mp hRead
    obtain ⟨pair, hPair⟩ := exists_ok_of_mapM hPairs hMem
    exact ⟨pair, readEntry_eq_ok_iff.mp hPair⟩
  · intro hReadable
    obtain ⟨pairs, hPairs, -⟩ := @exists_mapM_forall₂ _ _ _ form.readEntry (fun _ _ => True) _
      fun entry hMem => (hReadable entry hMem).imp fun ids hSpells =>
        ⟨readEntry_eq_ok_iff.mpr hSpells, trivial⟩
    exact ⟨_, map_eq_ok_iff.mpr ⟨pairs, hPairs, rfl⟩⟩

/-- The ids that are read from a section are those of the last entries. -/
theorem Section.getElem?_ofElement {form : Section} {root : Element} {ids : LocalMap}
    (hRead : form.ofElement root = .ok ids) {id global : Int64} :
    ids[id]? = some global ↔ form.Settles root id global := by
  rw [ofElement_eq] at hRead
  obtain ⟨pairs, hPairs, rfl⟩ := map_eq_ok_iff.mp hRead
  rw [mapM_eq_ok_iff] at hPairs
  rw [getElem?_foldl_insert]
  constructor
  · rintro ⟨earlier, later, rfl, hLater⟩
    rw [List.map_append, List.map_cons] at hPairs
    obtain ⟨before, rest, hEntries, -, hRest⟩ := List.map_eq_append_iff.mp hPairs
    obtain ⟨entry, after, rfl, hEntry, hAfter⟩ := List.map_eq_cons_iff.mp hRest
    refine ⟨before, entry, after, hEntries, readEntry_eq_ok_iff.mp hEntry, ?_⟩
    intro other hMem hSpells
    obtain ⟨pair, hPair, hOther⟩ := List.mem_map.mp (hAfter ▸ List.mem_map_of_mem hMem)
    exact hLater pair hPair ((readEntry_eq_ok_iff.mp hOther.symm).1.unique hSpells)
  · rintro ⟨before, entry, after, hEntries, hEntry, hAfter⟩
    rw [hEntries, List.map_append, List.map_cons, readEntry_eq_ok_iff.mpr hEntry] at hPairs
    obtain ⟨earlier, rest, rfl, -, hRest⟩ := List.map_eq_append_iff.mp hPairs.symm
    obtain ⟨pair, later, rfl, hPair, hLater⟩ := List.map_eq_cons_iff.mp hRest
    refine ⟨earlier, later, by rw [Except.ok.inj hPair], ?_⟩
    rintro other hMem rfl
    obtain ⟨last, hLast, hRead⟩ := List.mem_map.mp (hLater ▸ List.mem_map_of_mem hMem)
    exact hAfter last hLast (readEntry_eq_ok_iff.mp hRead).1

/-- The ids that are read tell which pairs prevail. -/
theorem Section.prevails_iff {form : Section} {root : Element} {ids : LocalMap}
    (hRead : form.ofElement root = .ok ids) {id global : Int64} :
    form.Prevails root id global ↔
      ids[id]? = some global ∧ ∀ other, id < other → ids[other]? ≠ some global := by
  simp only [Prevails, ← getElem?_ofElement hRead, ne_eq]

/-! ### Documents -/

/-- What is wrong with a document: the first fault among the struct keys, or if all of them
can be read the first fault among the variables. -/
def FirstFault (root : Element) (fault : LinkFault) : Prop :=
  ckeySection.FirstFault root fault ∨
    (ckeySection.Readable root ∧ vidSection.FirstFault root fault)

theorem ofElement_eq_ok_iff {e : Element} {links : FileLinks} :
    ofElement e = .ok links ↔ ckeySection.ofElement (rootOf e) = .ok links.ckeys ∧
      vidSection.ofElement (rootOf e) = .ok links.vids := by
  obtain ⟨ckeys, vids⟩ := links
  simp only [ofElement, bind_eq_ok_iff, pure, Except.pure, Except.ok.injEq, mk.injEq,
    ↓existsAndEq, and_true]

theorem exists_ofElement_iff {e : Element} : (∃ links, ofElement e = .ok links) ↔
    ckeySection.Readable (rootOf e) ∧ vidSection.Readable (rootOf e) := by
  simp only [ofElement_eq_ok_iff, ← Section.exists_ofElement_iff]
  constructor
  · rintro ⟨links, hKeys, hVars⟩
    exact ⟨⟨_, hKeys⟩, _, hVars⟩
  · rintro ⟨⟨ckeys, hKeys⟩, vids, hVars⟩
    exact ⟨⟨ckeys, vids⟩, hKeys, hVars⟩

/-- What is reported of an unreadable element is the first fault in it. -/
theorem ofElement_eq_error_iff {e : Element} {fault : LinkFault} :
    ofElement e = .error fault ↔ FirstFault (rootOf e) fault := by
  rw [FirstFault, ← Section.exists_ofElement_iff, ← Section.ofElement_eq_error_iff,
    ← Section.ofElement_eq_error_iff, ofElement]
  cases ckeySection.ofElement (rootOf e) with
  | error other => simp [bind, Except.bind]
  | ok keys => cases vidSection.ofElement (rootOf e) <;> simp [bind, Except.bind, pure, Except.pure]

/-! ### Written documents -/

/-- The entries of a section hold the pairs of a map, in strictly ascending order of the
local ids. -/
def Section.Lists (form : Section) (root : Element) (ids : LocalMap) : Prop :=
  ∃ pairs : List (Int64 × Int64), (pairs.map Prod.fst).Pairwise (· < ·) ∧
    (∀ id global, (id, global) ∈ pairs ↔ ids[id]? = some global) ∧
    List.Forall₂ form.Spells (form.entries root) pairs

/-- A section that is written lists the pairs in the order in which the map has them. -/
theorem Section.Legible.lists_toElement {form : Section} (h : form.Legible) {ids : LocalMap}
    {root : Element} (hFind : root.find? form.name = some (form.toElement ids)) :
    form.Lists root ids := by
  refine ⟨ids.toList, Linkage.pairwise_toList ids,
    fun id global => Std.ExtTreeMap.mem_toList_iff_getElem?_eq_some, ?_⟩
  simp only [Section.entries, hFind]
  rw [form.findAll_toElement, List.forall₂_map_left_iff, List.forall₂_same]
  exact fun pair _ => readEntry_eq_ok_iff.mp (h.readEntry_entry pair)

/-- An element with cross-references below it is read as they are, whatever else it
contains. -/
theorem ofElement_of_find? {e : Element} {links : FileLinks} (hName : e.name ≠ rootName)
    (hFind : e.find? rootName = some links.toElement) : ofElement e = .ok links := by
  have hRoot : rootOf e = links.toElement := by
    rw [rootOf, if_neg hName, hFind, Option.getD_some]
  rw [← links.ofElement_toElement, ofElement, ofElement, hRoot, links.rootOf_toElement]

/-- A document keeps the cross-references of a file, whatever the ids are and also if several
local ids have the same global id. It is read back on its own and below another element. -/
theorem document_keeps_links (links : FileLinks) :
    Element.parse links.toElement.document = .ok links.toElement ∧
    ofElement links.toElement = .ok links ∧
    (∀ e : Element, e.name ≠ rootName → e.find? rootName = some links.toElement →
      ofElement e = .ok links) ∧
    ckeySection.Lists links.toElement links.ckeys ∧
    vidSection.Lists links.toElement links.vids :=
  ⟨links.legible_toElement.parse_document, links.ofElement_toElement,
    fun _ => ofElement_of_find?, legible_ckeySection.lists_toElement rfl,
    legible_vidSection.lists_toElement rfl⟩

/-- The smallest and the largest struct key have the same global key. Of two elements of the
right name the first one is read. -/
theorem document_keeps_extreme_links :
    ∃ (links : FileLinks) (e : Element),
      links = ⟨(∅ : LocalMap).insert 9223372036854775807 (-1) |>.insert (-9223372036854775808) (-1),
        ∅⟩ ∧
      e = ⟨"file", [("name", "a.c")], [⟨"note", [], []⟩, links.toElement, ⟨rootName, [], []⟩]⟩ ∧
      e.name ≠ rootName ∧ e.find? rootName = some links.toElement ∧ ofElement e = .ok links ∧
      Element.parse links.toElement.document = .ok links.toElement ∧
      ckeySection.Lists links.toElement links.ckeys := by
  obtain ⟨hParse, -, hNested, hKeys, -⟩ := document_keeps_links
    ⟨(∅ : LocalMap).insert 9223372036854775807 (-1) |>.insert (-9223372036854775808) (-1), ∅⟩
  exact ⟨_, _, rfl, rfl, by decide, rfl, hNested _ (by decide) rfl, hParse, hKeys⟩

end FileLinks

/-! ### Installing in ascending order -/

/-- Of the pairs that are installed in ascending order of the local ids one stays if no
later one has the same global id. What was there before stays if it shares no id with any
of them. -/
theorem LocalMap.assignAll_eq_some_iff {pairs : List (Int64 × Int64)}
    (hAscending : (pairs.map Prod.fst).Pairwise (· < ·)) {ids : LocalMap} {i g : Int64} :
    (ids.assignAll pairs)[i]? = some g ↔
      ((i, g) ∈ pairs ∧ ∀ j, i < j → (j, g) ∉ pairs) ∨
        (ids[i]? = some g ∧ ∀ pair ∈ pairs, pair.1 ≠ i ∧ pair.2 ≠ g) := by
  induction pairs generalizing ids with
  | nil => simp [assignAll]
  | cons pair rest ih =>
      obtain ⟨id, global⟩ := pair
      -- The ids after the first one are larger, so they do not replace its pair; they can
      -- only take its global id.
      rw [List.map_cons, List.pairwise_cons] at hAscending
      obtain ⟨hFirst, hRest⟩ := hAscending
      have hLess : ∀ {pair : Int64 × Int64}, pair ∈ rest → id < pair.1 := fun hMem =>
        hFirst _ (List.mem_map_of_mem hMem)
      rw [assignAll_cons, ih hRest, assign_eq_some_iff]
      constructor
      · rintro (⟨hMem, hLast⟩ | ⟨⟨rfl, rfl⟩ | ⟨hOld, hNew⟩, hOthers⟩)
        · refine Or.inl ⟨List.mem_cons_of_mem _ hMem, fun j hAbove hPair => ?_⟩
          rcases List.mem_cons.mp hPair with hHead | hPair
          · cases hHead
            exact Int64.lt_asymm hAbove (hLess hMem)
          · exact hLast j hAbove hPair
        · refine Or.inl ⟨List.mem_cons_self, fun j hAbove hPair => ?_⟩
          rcases List.mem_cons.mp hPair with hHead | hPair
          · cases hHead
            exact Int64.lt_irrefl hAbove
          · exact (hOthers _ hPair).2 rfl
        · exact Or.inr ⟨hOld, List.forall_mem_cons.mpr ⟨hNew, hOthers⟩⟩
      · rintro (⟨hPair, hLast⟩ | ⟨hOld, hAll⟩)
        · rcases List.mem_cons.mp hPair with hHead | hMem
          · cases hHead
            refine Or.inr ⟨Or.inl ⟨rfl, rfl⟩, fun pair hMem => ⟨?_, ?_⟩⟩
            · exact (Int64.ne_of_lt (hLess hMem)).symm
            · rintro rfl
              exact hLast pair.1 (hLess hMem) (List.mem_cons_of_mem _ hMem)
          · exact Or.inl ⟨hMem, fun j hAbove hLater =>
              hLast j hAbove (List.mem_cons_of_mem _ hLater)⟩
        · obtain ⟨hNew, hOthers⟩ := List.forall_mem_cons.mp hAll
          exact Or.inr ⟨Or.inr ⟨hOld, hNew⟩, hOthers⟩

/-- A map whose pairs are installed in an empty one loses the pairs that share their global
id with a larger local id. -/
theorem LocalMap.assignAll_toList_eq_some_iff {ids : LocalMap} {i g : Int64} :
    ((∅ : LocalMap).assignAll ids.toList)[i]? = some g ↔
      ids[i]? = some g ∧ ∀ j, i < j → ids[j]? ≠ some g := by
  rw [assignAll_eq_some_iff (Linkage.pairwise_toList ids)]
  simp only [Std.ExtTreeMap.mem_toList_iff_getElem?_eq_some, Std.ExtTreeMap.getElem?_empty,
    reduceCtorEq, false_and, or_false, ne_eq]

namespace Bimap

/-- A file without ids that is given those of a map. -/
theorem Lockstep.global?_bring_toList {map : Bimap} (h : map.Lockstep) {fid : Nat}
    (hNone : map.locals fid = ∅) {entered : Bool} {ids : LocalMap} {id global : Int64} :
    (map.bring fid entered ids.toList).global? fid id = some global ↔
      ids[id]? = some global ∧ ∀ other, id < other → ids[other]? ≠ some global := by
  rw [global?_eq, h.locals_bring, Function.update_self, hNone,
    LocalMap.assignAll_toList_eq_some_iff]

end Bimap

namespace Linkage

open FileLinks

theorem globalKey?_of_files {m : Linkage} (hFiles : m.singleFile = false) (key : FileKey) :
    m.globalKey? key = m.ckeys.global? key.fid key.ckey := by
  rw [globalKey?, hFiles, if_neg Bool.false_ne_true]

/-- An element does what the cross-references in it do, and it is refused for what is wrong
with these. -/
theorem addElement_eq (m : Linkage) (fid : Nat) (e : Element) :
    (m.addElement fid e).value =
      (m.install (.ofLinks? fid (FileLinks.ofElement e).toOption),
        (FileLinks.ofElement e).map fun _ => ()) :=
  m.addRead_eq fid (FileLinks.ofElement e)

/-- An element is accepted exactly if the cross-references in it can be read. -/
theorem addElement_eq_ok_iff {m : Linkage} {fid : Nat} {e : Element} :
    (m.addElement fid e).value.2 = .ok () ↔ ∃ links, FileLinks.ofElement e = .ok links := by
  simp only [addElement_eq, map_eq_ok_iff, and_true]

theorem addElement_eq_error_iff {m : Linkage} {fid : Nat} {e : Element} {fault : LinkFault} :
    (m.addElement fid e).value.2 = .error fault ↔ FileLinks.FirstFault (rootOf e) fault := by
  rw [← FileLinks.ofElement_eq_error_iff, addElement_eq]
  exact map_eq_error_iff

/-- What an element does for a file that has no ids yet, in a program of several files. It is
read exactly if all entries that count hold two ids; otherwise the first fault is reported and
nothing is installed. If it is read, then a local id has a global id exactly if its last entry
says so and the last entry of no larger local id names the same global id. -/
theorem addElement_prevails_of_run {start m : Linkage} {ops : List Operation}
    (hStart : Fresh start) (run : transitions.Run start ops m) (hFiles : m.singleFile = false)
    {fid : Nat} (hNone : m.fileLinks fid = .empty) (e : Element) :
    ((m.addElement fid e).value.2 = .ok () ↔
      ckeySection.Readable (rootOf e) ∧ vidSection.Readable (rootOf e)) ∧
    (∀ fault, (m.addElement fid e).value.2 = .error fault ↔
      FileLinks.FirstFault (rootOf e) fault) ∧
    (∀ fault, (m.addElement fid e).value.2 = .error fault → (m.addElement fid e).value.1 = m) ∧
    ((m.addElement fid e).value.2 = .ok () →
      (∀ v g, (m.addElement fid e).value.1.globalVar? ⟨fid, v⟩ = some g ↔
        vidSection.Prevails (rootOf e) v g) ∧
      ∀ k g, (m.addElement fid e).value.1.globalKey? ⟨fid, k⟩ = some g ↔
        ckeySection.Prevails (rootOf e) k g) := by
  obtain ⟨hVars, hKeys⟩ := maps_lockstep hStart run
  refine ⟨addElement_eq_ok_iff.trans FileLinks.exists_ofElement_iff,
    fun _ => addElement_eq_error_iff, ?_, ?_⟩
  · intro fault hError
    rw [addElement_eq_error_iff, ← FileLinks.ofElement_eq_error_iff] at hError
    rw [addElement_eq, hError]
    rfl
  · intro hOk
    obtain ⟨links, hRead⟩ := addElement_eq_ok_iff.mp hOk
    obtain ⟨hReadKeys, hReadVars⟩ := FileLinks.ofElement_eq_ok_iff.mp hRead
    have hLinked : (m.addElement fid e).value.1 = m.install (.ofLinks fid links) := by
      rw [addElement_eq, hRead]
      rfl
    have hStill : (m.install (.ofLinks fid links)).singleFile = false := hFiles
    rw [hLinked]
    constructor
    · intro v g
      rw [globalVar?_of_files hStill, Section.prevails_iff hReadVars]
      exact hVars.global?_bring_toList (congrArg FileLinks.vids hNone)
    · intro k g
      rw [globalKey?_of_files hStill, Section.prevails_iff hReadKeys]
      exact hKeys.global?_bring_toList (congrArg FileLinks.ckeys hNone)

/-- A section below a document root, with two entries for the variable 3 and two variables
whose last entries name the same global id. The other file keeps its variable. -/
theorem addElement_prevails_with_duplicates :
    ∃ m e after,
      e = ⟨"file", [], [⟨"note", [], []⟩, ⟨rootName, [], [⟨vidSection.name, [],
        [⟨"vxref", [("vid", "4"), ("gvid", "20")], []⟩,
          ⟨"vxref", [("vid", " +3 "), ("gvid", "30")], []⟩, ⟨"note", [], []⟩,
          ⟨"vxref", [("gvid", "20"), ("vid", "3")], []⟩,
          ⟨"vxref", [("vid", "8"), ("gvid", "-30")], []⟩]⟩]⟩]⟩ ∧
      transitions.Run (new false) [.addVar ⟨2, 6⟩ 20] m ∧ m.singleFile = false ∧
      m.fileLinks 1 = .empty ∧ (m.addElement 1 e).value = (after, .ok ()) ∧
      ckeySection.Readable (rootOf e) ∧ vidSection.Readable (rootOf e) ∧
      after.globalVar? ⟨1, 3⟩ = none ∧ ¬ vidSection.Prevails (rootOf e) 3 20 ∧
      after.globalVar? ⟨1, 4⟩ = some 20 ∧ vidSection.Prevails (rootOf e) 4 20 ∧
      after.globalVar? ⟨1, 8⟩ = some (-30) ∧ vidSection.Prevails (rootOf e) 8 (-30) ∧
      after.globalVar? ⟨2, 6⟩ = some 20 := by
  have run := (Transitions.RunWithin.refl : transitions.Run (new false) [] _).step
    (.addVar ⟨2, 6⟩ 20) trivial trivial
  have hNone : ((new false).perform (.addVar ⟨2, 6⟩ 20)).fileLinks 1 = .empty := by
    decide +kernel
  have hDocument := addElement_prevails_of_run (.new false) run rfl hNone
  have hReadable := fun e hOk => (hDocument e).1.mp hOk
  have hVars := fun e hOk => ((hDocument e).2.2.2 hOk).1
  refine ⟨_, _, _, rfl, run, rfl, hNone, rfl, (hReadable _ rfl).1, (hReadable _ rfl).2,
    by decide +kernel, fun hLast => ?_, by decide +kernel,
    (hVars _ rfl 4 20).mp (by decide +kernel), by decide +kernel,
    (hVars _ rfl 8 (-30)).mp (by decide +kernel), by decide +kernel⟩
  exact absurd ((hVars _ rfl 3 20).mpr hLast) (by decide +kernel)

end Linkage

end ProgramIndex
