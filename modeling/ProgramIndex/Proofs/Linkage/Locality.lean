import ProgramIndex.Proofs.Attempts
import ProgramIndex.Proofs.Linkage.Persistence

/-!
What an operation on one file does to the others: nothing. The lists of files that
global ids keep are shared, and an insertion may empty one of them or make a new one,
but apart from its own file it changes no entry in any of them and no order.
-/

namespace ProgramIndex

namespace Bimap

/-- Two maps say the same about all files but one, and list these files in the same
order. -/
structure AgreesBeside (fid : Nat) (before after : Bimap) : Prop where
  locals_eq : ∀ other, other ≠ fid → after.locals other = before.locals other
  references_eq : ∀ global,
    removeReference fid (after.references global) = removeReference fid (before.references global)

theorem AgreesBeside.global?_eq {fid : Nat} {before after : Bimap}
    (hAgrees : before.AgreesBeside fid after) {other : Nat} (hOther : other ≠ fid) (id : Int64) :
    after.global? other id = before.global? other id := by
  rw [global?, global?, hAgrees.locals_eq other hOther]

/-- A list that agrees beside a file leads to the same local ids of the others. -/
theorem AgreesBeside.local?_eq {fid : Nat} {before after : Bimap}
    (hAgrees : before.AgreesBeside fid after) {other : Nat} (hOther : other ≠ fid)
    (global : Int64) : after.local? global other = before.local? global other := by
  have hLookup := congrArg (List.lookup other) (hAgrees.references_eq global)
  rwa [lookup_removeReference, lookup_removeReference, if_neg (Ne.symm hOther),
    if_neg (Ne.symm hOther)] at hLookup

theorem agreesBeside_self (fid : Nat) (map : Bimap) : map.AgreesBeside fid map :=
  ⟨fun _ _ => rfl, fun _ => rfl⟩

/-- What one operation does not touch and the next one does not touch either is untouched by
both. -/
theorem AgreesBeside.trans {fid : Nat} {first second third : Bimap}
    (hFirst : first.AgreesBeside fid second) (hSecond : second.AgreesBeside fid third) :
    first.AgreesBeside fid third where
  locals_eq other hOther := (hSecond.locals_eq other hOther).trans (hFirst.locals_eq other hOther)
  references_eq global := (hSecond.references_eq global).trans (hFirst.references_eq global)

/-- Without the file itself a list does not show that the file was put into it. -/
theorem removeReference_putReference (fid : Nat) (id : Int64) (refs : List (Nat × Int64)) :
    removeReference fid (putReference fid id refs) = removeReference fid refs := by
  induction refs with
  | nil => simp [putReference, removeReference]
  | cons reference rest ih =>
      obtain ⟨f, i⟩ := reference
      unfold removeReference at ih ⊢
      rw [putReference]
      by_cases hHead : f = fid
      · simp [hHead]
      · rw [if_neg hHead, List.filter_cons_of_pos (by simpa using hHead),
          List.filter_cons_of_pos (by simpa using hHead), ih]

theorem removeReference_idem (fid : Nat) (refs : List (Nat × Int64)) :
    removeReference fid (removeReference fid refs) = removeReference fid refs := by
  rw [removeReference, removeReference, List.filter_filter]
  simp

/-- One insertion changes no entry of another file and no order of the others, also if it
empties a list of files or makes a new one. -/
theorem agreesBeside_insert (map : Bimap) (fid : Nat) (id global : Int64) :
    map.AgreesBeside fid (map.insert fid id global) where
  locals_eq other hOther := by
    apply Std.ExtTreeMap.ext_getElem?
    intro i
    have hSame := map.global?_insert fid other id i global
    rwa [if_neg fun h => hOther h.1.symm, if_neg fun h => hOther h.1.symm] at hSame
  references_eq g := by
    rw [references_insert]
    split
    · exact removeReference_putReference fid id _
    · split
      · exact removeReference_idem fid _
      · rfl

theorem agreesBeside_enter (map : Bimap) (fid : Nat) : map.AgreesBeside fid (map.enter fid) where
  locals_eq other _ := congrFun (map.locals_enter fid) other
  references_eq _ := rfl

/-- By induction over the pairs, which are all of the same file. -/
theorem agreesBeside_insertAll (map : Bimap) (fid : Nat) (pairs : List (Int64 × Int64)) :
    map.AgreesBeside fid (map.insertAll fid pairs) := by
  induction pairs generalizing map with
  | nil => exact agreesBeside_self fid map
  | cons ids rest ih =>
      exact (map.agreesBeside_insert fid ids.1 ids.2).trans (ih (map.insert fid ids.1 ids.2))

/-- Giving a file its ids is no concern of the other files. -/
theorem agreesBeside_bring (map : Bimap) (fid : Nat) (entered : Bool)
    (pairs : List (Int64 × Int64)) : map.AgreesBeside fid (map.bring fid entered pairs) := by
  unfold Bimap.bring
  split
  · exact (map.agreesBeside_enter fid).trans ((map.enter fid).agreesBeside_insertAll fid pairs)
  · exact map.agreesBeside_insertAll fid pairs

end Bimap

namespace Linkage

/-- The file that an operation is about. -/
def Operation.fid : Operation → Nat
  | .addVar var _ => var.fid
  | .addKey key _ => key.fid
  | .addElement fid _ => fid
  | .addLinks fid _ => fid
  | .loadLinks _ fid _ => fid
  | .addFile _ file => file.fid

/-- All that is known about the other files is the same as before. The variables that a
global id lists for them are the same too, in the same order. -/
structure KeepsOthers (fid : Nat) (before after : Linkage) : Prop where
  globalVar? : ∀ var, var.fid ≠ fid → after.globalVar? var = before.globalVar? var
  localVar? : ∀ other global, other ≠ fid → after.localVar? other global = before.localVar? other global
  reference? : ∀ global other, other ≠ fid → after.reference? global other = before.reference? global other
  globalKey? : ∀ key, key.fid ≠ fid → after.globalKey? key = before.globalKey? key
  fileLinks : ∀ other, other ≠ fid → after.fileLinks other = before.fileLinks other
  references : ∀ global, (after.references global).filter (fun var => var.fid ≠ fid) =
    (before.references global).filter fun var => var.fid ≠ fid
  vidCeiling? : ∀ other, other ≠ fid → after.vidCeiling? other = before.vidCeiling? other

/-- The variables of the other files, as the map lists them. -/
theorem filter_references (m : Linkage) (fid : Nat) (global : Int64) :
    (m.references global).filter (fun var => var.fid ≠ fid) =
      (Bimap.removeReference fid (m.vids.references global)).map fun (f, vid) => ⟨f, vid⟩ := by
  rw [references, List.filter_map]
  rfl

/-- All questions about other files are answered by the two maps and the ceilings. -/
theorem keepsOthers_of_agreesBeside {fid : Nat} {before after : Linkage}
    (hSingle : after.singleFile = before.singleFile)
    (hVars : before.vids.AgreesBeside fid after.vids)
    (hKeys : before.ckeys.AgreesBeside fid after.ckeys)
    (hCeilings : ∀ other, other ≠ fid → after.vidCeiling? other = before.vidCeiling? other) :
    before.KeepsOthers fid after where
  globalVar? var hOther := by
    rw [globalVar?, globalVar?, hSingle, hVars.global?_eq hOther]
  localVar? other global hOther := by
    rw [localVar?, localVar?, hSingle, hVars.local?_eq hOther]
  reference? global other hOther := hVars.local?_eq hOther global
  globalKey? key hOther := by
    rw [globalKey?, globalKey?, hSingle, hKeys.global?_eq hOther]
  fileLinks other hOther := by
    rw [fileLinks, fileLinks, hVars.locals_eq other hOther, hKeys.locals_eq other hOther]
  references global := by
    rw [filter_references, filter_references, hVars.references_eq]
  vidCeiling? := hCeilings

/-- What an operation installs is no concern of the other files. -/
theorem agreesBeside_install (m : Linkage) (pairs : Installed) :
    m.vids.AgreesBeside pairs.fid (m.install pairs).vids ∧
      m.ckeys.AgreesBeside pairs.fid (m.install pairs).ckeys :=
  ⟨m.vids.agreesBeside_bring _ _ _, m.ckeys.agreesBeside_bring _ _ _⟩

theorem keepsOthers_install (m : Linkage) (pairs : Installed) :
    m.KeepsOthers pairs.fid (m.install pairs) := by
  obtain ⟨hVars, hKeys⟩ := m.agreesBeside_install pairs
  exact keepsOthers_of_agreesBeside rfl hVars hKeys fun _ _ => rfl

theorem fid_ofLinks? (fid : Nat) (links? : Option FileLinks) :
    (Installed.ofLinks? fid links?).fid = fid := by
  cases links? <;> rfl

/-- A file that is brought in gets its ids and its ceiling, and the others keep theirs. -/
theorem keepsOthers_bringIn (m : Linkage) (file : SourceFile) (links? : Option FileLinks) :
    m.KeepsOthers file.fid (m.bringIn file links?) := by
  obtain ⟨definitions, hEq⟩ := m.bringIn_eq file links?
  obtain ⟨hVars, hKeys⟩ := m.agreesBeside_install (.ofLinks? file.fid links?)
  rw [fid_ofLinks?] at hVars hKeys
  rw [hEq]
  refine keepsOthers_of_agreesBeside rfl hVars hKeys fun other hOther => ?_
  simp only [vidCeiling?, Std.ExtTreeMap.getElem?_insert, Std.compare_eq_iff_eq,
    Ne.symm hOther, if_false]

/-- An operation installs pairs for the file that it is about. -/
theorem fid_installs (m : Linkage) (op : Operation) : (m.installs op).fid = op.fid := by
  cases op with
  | addElement fid e => exact fid_ofLinks? fid _
  | loadLinks disk fid path => exact fid_ofLinks? fid _
  | addFile disk file => exact fid_ofLinks? file.fid _
  | _ => rfl

/-- No operation changes anything that is known about another file. -/
theorem keepsOthers_perform (m : Linkage) (op : Operation) :
    m.KeepsOthers op.fid (m.perform op) := by
  rcases m.perform_cases op with hInstall | ⟨disk, file, links?, rfl, -, hBrought⟩
  · rw [hInstall, ← m.fid_installs op]
    exact m.keepsOthers_install (m.installs op)
  · rw [hBrought]
    exact m.keepsOthers_bringIn file links?

/-! ### Definitions -/

/-- The file defines a variable or a function that has the global id. -/
def Defines (m : Linkage) (file : SourceFile) (global : Int64) : Prop :=
  ∃ vid ∈ file.vars ++ file.functions.map Prod.snd, m.globalVar? ⟨file.fid, vid⟩ = some global

instance (m : Linkage) (file : SourceFile) (global : Int64) : Decidable (m.Defines file global) :=
  inferInstanceAs (Decidable (∃ vid ∈ file.vars ++ file.functions.map Prod.snd,
    m.globalVar? ⟨file.fid, vid⟩ = some global))

theorem globalVar?_addDefinition (m : Linkage) (noted var : FileVar) :
    (m.addDefinition noted).globalVar? var = m.globalVar? var := by
  unfold addDefinition
  split <;> rfl

/-- A variable that has a global id makes its file the one that defines it. -/
theorem definition?_addDefinition (m : Linkage) (var : FileVar) (global : Int64) :
    (m.addDefinition var).definition? global =
      if m.globalVar? var = some global then some var.fid else m.definition? global := by
  unfold addDefinition
  split
  · rename_i hUnknown
    rw [hUnknown, if_neg nofun]
  · rename_i known hKnown
    simp only [definition?, hKnown, Std.ExtTreeMap.getElem?_insert, Std.compare_eq_iff_eq,
      Option.some.injEq]

/-- By induction over the variables: noting a definition changes no global id of those that
come later. -/
theorem definition?_foldl_addDefinition (m : Linkage) (fid : Nat) (ids : List Int64)
    (global : Int64) :
    (ids.foldl (fun m vid => m.addDefinition ⟨fid, vid⟩) m).definition? global =
      if ∃ vid ∈ ids, m.globalVar? ⟨fid, vid⟩ = some global then some fid
      else m.definition? global := by
  induction ids generalizing m with
  | nil => simp
  | cons vid rest ih =>
      simp only [List.foldl_cons, ih, globalVar?_addDefinition, definition?_addDefinition]
      by_cases hFirst : m.globalVar? ⟨fid, vid⟩ = some global <;> simp [hFirst]

/-- A file is noted as the one that defines the global ids of its variables and functions,
and no other ones. -/
theorem definition?_addDefinitions (m : Linkage) (file : SourceFile) (global : Int64) :
    (m.addDefinitions file).value.definition? global =
      if m.Defines file global then some file.fid else m.definition? global :=
  m.definition?_foldl_addDefinition file.fid _ global

/-- A file that is brought in defines the global ids that its variables have after its ids
were installed. -/
theorem definition?_bringIn {m : Linkage} (hFiles : m.singleFile = false) (file : SourceFile)
    (links? : Option FileLinks) (global : Int64) :
    (m.bringIn file links?).definition? global =
      if (m.bringIn file links?).Defines file global then some file.fid
      else m.definition? global := by
  obtain ⟨definitions, hMaps⟩ := m.bringIn_eq file links?
  have hDefines : (m.bringIn file links?).Defines file global ↔
      (m.install (.ofLinks? file.fid links?)).Defines file global := by
    rw [hMaps]
    rfl
  have hDefinition : (m.bringIn file links?).definition? global =
      ((m.install (.ofLinks? file.fid links?)).addDefinitions file).value.definition? global := by
    rw [bringIn_of_files hFiles]
    rfl
  rw [hDefinition, definition?_addDefinitions]
  simp only [hDefines]
  rfl

/-- What has changed when a file has been brought in: nothing that is about another file, and
in a program of a single file nothing but the ceiling. -/
structure BroughtIn (file : SourceFile) (before after : Linkage) : Prop where
  others : before.KeepsOthers file.fid after
  ceiling : after.vidCeiling? file.fid = some firstVidCeiling
  single : before.singleFile = true →
    after = { before with vidCeilings := before.vidCeilings.insert file.fid firstVidCeiling }
  defined : before.singleFile = false → ∀ global, after.Defines file global →
    after.definition? global = some file.fid
  undefined : before.singleFile = false → ∀ global, ¬ after.Defines file global →
    after.definition? global = before.definition? global

/-- This is all that bringing in a file does, if nothing is read in a program of a single
file. -/
theorem broughtIn_bringIn {m : Linkage} {file : SourceFile} {links? : Option FileLinks}
    (hNone : m.singleFile = true → links? = none) : BroughtIn file m (m.bringIn file links?) where
  others := m.keepsOthers_bringIn file links?
  ceiling := by
    obtain ⟨definitions, hMaps⟩ := m.bringIn_eq file links?
    rw [hMaps]
    exact Std.ExtTreeMap.getElem?_insert_self
  single hSingle := by
    rw [bringIn_of_single hSingle, hNone hSingle]
    rfl
  defined hFiles global hDefines := by
    rw [definition?_bringIn hFiles, if_pos hDefines]
  undefined hFiles global hDefines := by
    rw [definition?_bringIn hFiles, if_neg hDefines]

/-- A file is turned away if it is not the only one and its stored cross-references cannot be
read. -/
theorem offered_eq_error_iff {m : Linkage} {stored? : Option (Except LinkFault String)}
    {fault : LinkFault} : m.offered stored? = .error fault ↔
      m.singleFile = false ∧ ∃ stored, stored? = some stored ∧
        stored.bind FileLinks.parse = .error fault := by
  unfold offered
  cases m.singleFile <;> cases stored? <;> simp [map_eq_error_iff]

/-- Bringing in a file affects nothing that is about other files, whatever is stored for it.
If the file is turned away then nothing at all is changed. In a program of several files the
file is then known to define just the global ids of its variables and functions, and all other
global ids are defined where they were before. No other operation reaches beyond its file
either. -/
theorem addFileWith_changes_only_file (m : Linkage) (file : SourceFile)
    (stored? : Option (Except LinkFault String)) :
    (∀ fault, (m.addFileWith file stored?).value.2 = .error fault ↔
      m.singleFile = false ∧ ∃ stored, stored? = some stored ∧
        stored.bind FileLinks.parse = .error fault) ∧
    (∀ fault, (m.addFileWith file stored?).value.2 = .error fault →
      (m.addFileWith file stored?).value.1 = m) ∧
    ((m.addFileWith file stored?).value.2 = .ok () →
      BroughtIn file m (m.addFileWith file stored?).value.1) ∧
    ∀ op, m.KeepsOthers op.fid (m.perform op) := by
  cases hOffered : m.offered stored? with
  | error fault =>
      rw [addFileWith_of_error hOffered]
      refine ⟨?_, fun _ _ => rfl, nofun, m.keepsOthers_perform⟩
      intro other
      rw [← offered_eq_error_iff, hOffered, Except.error.injEq, Except.error.injEq]
  | ok links? =>
      rw [addFileWith_of_ok hOffered]
      refine ⟨?_, nofun, fun _ => ?_, m.keepsOthers_perform⟩
      · intro fault
        rw [← offered_eq_error_iff, hOffered]
        exact ⟨nofun, nofun⟩
      · refine broughtIn_bringIn fun hSingle => ?_
        unfold offered at hOffered
        rw [if_pos hSingle] at hOffered
        exact (Except.ok.inj hOffered).symm

/-- Three files share a global id. One of them is turned away when an id is missing in its
document. With another document it gets other global ids for its variable and its function. -/
theorem addFileWith_changes_only_file_among_three :
    ∃ m ops file bad good fault after,
      ops = [.addVar ⟨3, 5⟩ 20, .addVar ⟨1, 7⟩ 20, .addVar ⟨2, 6⟩ 20] ∧
      transitions.Run (new false) ops m ∧ file = ⟨1, none, "list.c", [7], [("insert", 8)]⟩ ∧
      bad = "<global-xrefs><varinfo-xrefs><vxref vid=\"7\" gvid=\"30\"/><vxref vid=\"8\"/>" ++
        "</varinfo-xrefs></global-xrefs>" ∧
      good = FileLinks.toElement ⟨∅, ((∅ : LocalMap).insert 7 30).insert 8 40⟩ ∧
      m.references 20 = [⟨2, 6⟩, ⟨1, 7⟩, ⟨3, 5⟩] ∧
      (m.addFileWith file (some (.ok bad))).value.2 = .error fault ∧
      (m.addFileWith file (some (.ok bad))).value.1 = m ∧
      (m.addFileWith file (some (.ok good.document))).value = (after, .ok ()) ∧
      after.references 20 = [⟨2, 6⟩, ⟨3, 5⟩] ∧ after.definition? 20 = none ∧
      after.definition? 30 = some 1 ∧ after.definition? 40 = some 1 ∧
      BroughtIn file m after ∧ ∀ op, m.KeepsOthers op.fid (m.perform op) := by
  have run := (((Transitions.RunWithin.refl : transitions.Run (new false) [] _).step
    (.addVar ⟨2, 6⟩ 20) trivial trivial).step
    (.addVar ⟨1, 7⟩ 20) trivial trivial).step
    (.addVar ⟨3, 5⟩ 20) trivial trivial
  obtain ⟨fault, hFault⟩ := exists_error_of_toOption (show (FileLinks.parse
    ("<global-xrefs><varinfo-xrefs><vxref vid=\"7\" gvid=\"30\"/><vxref vid=\"8\"/>" ++
      "</varinfo-xrefs></global-xrefs>")).toOption = none by decide +kernel)
  have hRejected {m : Linkage} (file : SourceFile) (hFiles : m.singleFile = false) {text : String}
      (hText : FileLinks.parse text = .error fault) :=
    ((addFileWith_changes_only_file m file _).1 fault).mpr ⟨hFiles, .ok text, rfl, hText⟩
  have hAdded {m : Linkage} (file : SourceFile) (hFiles : m.singleFile = false)
      (links : FileLinks) : (m.addFileWith file (some (.ok links.toElement.document))).value =
        (m.bringIn file (some links), .ok ()) := by
    refine addFileWith_of_ok ?_ file
    have hParse : (Except.ok links.toElement.document).bind FileLinks.parse = .ok links :=
      links.parse_document
    rw [offered, if_neg (ne_true_of_eq_false hFiles), hParse]
    rfl
  have hBrought {m : Linkage} (file : SourceFile) (hFiles : m.singleFile = false)
      (links : FileLinks) : BroughtIn file m (m.bringIn file (some links)) := by
    have hAfter := (addFileWith_changes_only_file m file
      (some (.ok links.toElement.document))).2.2.1
    rw [hAdded file hFiles links] at hAfter
    exact hAfter rfl
  exact ⟨_, _, _, _, _, fault, _, rfl, run, rfl, rfl, rfl, by decide +kernel,
    hRejected _ rfl hFault, (addFileWith_changes_only_file _ _ _).2.1 _ (hRejected _ rfl hFault),
    hAdded _ rfl _, by decide +kernel, by decide +kernel, by decide +kernel, by decide +kernel,
    hBrought _ rfl _, (addFileWith_changes_only_file _ ⟨1, none, "list.c", [7], [("insert", 8)]⟩ none).2.2.2⟩

end Linkage

end ProgramIndex
