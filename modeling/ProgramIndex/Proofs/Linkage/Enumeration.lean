import ProgramIndex.Proofs.Linkage.History
import ProgramIndex.Proofs.Linkage.Merge

/-!
The files that a global id lists. They stand in the order in which they got a local
id that they have not lost since: a file that changes its local id keeps its place, and
one that loses the global id and gets it back comes last.
-/

namespace ProgramIndex

namespace Bimap

/-- The files that have a local id for a global id, as they are listed. -/
def files (map : Bimap) (global : Int64) : List Nat :=
  (map.references global).map Prod.fst

/-- A global id lists the files that have a local id for it. -/
theorem mem_files_iff {map : Bimap} {global : Int64} {fid : Nat} :
    fid ∈ map.files global ↔ map.local? global fid ≠ none := by
  rw [files, local?, ne_eq, List.lookup_eq_none_iff, List.mem_map]
  constructor
  · rintro ⟨reference, hMem, rfl⟩ hNone
    exact bne_iff_ne.mp (hNone reference hMem) rfl
  · intro hSome
    by_contra hOut
    exact hSome fun reference hMem => bne_iff_ne.mpr fun hSame => hOut ⟨reference, hMem, hSame.symm⟩

/-- A new pair of ids takes files out of a list, or else adds its own file at the end. -/
theorem files_insert_cases (map : Bimap) (fid : Nat) (id global g : Int64) :
    ((map.insert fid id global).files g).Sublist (map.files g) ∨
      (fid ∉ map.files g ∧ (map.insert fid id global).files g = map.files g ++ [fid]) := by
  rw [files, references_insert]
  by_cases hGlobal : global = g
  · rw [if_pos hGlobal, map_fst_putReference]
    split
    · exact Or.inl (.refl _)
    · rename_i hNew
      exact Or.inr ⟨hNew, rfl⟩
  · rw [if_neg hGlobal]
    split
    · exact Or.inl (List.filter_sublist.map Prod.fst)
    · exact Or.inl (.refl _)

/-- The file got a local id for the global id with the pair that came after the first
`moment` ones, and has had one ever since, though perhaps not the same one. -/
def HeldSince (history : List Entry) (global : Int64) (fid moment : Nat) : Prop :=
  moment < history.length ∧
    (∃ earlier, earlier <:+ history ∧ earlier.length = moment ∧
      (ofHistory earlier).local? global fid = none) ∧
    ∀ past, past <:+ history → moment < past.length → (ofHistory past).local? global fid ≠ none

/-- Files in the order of the moments since which they have had a local id for the
global id. -/
structure InOrder (history : List Entry) (global : Int64) (files : List Nat) : Prop where
  held : ∀ fid ∈ files, ∃ moment, HeldSince history global fid moment
  ascending : files.Pairwise fun first second => ∀ i j,
    HeldSince history global first i → HeldSince history global second j → i < j

/-- With one more pair a file that has the local id since a moment either got it with this
pair or had it since the same moment before. -/
theorem heldSince_cons_iff {newest : Entry} {earlier : List Entry} {global : Int64}
    {fid moment : Nat} :
    HeldSince (newest :: earlier) global fid moment ↔
      (ofHistory (newest :: earlier)).local? global fid ≠ none ∧
        ((moment = earlier.length ∧ (ofHistory earlier).local? global fid = none) ∨
          HeldSince earlier global fid moment) := by
  constructor
  · rintro ⟨hMoment, ⟨before, hBefore, hLength, hNone⟩, hHeld⟩
    refine ⟨hHeld _ (List.suffix_refl _) hMoment, ?_⟩
    rcases List.suffix_cons_iff.mp hBefore with rfl | hEarlier
    · omega
    · by_cases hNow : moment = earlier.length
      · left
        rw [hEarlier.eq_of_length (hLength.trans hNow)] at hNone
        exact ⟨hNow, hNone⟩
      · have hLess : moment < earlier.length := by
          rw [List.length_cons] at hMoment
          omega
        exact Or.inr ⟨hLess, ⟨before, hEarlier, hLength, hNone⟩,
          fun past hPast => hHeld past (hPast.trans (List.suffix_cons _ _))⟩
  · rintro ⟨hNow, ⟨rfl, hNone⟩ | ⟨hMoment, ⟨before, hBefore, hLength, hNone⟩, hHeld⟩⟩
    · refine ⟨by simp, ⟨earlier, List.suffix_cons _ _, rfl, hNone⟩, ?_⟩
      intro past hPast hLonger
      rcases List.suffix_cons_iff.mp hPast with rfl | hEarlier
      · exact hNow
      · exact absurd hEarlier.length_le (Nat.not_le.mpr hLonger)
    · refine ⟨by simp; omega, ⟨before, hBefore.trans (List.suffix_cons _ _), hLength, hNone⟩, ?_⟩
      intro past hPast hLonger
      rcases List.suffix_cons_iff.mp hPast with rfl | hEarlier
      · exact hNow
      · exact hHeld past hEarlier hLonger

theorem HeldSince.now {history : List Entry} {global : Int64} {fid moment : Nat}
    (hHeld : HeldSince history global fid moment) :
    (ofHistory history).local? global fid ≠ none :=
  hHeld.2.2 history (List.suffix_refl _) hHeld.1

theorem HeldSince.lt_length {history : List Entry} {global : Int64} {fid moment : Nat}
    (hHeld : HeldSince history global fid moment) : moment < history.length :=
  hHeld.1

/-- A file that was in the list before has been there since the same moment as before. -/
theorem HeldSince.of_cons {newest : Entry} {earlier : List Entry} {global : Int64}
    {fid moment : Nat} (hHeld : HeldSince (newest :: earlier) global fid moment)
    (hBefore : (ofHistory earlier).local? global fid ≠ none) :
    HeldSince earlier global fid moment := by
  rcases (heldSince_cons_iff.mp hHeld).2 with ⟨-, hNone⟩ | hEarlier
  · exact absurd hNone hBefore
  · exact hEarlier

/-- The files that stay in the list stay in order. -/
theorem InOrder.stay {newest : Entry} {earlier : List Entry} {global : Int64}
    {files kept : List Nat} (hOrder : InOrder earlier global files) (hKept : kept.Sublist files)
    (hNow : ∀ fid ∈ kept, (ofHistory (newest :: earlier)).local? global fid ≠ none) :
    InOrder (newest :: earlier) global kept where
  held fid hMem := by
    obtain ⟨moment, hMoment⟩ := hOrder.held fid (hKept.subset hMem)
    exact ⟨moment, heldSince_cons_iff.mpr ⟨hNow fid hMem, Or.inr hMoment⟩⟩
  ascending := by
    have hBefore : ∀ fid ∈ files, (ofHistory earlier).local? global fid ≠ none := by
      intro fid hMem
      obtain ⟨moment, hMoment⟩ := hOrder.held fid hMem
      exact hMoment.now
    refine (hOrder.ascending.imp_of_mem ?_).sublist hKept
    intro first second hFirst hSecond hLess i j hi hj
    exact hLess i j (hi.of_cons (hBefore first hFirst)) (hj.of_cons (hBefore second hSecond))

/-- A file that got its local id with the last pair of all comes last. -/
theorem InOrder.snoc {newest : Entry} {earlier : List Entry} {global : Int64} {files : List Nat}
    {last : Nat} (hOrder : InOrder (newest :: earlier) global files)
    (hBefore : ∀ fid ∈ files, (ofHistory earlier).local? global fid ≠ none)
    (hLacked : (ofHistory earlier).local? global last = none)
    (hNow : (ofHistory (newest :: earlier)).local? global last ≠ none) :
    InOrder (newest :: earlier) global (files ++ [last]) where
  held := by
    intro fid hMem
    rcases List.mem_append.mp hMem with hOld | hLast
    · exact hOrder.held fid hOld
    · rw [List.mem_singleton.mp hLast]
      exact ⟨earlier.length, heldSince_cons_iff.mpr ⟨hNow, Or.inl ⟨rfl, hLacked⟩⟩⟩
  ascending := by
    refine List.pairwise_append.mpr ⟨hOrder.ascending, List.pairwise_singleton _ _, ?_⟩
    intro fid hFile other hLast i j hi hj
    rw [List.mem_singleton.mp hLast] at hj
    rcases (heldSince_cons_iff.mp hj).2 with ⟨rfl, -⟩ | hEarlier
    · exact (hi.of_cons (hBefore fid hFile)).lt_length
    · exact absurd hLacked hEarlier.now

/-- The files of a global id are listed in order, whatever has been overwritten. -/
theorem inOrder_files (history : List Entry) (global : Int64) :
    InOrder history global ((ofHistory history).files global) := by
  induction history with
  | nil =>
      have hNone : (ofHistory []).files global = [] := by simp [ofHistory, empty, files, references]
      rw [hNone]
      exact ⟨fun _ hMem => absurd hMem List.not_mem_nil, .nil⟩
  | cons newest earlier ih =>
      have hNow : ∀ fid ∈ (ofHistory (newest :: earlier)).files global,
          (ofHistory (newest :: earlier)).local? global fid ≠ none := fun _ => mem_files_iff.mp
      rcases files_insert_cases (ofHistory earlier) newest.fid newest.id newest.global global with
        hSublist | ⟨hNew, hAppend⟩
      · exact ih.stay hSublist hNow
      · have hFiles : (ofHistory (newest :: earlier)).files global =
            (ofHistory earlier).files global ++ [newest.fid] := hAppend
        have hLacked : (ofHistory earlier).local? global newest.fid = none :=
          Classical.not_not.mp (mt mem_files_iff.mpr hNew)
        rw [hFiles] at hNow ⊢
        refine (ih.stay (.refl _) fun fid hMem => hNow fid (List.mem_append_left _ hMem)).snoc
          (fun _ => mem_files_iff.mp) hLacked ?_
        exact hNow newest.fid (List.mem_append_right _ List.mem_cons_self)

end Bimap

namespace Linkage

/-! ### Questions in a program of several files -/

theorem map_fid_references (m : Linkage) (global : Int64) :
    (m.references global).map FileVar.fid = m.vids.files global := by
  rw [references, List.map_map]
  rfl

/-- A variable is listed exactly if it has the global id. -/
theorem mem_references_iff {m : Linkage} (hLockstep : m.vids.Lockstep)
    (hFiles : m.singleFile = false) {global : Int64} {var : FileVar} :
    var ∈ m.references global ↔ m.globalVar? var = some global := by
  rw [globalVar?_of_files hFiles, ← hLockstep.mem_references_iff, references, List.mem_map]
  constructor
  · rintro ⟨reference, hReference, rfl⟩
    exact hReference
  · exact fun hReference => ⟨(var.fid, var.vid), hReference, rfl⟩

theorem otherReferences_of_none {m : Linkage} (hFiles : m.singleFile = false) {var : FileVar}
    (hUnknown : m.globalVar? var = none) : m.otherReferences var = [] := by
  rw [globalVar?_of_files hFiles] at hUnknown
  rw [otherReferences, hFiles, if_neg Bool.false_ne_true, hUnknown]

theorem otherReferences_of_some {m : Linkage} (hFiles : m.singleFile = false) {var : FileVar}
    {global : Int64} (hKnown : m.globalVar? var = some global) :
    m.otherReferences var = (m.references global).filter fun other => other.fid ≠ var.fid := by
  rw [globalVar?_of_files hFiles] at hKnown
  rw [otherReferences, hFiles, if_neg Bool.false_ne_true, hKnown]

/-- The variables of other files that denote the same thing are the results of a
conversion. -/
theorem mem_otherReferences_iff {m : Linkage} (hLockstep : m.vids.Lockstep)
    (hFiles : m.singleFile = false) {var other : FileVar} :
    other ∈ m.otherReferences var ↔
      other.fid ≠ var.fid ∧ m.convertVar? var other.fid = some other.vid := by
  by_cases hOther : other.fid = var.fid
  · cases hGlobal : m.globalVar? var with
    | none => simp [otherReferences_of_none hFiles hGlobal, hOther]
    | some global => simp [otherReferences_of_some hFiles hGlobal, hOther]
  · rw [convertVar?, if_neg (Ne.symm hOther)]
    cases hGlobal : m.globalVar? var with
    | none => simp [otherReferences_of_none hFiles hGlobal]
    | some global =>
        rw [otherReferences_of_some hFiles hGlobal, List.mem_filter,
          mem_references_iff hLockstep hFiles, globalVar?_of_files hFiles, hLockstep.paired]
        simp [hOther]

/-- In a program of several files, the variables listed for a global id are those that have
it, one for each file, and their files are in the order of the moments since which they have
had a variable with this global id. A variable that is unknown denotes nothing in other
files; the others denote what their global id lists for other files, and these are
just the variables that they can be converted into. -/
theorem references_inOrder_of_run {start m : Linkage} {ops : List Operation} (hStart : Fresh start)
    (run : transitions.Run start ops m) (hFiles : m.singleFile = false) :
    (∀ g var, var ∈ m.references g ↔ m.globalVar? var = some g) ∧
    (∀ g, ((m.references g).map FileVar.fid).Nodup) ∧
    (∀ g, Bimap.InOrder (start.history Installed.vars ops) g
      ((m.references g).map FileVar.fid)) ∧
    (∀ var, m.globalVar? var = none → m.otherReferences var = []) ∧
    (∀ var g, m.globalVar? var = some g →
      m.otherReferences var = (m.references g).filter fun other => other.fid ≠ var.fid) ∧
    (∀ var other, other ∈ m.otherReferences var ↔
      other.fid ≠ var.fid ∧ m.convertVar? var other.fid = some other.vid) := by
  obtain ⟨-, hVars, -⟩ := maps_alike_ofHistory hStart run
  have hLockstep : m.vids.Lockstep := (maps_lockstep hStart run).1
  refine ⟨fun _ _ => mem_references_iff hLockstep hFiles, ?_, ?_,
    fun _ => otherReferences_of_none hFiles, fun _ _ => otherReferences_of_some hFiles,
    fun _ _ => mem_otherReferences_iff hLockstep hFiles⟩
  · intro g
    rw [map_fid_references]
    exact hLockstep.listed_once g
  · intro g
    rw [map_fid_references, Bimap.files, hVars.references_eq]
    exact Bimap.inOrder_files _ g

/-- The first of three files gives the global id to another of its variables and keeps its
place. The second one gives it up and takes it back, which puts it last. -/
theorem references_inOrder_after_return :
    ∃ m ops, ops = [.addVar ⟨2, 6⟩ 20, .addVar ⟨2, 6⟩ 30, .addVar ⟨1, 8⟩ 20, .addVar ⟨3, 5⟩ 20,
        .addVar ⟨2, 6⟩ 20, .addVar ⟨1, 7⟩ 20] ∧
      transitions.Run (new false) ops m ∧ m.singleFile = false ∧
      m.references 20 = [⟨1, 8⟩, ⟨3, 5⟩, ⟨2, 6⟩] ∧ m.otherReferences ⟨3, 5⟩ = [⟨1, 8⟩, ⟨2, 6⟩] ∧
      m.globalVar? ⟨1, 7⟩ = none ∧
      (∀ g var, var ∈ m.references g ↔ m.globalVar? var = some g) ∧
      (∀ g, ((m.references g).map FileVar.fid).Nodup) ∧
      (∀ g, Bimap.InOrder ((new false).history Installed.vars ops) g
        ((m.references g).map FileVar.fid)) ∧
      (∀ var, m.globalVar? var = none → m.otherReferences var = []) ∧
      (∀ var g, m.globalVar? var = some g →
        m.otherReferences var = (m.references g).filter fun other => other.fid ≠ var.fid) ∧
      (∀ var other, other ∈ m.otherReferences var ↔
        other.fid ≠ var.fid ∧ m.convertVar? var other.fid = some other.vid) := by
  have run := ((((((Transitions.RunWithin.refl : transitions.Run (new false) [] _).step
    (.addVar ⟨1, 7⟩ 20) trivial trivial).step
    (.addVar ⟨2, 6⟩ 20) trivial trivial).step
    (.addVar ⟨3, 5⟩ 20) trivial trivial).step
    (.addVar ⟨1, 8⟩ 20) trivial trivial).step
    (.addVar ⟨2, 6⟩ 30) trivial trivial).step
    (.addVar ⟨2, 6⟩ 20) trivial trivial
  exact ⟨_, _, rfl, run, rfl, by decide +kernel, by decide +kernel, by decide +kernel,
    references_inOrder_of_run (.new false) run rfl⟩

end Linkage

end ProgramIndex
