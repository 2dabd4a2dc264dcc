import ProgramIndex.Proofs.Linkage.History
import ProgramIndex.Proofs.Linkage.Locality

/-!
The file that is noted as the one that defines a global id. It had a local id for the
global id when this was noted, but nothing takes the note back: the file may have
given that local id away since.
-/

namespace ProgramIndex

namespace Bimap

/-- The file has a local id for the global id after these pairs. -/
def Has (history : List Entry) (fid : Nat) (global : Int64) : Prop :=
  ∃ id, Prevails history ⟨fid, id, global⟩

/-- The file's local id for the global id was given another global id, and since then the
file has not been given any for the first one. -/
def Displaced (history : List Entry) (fid : Nat) (global : Int64) : Prop :=
  ∃ later entry earlier, history = later ++ entry :: earlier ∧
    entry.fid = fid ∧ entry.global ≠ global ∧ Prevails earlier ⟨fid, entry.id, global⟩ ∧
    ∀ newer ∈ later, newer.fid = fid → newer.global ≠ global

theorem has_ofHistory_iff {history : List Entry} {fid : Nat} {global : Int64} :
    Has history fid global ↔ ∃ id, (ofHistory history).local? global fid = some id := by
  simp only [Has, ← global?_ofHistory_eq_some_iff, (lockstep_ofHistory history).paired]

/-- A new pair of the file for the global id gives the file a local id for it. -/
theorem has_cons {newest : Entry} (earlier : List Entry) {fid : Nat} {global : Int64}
    (hFile : newest.fid = fid) (hGlobal : newest.global = global) :
    Has (newest :: earlier) fid global := by
  subst hFile hGlobal
  exact ⟨newest.id, prevails_cons_iff.mpr (Or.inl rfl)⟩

/-- Other pairs give the file none. -/
theorem Has.of_cons {newest : Entry} {earlier : List Entry} {fid : Nat} {global : Int64}
    (hHas : Has (newest :: earlier) fid global) (hOther : newest.fid = fid → newest.global ≠ global) :
    Has earlier fid global := by
  obtain ⟨id, hPrevails⟩ := hHas
  rcases prevails_cons_iff.mp hPrevails with rfl | ⟨-, hEarlier⟩
  · exact absurd rfl (hOther rfl)
  · exact ⟨id, hEarlier⟩

/-- The same for any number of later pairs, newest first. -/
theorem Has.of_append {later earlier : List Entry} {fid : Nat} {global : Int64}
    (hHas : Has (later ++ earlier) fid global)
    (hOther : ∀ newer ∈ later, newer.fid = fid → newer.global ≠ global) :
    Has earlier fid global := by
  induction later with
  | nil => exact hHas
  | cons newest rest ih =>
      obtain ⟨hNewest, hRest⟩ := List.forall_mem_cons.mp hOther
      exact ih (hHas.of_cons hNewest) hRest

/-- A file loses the global id only with the local id that it has for it. -/
theorem displaced_of_lost {newest : Entry} {earlier : List Entry} {fid : Nat} {global : Int64}
    (hHas : Has earlier fid global) (hLost : ¬ Has (newest :: earlier) fid global) :
    Displaced (newest :: earlier) fid global := by
  obtain ⟨id, hPrevails⟩ := hHas
  have hSuperseded : newest.Supersedes ⟨fid, id, global⟩ := by
    by_contra hKept
    exact hLost ⟨id, prevails_cons_iff.mpr (Or.inr ⟨hKept, hPrevails⟩)⟩
  rcases hSuperseded with ⟨hFile, ⟨hId, hGlobal⟩ | ⟨hGlobal, -⟩⟩
  · exact ⟨[], newest, earlier, rfl, hFile, hGlobal, hId ▸ hPrevails, nofun⟩
  · exact absurd (has_cons earlier hFile hGlobal) hLost

theorem Displaced.cons {newest : Entry} {earlier : List Entry} {fid : Nat} {global : Int64}
    (hDisplaced : Displaced earlier fid global)
    (hOther : newest.fid = fid → newest.global ≠ global) :
    Displaced (newest :: earlier) fid global := by
  obtain ⟨later, entry, before, rfl, hFile, hGlobal, hPrevails, hLater⟩ := hDisplaced
  exact ⟨newest :: later, entry, before, rfl, hFile, hGlobal, hPrevails,
    List.forall_mem_cons.mpr ⟨hOther, hLater⟩⟩

/-- A displaced file has no local id for the global id. -/
theorem Displaced.not_has {history : List Entry} {fid : Nat} {global : Int64}
    (hDisplaced : Displaced history fid global) : ¬ Has history fid global := by
  obtain ⟨later, entry, earlier, rfl, hFile, hGlobal, hPrevails, hLater⟩ := hDisplaced
  intro hHas
  obtain ⟨id, hAfter⟩ := hHas.of_append hLater
  rcases prevails_cons_iff.mp hAfter with rfl | ⟨hKept, hBefore⟩
  · exact hGlobal rfl
  · -- The file had one local id for the global id, and this is the one that was given away.
    rw [← global?_ofHistory_eq_some_iff] at hPrevails hBefore
    have hSame : entry.id = id :=
      (lockstep_ofHistory earlier).injective fid entry.id id global hPrevails hBefore
    exact hKept ⟨hFile, Or.inl ⟨hSame, hGlobal⟩⟩

/-- A file that has had a local id for the global id still has one, unless it was
displaced. -/
theorem has_iff_not_displaced {past history : List Entry} {fid : Nat} {global : Int64}
    (hPast : past <:+ history) (hHad : Has past fid global) :
    Has history fid global ↔ ¬ Displaced history fid global := by
  refine ⟨fun hHas hDisplaced => hDisplaced.not_has hHas, ?_⟩
  contrapose!
  intro hLost
  -- Going back from the newest pair: either the file lost the global id with it, or the file
  -- lacked the global id before it as well.
  induction history with
  | nil => exact absurd (List.suffix_nil.mp hPast ▸ hHad) hLost
  | cons newest earlier ih =>
      rcases List.suffix_cons_iff.mp hPast with rfl | hEarlier
      · exact absurd hHad hLost
      · by_cases hBefore : Has earlier fid global
        · exact displaced_of_lost hBefore hLost
        · exact (ih hEarlier hBefore).cons fun hFile hGlobal =>
            hLost (has_cons earlier hFile hGlobal)

/-- No local id of a file has been given two different global ids. -/
def AssignedOnce (history : List Entry) : Prop :=
  ∀ first ∈ history, ∀ second ∈ history,
    first.fid = second.fid → first.id = second.id → first.global = second.global

/-- Where no local id changes its global id no file is displaced. -/
theorem AssignedOnce.not_displaced {history : List Entry} (hOnce : AssignedOnce history)
    (fid : Nat) (global : Int64) : ¬ Displaced history fid global := by
  rintro ⟨later, entry, earlier, rfl, hFile, hGlobal, hPrevails, -⟩
  exact hGlobal (hOnce entry (List.mem_append_right later List.mem_cons_self) ⟨fid, entry.id, global⟩
    (List.mem_append_right later (List.mem_cons_of_mem entry hPrevails.mem)) hFile rfl)

end Bimap

namespace Linkage

/-- A file that is noted as the one that defines a global id has had a variable with
this global id. -/
theorem exists_had_of_definition {start m : Linkage} {ops : List Operation} (hStart : Fresh start)
    (run : transitions.Run start ops m) (hFiles : start.singleFile = false) {global : Int64}
    {fid : Nat} (hDefined : m.definition? global = some fid) :
    ∃ past, past <:+ start.history Installed.vars ops ∧ Bimap.Has past fid global := by
  induction run generalizing global fid with
  | refl => cases hStart <;> cases hDefined
  | @step earlier s prior op hFits hAllowed ih =>
      have hLater {g : Int64} {f : Nat} (hBefore : s.definition? g = some f) :
          ∃ past, past <:+ start.history Installed.vars (op :: earlier) ∧ Bimap.Has past f g := by
        obtain ⟨past, hPast, hHad⟩ := ih hBefore
        exact ⟨past, hPast.trans (List.suffix_append _ _), hHad⟩
      rcases s.perform_cases op with hInstall | ⟨disk, file, links?, -, -, hBrought⟩
      · rw [show transitions.perform s op = _ from hInstall] at hDefined
        exact hLater hDefined
      · obtain ⟨⟨hSingle, -⟩, -, -⟩ := maps_alike_ofHistory hStart prior
        obtain ⟨⟨hAfter, -⟩, hVars, -⟩ :=
          maps_alike_ofHistory hStart (prior.step op hFits hAllowed)
        rw [show transitions.perform s op = _ from hBrought] at hDefined hAfter hVars
        rw [definition?_bringIn (hSingle.trans hFiles)] at hDefined
        split at hDefined
        · -- The file is noted now, so one of its variables has the global id now.
          rename_i hDefines
          obtain ⟨vid, -, hGlobal⟩ := hDefines
          obtain rfl := Option.some.inj hDefined
          rw [globalVar?_of_files (hAfter.trans hFiles), hVars.global?_eq,
            Bimap.global?_ofHistory_eq_some_iff] at hGlobal
          exact ⟨_, List.suffix_refl _, vid, hGlobal⟩
        · exact hLater hDefined

/-- The file has a variable for the global id, as seen from both sides. -/
def Live (m : Linkage) (global : Int64) (fid : Nat) : Prop :=
  m.hasReference global fid = true ∧
    ∃ vid, m.localVar? fid global = some vid ∧ m.globalVar? ⟨fid, vid⟩ = some global

/-- In a program of several files the questions about a definition are answered by the
history. -/
theorem live_iff_has {start m : Linkage} {ops : List Operation} (hStart : Fresh start)
    (run : transitions.Run start ops m) (hFiles : m.singleFile = false) {global : Int64}
    {fid : Nat} : m.Live global fid ↔ Bimap.Has (start.history Installed.vars ops) fid global := by
  obtain ⟨-, hVars, -⟩ := maps_alike_ofHistory hStart run
  have hPaired := (maps_lockstep hStart run).1.paired
  unfold Live hasReference reference? localVar? globalVar?
  rw [hFiles, if_neg Bool.false_ne_true, Bimap.has_ofHistory_iff, Option.isSome_iff_exists]
  simp only [Bool.false_eq_true, if_false, hPaired, and_self, hVars.local?_eq]

/-- In a program of several files, the file that is noted as the one that defines a global id
has a variable for it, unless it gave this variable another global id and has not been given
the first one again. So it always has one if every local id is assigned a global id only once. -/
theorem definition_live_iff_of_run {start m : Linkage} {ops : List Operation}
    (hStart : Fresh start) (run : transitions.Run start ops m) (hFiles : m.singleFile = false)
    {global : Int64} {fid : Nat} (hDefined : m.definition? global = some fid) :
    (m.Live global fid ↔
      ¬ Bimap.Displaced (start.history Installed.vars ops) fid global) ∧
    (Bimap.AssignedOnce (start.history Installed.vars ops) → m.Live global fid) := by
  obtain ⟨⟨hSingle, -⟩, -, -⟩ := maps_alike_ofHistory hStart run
  obtain ⟨past, hPast, hHad⟩ :=
    exists_had_of_definition hStart run (hSingle.symm.trans hFiles) hDefined
  have hLive : m.Live global fid ↔
      ¬ Bimap.Displaced (start.history Installed.vars ops) fid global :=
    (live_iff_has hStart run hFiles).trans (Bimap.has_iff_not_displaced hPast hHad)
  exact ⟨hLive, fun hOnce => hLive.mpr (hOnce.not_displaced fid global)⟩

/-- The variable of a file that defines a global id is given another one. Then another variable
of the file takes its place, and the file defines the global id as before. -/
theorem definition_live_after_return :
    ∃ m ops, ops = [.addVar ⟨0, 8⟩ 42, .addVar ⟨0, 7⟩ 50,
        .addFile .empty ⟨0, none, "a", [7], []⟩, .addVar ⟨0, 7⟩ 42] ∧
      transitions.Run (new false) ops m ∧ m.singleFile = false ∧ m.definition? 42 = some 0 ∧
      m.localVar? 0 42 = some 8 ∧ m.Live 42 0 ∧
      ¬ Bimap.Displaced ((new false).history Installed.vars ops) 0 42 := by
  have run := ((((Transitions.RunWithin.refl : transitions.Run (new false) [] _).step
    (.addVar ⟨0, 7⟩ 42) trivial trivial).step
    (.addFile .empty ⟨0, none, "a", [7], []⟩) trivial trivial).step
    (.addVar ⟨0, 7⟩ 50) trivial trivial).step
    (.addVar ⟨0, 8⟩ 42) trivial trivial
  obtain ⟨hIff, -⟩ := definition_live_iff_of_run (.new false) run (by decide +kernel)
    (show definition? _ 42 = some 0 by decide +kernel)
  refine ⟨_, _, rfl, run, by decide +kernel, by decide +kernel, by decide +kernel, ?_⟩
  rw [← hIff, and_self]
  exact ⟨by decide +kernel, 8, by decide +kernel, by decide +kernel⟩

/-- A file defines a global id with a variable that is then given another one. Though the file
is brought in once more, it is still noted for the global id that none of its variables has. -/
theorem definition_outlives_variable :
    ∃ m ops, ops = [.addFile .empty ⟨0, none, "a", [7], []⟩, .addVar ⟨0, 7⟩ 50,
        .addFile .empty ⟨0, none, "a", [7], []⟩, .addVar ⟨0, 7⟩ 42] ∧
      transitions.Run (new false) ops m ∧ m.singleFile = false ∧ m.definition? 42 = some 0 ∧
      m.hasReference 42 0 = false ∧ m.localVar? 0 42 = none ∧ ¬ m.Live 42 0 := by
  have run := ((((Transitions.RunWithin.refl : transitions.Run (new false) [] _).step
    (.addVar ⟨0, 7⟩ 42) trivial trivial).step
    (.addFile .empty ⟨0, none, "a", [7], []⟩) trivial trivial).step
    (.addVar ⟨0, 7⟩ 50) trivial trivial).step
    (.addFile .empty ⟨0, none, "a", [7], []⟩) trivial trivial
  exact ⟨_, _, rfl, run, by decide +kernel, by decide +kernel, by decide +kernel,
    by decide +kernel, fun hLive => absurd hLive.1 (by decide +kernel)⟩

end Linkage

end ProgramIndex
