import ProgramIndex.Proofs.Linkage.Lockstep

/-!
The history of a linkage: all pairs of ids that a run has installed, one by one.
Both maps follow from it. A pair that was installed is there as long as no later pair
of its file has one of the two ids and not the other: the last write wins, from
either side.
-/

namespace ProgramIndex

namespace Bimap

/-- The map after some pairs of ids, newest first, have been installed in an empty one. -/
def ofHistory : List Entry → Bimap
  | [] => empty
  | entry :: earlier => (ofHistory earlier).insert entry.fid entry.id entry.global

theorem lockstep_ofHistory (history : List Entry) : (ofHistory history).Lockstep := by
  induction history with
  | nil => exact lockstep_empty
  | cons entry earlier ih => exact ih.insert entry.fid entry.id entry.global

/-- The pairs of ids that a file is given, oldest first. -/
def entries (fid : Nat) (pairs : List (Int64 × Int64)) : List Entry :=
  pairs.map fun ids => ⟨fid, ids.1, ids.2⟩

/-- Installing a list of pairs prolongs the history by them. -/
theorem insertAll_ofHistory (history : List Entry) (fid : Nat) (pairs : List (Int64 × Int64)) :
    (ofHistory history).insertAll fid pairs =
      ofHistory ((entries fid pairs).reverse ++ history) := by
  induction pairs generalizing history with
  | nil => rfl
  | cons ids rest ih =>
      rw [entries, List.map_cons, List.reverse_cons, List.append_assoc]
      exact ih (⟨fid, ids.1, ids.2⟩ :: history)

/-! ### The last write -/

/-- A newer pair of the same file that shares one id with an older one, and not the
other. -/
def Entry.Supersedes (newer older : Entry) : Prop :=
  newer.fid = older.fid ∧
    ((newer.id = older.id ∧ newer.global ≠ older.global) ∨
      (newer.global = older.global ∧ newer.id ≠ older.id))

/-- The pair was installed, and since the last time it was no other one has
superseded it. -/
def Prevails (history : List Entry) (entry : Entry) : Prop :=
  ∃ later earlier, history = later ++ entry :: earlier ∧ entry ∉ later ∧
    ∀ newer ∈ later, ¬ newer.Supersedes entry

theorem Prevails.mem {history : List Entry} {entry : Entry} (hPrevails : Prevails history entry) :
    entry ∈ history := by
  obtain ⟨later, earlier, rfl, -, -⟩ := hPrevails
  exact List.mem_append_right later List.mem_cons_self

/-- A pair prevails if it is the newest one, or if it prevailed before and the newest one
does not supersede it. -/
theorem prevails_cons_iff {newest entry : Entry} {earlier : List Entry} :
    Prevails (newest :: earlier) entry ↔
      newest = entry ∨ (¬ newest.Supersedes entry ∧ Prevails earlier entry) := by
  constructor
  · rintro ⟨later, before, hSplit, hLast, hNone⟩
    cases later with
    | nil => exact Or.inl (List.cons.inj hSplit).1
    | cons newer rest =>
        obtain ⟨rfl, rfl⟩ := List.cons.inj hSplit
        exact Or.inr ⟨hNone newest List.mem_cons_self, rest, before, rfl,
          fun hMem => hLast (List.mem_cons_of_mem newest hMem),
          fun newer hMem => hNone newer (List.mem_cons_of_mem newest hMem)⟩
  · by_cases hSame : newest = entry
    · subst hSame
      exact fun _ => ⟨[], earlier, rfl, List.not_mem_nil, nofun⟩
    · rintro (hEqual | ⟨hKept, later, before, rfl, hLast, hNone⟩)
      · exact absurd hEqual hSame
      · refine ⟨newest :: later, before, rfl, ?_, List.forall_mem_cons.mpr ⟨hKept, hNone⟩⟩
        exact fun hMem => (List.mem_cons.mp hMem).elim (fun h => hSame h.symm) hLast

/-- A map has exactly the pairs of its history that prevail. -/
theorem global?_ofHistory_eq_some_iff {history : List Entry} {fid : Nat} {id global : Int64} :
    (ofHistory history).global? fid id = some global ↔ Prevails history ⟨fid, id, global⟩ := by
  induction history with
  | nil =>
      have hNone : empty.global? fid id = none := by simp [empty, global?, locals]
      rw [ofHistory, hNone]
      constructor
      · intro hSome
        cases hSome
      · rintro ⟨later, earlier, hSplit, -, -⟩
        exact absurd hSplit.symm (List.append_ne_nil_of_right_ne_nil later (List.cons_ne_nil _ _))
  | cons newest earlier ih =>
      obtain ⟨newFid, newId, newGlobal⟩ := newest
      rw [ofHistory, (lockstep_ofHistory earlier).global?_insert_eq_some_iff, ih,
        prevails_cons_iff, Entry.mk.injEq]
      -- An older pair of the file is lost if it shares either id, and shares only one unless
      -- it is the new pair itself.
      unfold Entry.Supersedes
      by_cases hFile : newFid = fid
      · by_cases hId : newId = id <;> by_cases hGlobal : newGlobal = global <;>
          simp [hFile, hId, hGlobal]
      · simp [hFile]

end Bimap

namespace Linkage

/-! ### Histories of runs -/

theorem globalVar?_of_files {m : Linkage} (hFiles : m.singleFile = false) (var : FileVar) :
    m.globalVar? var = m.vids.global? var.fid var.vid := by
  rw [globalVar?, hFiles, if_neg Bool.false_ne_true]

/-- All pairs of ids of one kind that the operations of a run install, both newest
first. -/
def history (start : Linkage) (kind : Installed → List (Int64 × Int64)) (ops : List Operation) :
    List Bimap.Entry :=
  ops.flatMap fun op => (Bimap.entries (start.installs op).fid (kind (start.installs op))).reverse

theorem history_cons (start : Linkage) (kind : Installed → List (Int64 × Int64))
    (op : Operation) (earlier : List Operation) :
    start.history kind (op :: earlier) =
      (Bimap.entries (start.installs op).fid (kind (start.installs op))).reverse ++
        start.history kind earlier := rfl

/-- Both maps of a linkage follow from the pairs that were installed, except that a file
that was given none may have an entry. -/
theorem maps_alike_ofHistory {start m : Linkage} {ops : List Operation} (hStart : Fresh start)
    (run : transitions.Run start ops m) :
    (m.singleFile = start.singleFile ∧ m.settings? = start.settings?) ∧
      m.vids.Alike (.ofHistory (start.history Installed.vars ops)) ∧
      m.ckeys.Alike (.ofHistory (start.history Installed.keys ops)) := by
  induction run with
  | refl => cases hStart <;> exact ⟨⟨rfl, rfl⟩, .refl _, .refl _⟩
  | @step earlier s prior op hFits hAllowed ih =>
      obtain ⟨⟨hSingle, hSettings⟩, hVars, hKeys⟩ := ih
      obtain ⟨definitions, vidCeilings, hPerform⟩ := s.perform_eq op
      rw [history_cons, history_cons, ← Bimap.insertAll_ofHistory, ← Bimap.insertAll_ofHistory,
        ← installs_congr hSingle hSettings]
      show ((s.perform op).singleFile = _ ∧ (s.perform op).settings? = _) ∧
        (s.perform op).vids.Alike _ ∧ (s.perform op).ckeys.Alike _
      rw [hPerform]
      exact ⟨⟨hSingle, hSettings⟩,
        (s.vids.alike_bring _ _ _).trans (hVars.insertAll _ _),
        (s.ckeys.alike_bring _ _ _).trans (hKeys.insertAll _ _)⟩

/-- One operation installs its pairs in ascending order of the local ids. -/
def Installed.Ascending (pairs : Installed) : Prop :=
  (pairs.keys.map Prod.fst).Pairwise (· < ·) ∧ (pairs.vars.map Prod.fst).Pairwise (· < ·)

theorem pairwise_toList (ids : LocalMap) : (ids.toList.map Prod.fst).Pairwise (· < ·) := by
  rw [Std.ExtTreeMap.map_fst_toList_eq_keys]
  exact Std.ExtTreeMap.ordered_keys.imp Std.compare_eq_lt.mp

/-- Whatever an operation reads, it installs what it has read in ascending order. -/
theorem ascending_installs (m : Linkage) (op : Operation) : (m.installs op).Ascending := by
  have hLinks : ∀ fid links, (Installed.ofLinks fid links).Ascending := fun _ links =>
    ⟨pairwise_toList links.ckeys, pairwise_toList links.vids⟩
  have hRead : ∀ fid links?, (Installed.ofLinks? fid links?).Ascending := by
    intro fid links?
    cases links? with
    | none => exact ⟨.nil, .nil⟩
    | some links => exact hLinks fid links
  cases op with
  | addVar var global => exact ⟨.nil, List.pairwise_singleton _ _⟩
  | addKey key global => exact ⟨List.pairwise_singleton _ _, .nil⟩
  | addElement fid e => exact hRead fid _
  | addLinks fid links => exact hLinks fid links
  | loadLinks disk fid path => exact hRead fid _
  | addFile disk file => exact hRead file.fid _

/-- In a program of several files a local id has a global id exactly if this pair was
installed and prevails, whichever operations installed it and what came later. An
operation that installs several pairs takes them in ascending order of the local ids. -/
theorem globals_prevail_of_run {start m : Linkage} {ops : List Operation} (hStart : Fresh start)
    (run : transitions.Run start ops m) (hFiles : m.singleFile = false) :
    (∀ f v g, m.globalVar? ⟨f, v⟩ = some g ↔
      Bimap.Prevails (start.history Installed.vars ops) ⟨f, v, g⟩) ∧
    (∀ f k g, m.globalKey? ⟨f, k⟩ = some g ↔
      Bimap.Prevails (start.history Installed.keys ops) ⟨f, k, g⟩) ∧
    ∀ op, (start.installs op).Ascending := by
  obtain ⟨-, hVars, hKeys⟩ := maps_alike_ofHistory hStart run
  refine ⟨?_, ?_, start.ascending_installs⟩
  · intro f v g
    rw [globalVar?_of_files hFiles, hVars.global?_eq]
    exact Bimap.global?_ofHistory_eq_some_iff
  · intro f k g
    rw [globalKey?, hFiles, if_neg Bool.false_ne_true, hKeys.global?_eq]
    exact Bimap.global?_ofHistory_eq_some_iff

/-- A variable loses its global id to another one of its file and gets it back when that
one has moved on. Another file brings two variables for the same global id, of which the
second prevails. -/
theorem globals_prevail_after_eviction :
    ∃ m ops, ops = [.addLinks 2 ⟨(∅ : LocalMap).insert 6 1, ((∅ : LocalMap).insert 3 20).insert 4 20⟩,
        .addVar ⟨1, 7⟩ 20, .addVar ⟨1, 8⟩ 30, .addVar ⟨1, 8⟩ 20, .addVar ⟨1, 7⟩ 20] ∧
      transitions.Run (new false) ops m ∧ m.singleFile = false ∧
      (new false).history Installed.vars ops =
        [⟨2, 4, 20⟩, ⟨2, 3, 20⟩, ⟨1, 7, 20⟩, ⟨1, 8, 30⟩, ⟨1, 8, 20⟩, ⟨1, 7, 20⟩] ∧
      m.globalVar? ⟨1, 7⟩ = some 20 ∧ m.globalVar? ⟨1, 8⟩ = some 30 ∧
      m.globalVar? ⟨2, 3⟩ = none ∧ m.globalVar? ⟨2, 4⟩ = some 20 ∧
      (∀ f v g, m.globalVar? ⟨f, v⟩ = some g ↔
        Bimap.Prevails ((new false).history Installed.vars ops) ⟨f, v, g⟩) ∧
      (∀ f k g, m.globalKey? ⟨f, k⟩ = some g ↔
        Bimap.Prevails ((new false).history Installed.keys ops) ⟨f, k, g⟩) ∧
      ∀ op, ((new false).installs op).Ascending := by
  have run := (((((Transitions.RunWithin.refl : transitions.Run (new false) [] _).step
    (.addVar ⟨1, 7⟩ 20) trivial trivial).step
    (.addVar ⟨1, 8⟩ 20) trivial trivial).step
    (.addVar ⟨1, 8⟩ 30) trivial trivial).step
    (.addVar ⟨1, 7⟩ 20) trivial trivial).step
    (.addLinks 2 ⟨(∅ : LocalMap).insert 6 1, ((∅ : LocalMap).insert 3 20).insert 4 20⟩)
      trivial trivial
  exact ⟨_, _, rfl, run, rfl, by decide +kernel, by decide +kernel, by decide +kernel,
    by decide +kernel, by decide +kernel, globals_prevail_of_run (.new false) run rfl⟩

end Linkage

end ProgramIndex
