import ProgramIndex.Proofs.Linkage.Merge

/-!
Linkages that cannot be told apart. A file that has been given no ids may or may not
have an entry in the maps. No question depends on that, and no operation either: what
is the same for all questions stays the same for all questions, whatever comes next.
-/

namespace ProgramIndex

namespace Linkage

/-- The two linkages say the same of all files and global ids. Only the entries of
files without ids may differ. -/
structure Alike (m n : Linkage) : Prop where
  singleFile_eq : m.singleFile = n.singleFile
  settings_eq : m.settings? = n.settings?
  vids : m.vids.Alike n.vids
  ckeys : m.ckeys.Alike n.ckeys
  definitions_eq : m.definitions = n.definitions
  vidCeilings_eq : m.vidCeilings = n.vidCeilings

/-- All questions are answered alike. References are listed in the same order. -/
structure SameAnswers (m n : Linkage) : Prop where
  fileLinks : ∀ fid, m.fileLinks fid = n.fileLinks fid
  globalVar? : ∀ var, m.globalVar? var = n.globalVar? var
  localVar? : ∀ fid global, m.localVar? fid global = n.localVar? fid global
  reference? : ∀ global fid, m.reference? global fid = n.reference? global fid
  hasReference : ∀ global fid, m.hasReference global fid = n.hasReference global fid
  references : ∀ global, m.references global = n.references global
  otherReferences : ∀ var, m.otherReferences var = n.otherReferences var
  convertVar? : ∀ var target, m.convertVar? var target = n.convertVar? var target
  globalKey? : ∀ key, m.globalKey? key = n.globalKey? key
  convertKey? : ∀ key target, m.convertKey? key target = n.convertKey? key target
  definition? : ∀ global, m.definition? global = n.definition? global
  vidCeiling? : ∀ fid, m.vidCeiling? fid = n.vidCeiling? fid
  saveFile : ∀ disk file, m.saveFile disk file = n.saveFile disk file

/-- No question tells the two linkages apart, neither at once nor after any operations
that both of them go through. -/
def Indistinguishable (m n : Linkage) : Prop :=
  ∀ ops later, transitions.Run m ops later →
    ∃ other, transitions.Run n ops other ∧ later.SameAnswers other

variable {m n : Linkage}

/-- No question looks at the entry of a file without ids. -/
theorem Alike.sameAnswers (h : m.Alike n) : m.SameAnswers n := by
  have hSame : m.SameIds n :=
    sameIds_of_agrees h.singleFile_eq h.vids.agrees h.ckeys.agrees
  have hReferences : ∀ global, m.references global = n.references global := by
    intro global
    rw [references, references, h.vids.references_eq]
  exact {
    fileLinks := hSame.fileLinks
    globalVar? := hSame.globalVar?
    localVar? := hSame.localVar?
    reference? := fun global fid => h.vids.local?_eq global fid
    hasReference := hSame.hasReference
    references := hReferences
    otherReferences := by
      intro var
      simp only [otherReferences, h.singleFile_eq, h.vids.global?_eq, hReferences]
    convertVar? := hSame.convertVar?
    globalKey? := hSame.globalKey?
    convertKey? := hSame.convertKey?
    definition? := by
      intro global
      rw [definition?, definition?, h.definitions_eq]
    vidCeiling? := by
      intro fid
      rw [vidCeiling?, vidCeiling?, h.vidCeilings_eq]
    saveFile := by
      intro disk file
      simp only [saveFile, saveLinks, h.settings_eq, hSame.fileLinks] }

/-! ### Operations on both -/

theorem Alike.install (h : m.Alike n) (pairs : Installed) :
    (m.install pairs).Alike (n.install pairs) :=
  { h with vids := h.vids.bring _ _ _, ckeys := h.ckeys.bring _ _ _ }

theorem Alike.globalVar?_eq (h : m.Alike n) (var : FileVar) :
    m.globalVar? var = n.globalVar? var := by
  rw [globalVar?, globalVar?, h.singleFile_eq, h.vids.global?_eq]

/-- Which file defines a global id depends on the global ids alone. -/
theorem Alike.addDefinition (h : m.Alike n) (var : FileVar) :
    (m.addDefinition var).Alike (n.addDefinition var) := by
  unfold Linkage.addDefinition
  rw [h.globalVar?_eq]
  split
  · exact h
  · rename_i global hKnown
    exact { h with definitions_eq := by rw [h.definitions_eq] }

theorem Alike.addDefinitions (h : m.Alike n) (file : SourceFile) :
    (m.addDefinitions file).value.Alike (n.addDefinitions file).value := by
  unfold Linkage.addDefinitions
  generalize file.vars ++ file.functions.map Prod.snd = ids
  induction ids generalizing m n with
  | nil => exact h
  | cons vid rest ih => exact ih (h.addDefinition ⟨file.fid, vid⟩)

theorem Alike.withCeiling (h : m.Alike n) (fid : Nat) :
    (m.withCeiling fid).Alike (n.withCeiling fid) :=
  { h with vidCeilings_eq := congrArg (·.insert fid firstVidCeiling) h.vidCeilings_eq }

/-- A file is brought into both with the same ids and the same definitions. -/
theorem Alike.bringIn (h : m.Alike n) (file : SourceFile) (links? : Option FileLinks) :
    (m.bringIn file links?).Alike (n.bringIn file links?) := by
  have hLinked := h.install (.ofLinks? file.fid links?)
  unfold Linkage.bringIn
  rw [h.singleFile_eq]
  split
  · exact hLinked.withCeiling file.fid
  · exact (hLinked.addDefinitions file).withCeiling file.fid

/-- An operation does to one linkage what it does to the other. -/
theorem Alike.perform (h : m.Alike n) (op : Operation) : (m.perform op).Alike (n.perform op) := by
  cases op with
  | addVar var global => exact h.install (m.installs (.addVar var global))
  | addKey key global => exact h.install (m.installs (.addKey key global))
  | addElement fid e =>
      simp only [Linkage.perform, Linkage.addElement, addRead_eq]
      exact h.install _
  | addLinks fid links =>
      simp only [Linkage.perform, addLinks_eq]
      exact h.install _
  | loadLinks disk fid path =>
      simp only [Linkage.perform, Linkage.loadLinks, addRead_eq]
      exact h.install _
  | addFile disk file =>
      have hSame := offered_congr h.singleFile_eq h.settings_eq disk file
      simp only [Linkage.perform, Linkage.addFile]
      cases hOffered : n.offered (n.storedText? disk file) with
      | error fault =>
          rw [addFileWith_of_error hOffered, addFileWith_of_error (hSame.trans hOffered)]
          exact h
      | ok links? =>
          rw [addFileWith_of_ok hOffered, addFileWith_of_ok (hSame.trans hOffered)]
          exact h.bringIn file links?

/-- By induction over the run: the same operations keep the two alike. -/
theorem Alike.run (h : m.Alike n) {ops : List Operation} {later : Linkage}
    (run : transitions.Run m ops later) :
    ∃ other, transitions.Run n ops other ∧ later.Alike other := by
  induction run with
  | refl => exact ⟨n, .refl, h⟩
  | step prior op hFits hAllowed ih =>
      obtain ⟨other, run, hAlike⟩ := ih
      exact ⟨_, run.step op trivial trivial, hAlike.perform op⟩

/-- Linkages that say the same cannot be told apart. -/
theorem Alike.indistinguishable (h : m.Alike n) : m.Indistinguishable n := by
  intro ops later run
  obtain ⟨other, otherRun, hAlike⟩ := h.run run
  exact ⟨other, otherRun, hAlike.sameAnswers⟩

end Linkage

end ProgramIndex
