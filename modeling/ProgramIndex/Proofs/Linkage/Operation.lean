import ProgramIndex.Linkage.Basic
import ProgramIndex.Proofs.Attempts
import ProgramIndex.Proofs.Run

/-!
The operations that can change what is known about the files of a program. Each of
them installs pairs of ids for one file, and one of them also notes what the file
defines. What is read is read before anything is installed, so that an operation that
fails has installed nothing.
-/

namespace ProgramIndex

namespace Bimap

/-- A pair of ids that a file is given. -/
structure Entry where
  fid : Nat
  id : Int64
  global : Int64
  deriving DecidableEq, Repr

/-- Give a file the pairs of ids in a list, one after the other. -/
def insertAll (map : Bimap) (fid : Nat) (pairs : List (Int64 × Int64)) : Bimap :=
  pairs.foldl (fun map ids => map.insert fid ids.1 ids.2) map

/-- Give a file the pairs of ids in a list. If the file is entered first, it has a place
in the map also without any pairs. -/
def bring (map : Bimap) (fid : Nat) (entered : Bool) (pairs : List (Int64 × Int64)) : Bimap :=
  (if entered then map.enter fid else map).insertAll fid pairs

end Bimap

namespace Noted

/-- The notices of a loop do not matter to its value. -/
theorem value_foldlM {α β : Type} (step : β → α → Noted β) (start : β) (xs : List α) :
    (xs.foldlM step start).value = xs.foldl (fun b a => (step b a).value) start := by
  induction xs generalizing start with
  | nil => rfl
  | cons x rest ih => rw [List.foldlM_cons, value_bind, ih, List.foldl_cons]

end Noted

namespace Linkage

/-- The uses of a linkage that can change it. -/
inductive Operation where
  | addVar (var : FileVar) (global : Int64)
  | addKey (key : FileKey) (global : Int64)
  | addElement (fid : Nat) (e : Element)
  | addLinks (fid : Nat) (links : FileLinks)
  | loadLinks (disk : Disk) (fid : Nat) (path : String)
  | addFile (disk : Disk) (file : SourceFile)

/-- The linkage after an operation, whether it succeeds or fails. -/
def perform (m : Linkage) : Operation → Linkage
  | .addVar var global => (m.addVar var global).value
  | .addKey key global => (m.addKey key global).value
  | .addElement fid e => (m.addElement fid e).value.1
  | .addLinks fid links => (m.addLinks fid links).value
  | .loadLinks disk fid path => (m.loadLinks disk fid path).value.1
  | .addFile disk file => (m.addFile disk file).value.1

/-- Every operation has a result, whatever is stored on the disk. -/
def transitions : Transitions Linkage Operation :=
  ⟨perform, fun _ _ => True⟩

/-- Nothing is known yet of the files of the program. -/
inductive Fresh : Linkage → Prop where
  | new (singleFile : Bool) : Fresh (new singleFile)
  | ofSettings (settings : Settings) : Fresh (ofSettings settings)

theorem addKeys_eq (m : Linkage) (fid : Nat) (pairs : List (Int64 × Int64)) :
    pairs.foldl (fun m ids => (m.addKey ⟨fid, ids.1⟩ ids.2).value) m =
      { m with ckeys := m.ckeys.insertAll fid pairs } := by
  induction pairs generalizing m with
  | nil => rfl
  | cons ids rest ih => exact ih _

theorem addVars_eq (m : Linkage) (fid : Nat) (pairs : List (Int64 × Int64)) :
    pairs.foldl (fun m ids => (m.addVar ⟨fid, ids.1⟩ ids.2).value) m =
      { m with vids := m.vids.insertAll fid pairs } := by
  induction pairs generalizing m with
  | nil => rfl
  | cons ids rest ih => exact ih _

/-! ### What an operation installs -/

/-- The pairs of ids that one operation gives to one file, of struct keys and of
variables, each in the order in which they are installed. A file that is given all its
cross-references at once is entered in both maps before. -/
structure Installed where
  fid : Nat
  entered : Bool
  keys : List (Int64 × Int64)
  vars : List (Int64 × Int64)

def Installed.ofLinks (fid : Nat) (links : FileLinks) : Installed :=
  ⟨fid, true, links.ckeys.toList, links.vids.toList⟩

/-- Nothing is installed if there are no cross-references, or none that can be read. -/
def Installed.ofLinks? (fid : Nat) : Option FileLinks → Installed
  | some links => .ofLinks fid links
  | none => ⟨fid, false, [], []⟩

/-- The linkage with some more pairs of ids. -/
def install (m : Linkage) (pairs : Installed) : Linkage :=
  { m with
    ckeys := m.ckeys.bring pairs.fid pairs.entered pairs.keys
    vids := m.vids.bring pairs.fid pairs.entered pairs.vars }

/-- The cross-references that a file comes with, if it has any, given the text at their
path. In a program of a single file they are not looked at. -/
def offered (m : Linkage) (stored? : Option (Except LinkFault String)) :
    Except LinkFault (Option FileLinks) :=
  if m.singleFile then .ok none
  else
    match stored? with
    | none => .ok none
    | some stored => (stored.bind FileLinks.parse).map some

/-- What an operation installs. It depends on what is read, but not on what has been
installed before. -/
def installs (m : Linkage) : Operation → Installed
  | .addVar var global => ⟨var.fid, false, [], [(var.vid, global)]⟩
  | .addKey key global => ⟨key.fid, false, [(key.ckey, global)], []⟩
  | .addElement fid e => .ofLinks? fid (FileLinks.ofElement e).toOption
  | .addLinks fid links => .ofLinks fid links
  | .loadLinks disk fid path => .ofLinks? fid (FileLinks.load disk path).toOption
  | .addFile disk file => .ofLinks? file.fid (m.offered (m.storedText? disk file)).toOption.join

/-- What a file comes with depends on where its cross-references are looked for. -/
theorem offered_congr {m n : Linkage} (hSingle : m.singleFile = n.singleFile)
    (hSettings : m.settings? = n.settings?) (disk : Disk) (file : SourceFile) :
    m.offered (m.storedText? disk file) = n.offered (n.storedText? disk file) := by
  simp only [offered, storedText?, hSingle, hSettings]

/-- What an operation installs depends on nothing that a run changes. -/
theorem installs_congr {m n : Linkage} (hSingle : m.singleFile = n.singleFile)
    (hSettings : m.settings? = n.settings?) (op : Operation) : m.installs op = n.installs op := by
  cases op with
  | addFile disk file => rw [installs, installs, offered_congr hSingle hSettings]
  | _ => rfl

/-- Giving a file its ids changes nothing but the two maps. -/
theorem addLinks_eq (m : Linkage) (fid : Nat) (links : FileLinks) :
    (m.addLinks fid links).value = m.install (.ofLinks fid links) := by
  rw [addLinks, Noted.value_bind, Noted.value_foldlM, Noted.value_foldlM, addKeys_eq, addVars_eq]
  rfl

/-- Cross-references that could be read are installed, and if they could not be read
then nothing is. -/
theorem addRead_eq (m : Linkage) (fid : Nat) (links? : Except LinkFault FileLinks) :
    (m.addRead fid links?).value =
      (m.install (.ofLinks? fid links?.toOption), links?.map fun _ => ()) := by
  cases links? with
  | error fault => rfl
  | ok links => exact congrArg (·, Except.ok ()) (m.addLinks_eq fid links)

/-! ### Bringing in a file -/

/-- Bring in a file with the cross-references that could be read for it, if it has any:
give it its ids and note what it defines. -/
def bringIn (m : Linkage) (file : SourceFile) (links? : Option FileLinks) : Linkage :=
  let linked := m.install (.ofLinks? file.fid links?)
  (if m.singleFile then linked else (linked.addDefinitions file).value).withCeiling file.fid

/-- A file whose cross-references cannot be read changes nothing. -/
theorem addFileWith_of_error {m : Linkage} {stored? : Option (Except LinkFault String)}
    {fault : LinkFault} (hOffered : m.offered stored? = .error fault) (file : SourceFile) :
    (m.addFileWith file stored?).value = (m, .error fault) := by
  unfold offered at hOffered
  unfold addFileWith
  cases hSingle : m.singleFile with
  | true =>
      rw [hSingle] at hOffered
      cases hOffered
  | false =>
      rw [hSingle] at hOffered
      cases stored? with
      | none => cases hOffered
      | some stored =>
          have hRead : stored.bind FileLinks.parse = .error fault :=
            map_eq_error_iff.mp hOffered
          simp only [Bool.false_eq_true, if_false, Noted.value_bind, addRead_eq, hRead]
          rfl

/-- All cross-references of a file are read before anything is changed. -/
theorem addFileWith_of_ok {m : Linkage} {stored? : Option (Except LinkFault String)}
    {links? : Option FileLinks} (hOffered : m.offered stored? = .ok links?) (file : SourceFile) :
    (m.addFileWith file stored?).value = (m.bringIn file links?, .ok ()) := by
  unfold offered at hOffered
  unfold addFileWith bringIn
  cases hSingle : m.singleFile with
  | true =>
      rw [hSingle] at hOffered
      obtain rfl := Except.ok.inj hOffered
      rfl
  | false =>
      rw [hSingle] at hOffered
      cases stored? with
      | none =>
          obtain rfl := Except.ok.inj hOffered
          rfl
      | some stored =>
          obtain ⟨links, hRead, rfl⟩ := map_eq_ok_iff.mp hOffered
          simp only [Bool.false_eq_true, if_false, Noted.value_bind, addRead_eq, hRead]
          rfl

/-- Noting what a file defines changes the definitions and nothing else. -/
theorem addDefinitions_eq (m : Linkage) (file : SourceFile) :
    ∃ definitions, (m.addDefinitions file).value = { m with definitions := definitions } := by
  unfold addDefinitions
  generalize file.vars ++ file.functions.map Prod.snd = ids
  induction ids generalizing m with
  | nil => exact ⟨m.definitions, rfl⟩
  | cons vid rest ih =>
      obtain ⟨definitions, hRest⟩ := ih (m.addDefinition ⟨file.fid, vid⟩)
      refine ⟨definitions, hRest.trans ?_⟩
      unfold addDefinition
      split <;> rfl

theorem bringIn_of_single {m : Linkage} (hSingle : m.singleFile = true) (file : SourceFile)
    (links? : Option FileLinks) :
    m.bringIn file links? = (m.install (.ofLinks? file.fid links?)).withCeiling file.fid := by
  simp only [bringIn, if_pos hSingle]

theorem bringIn_of_files {m : Linkage} (hFiles : m.singleFile = false) (file : SourceFile)
    (links? : Option FileLinks) :
    m.bringIn file links? =
      ((m.install (.ofLinks? file.fid links?)).addDefinitions file).value.withCeiling file.fid := by
  simp only [bringIn, hFiles, Bool.false_eq_true, if_false]

/-- A file that is brought in changes the ids like an installation. -/
theorem bringIn_eq (m : Linkage) (file : SourceFile) (links? : Option FileLinks) :
    ∃ definitions, m.bringIn file links? =
      { m.install (.ofLinks? file.fid links?) with
        definitions := definitions
        vidCeilings := m.vidCeilings.insert file.fid firstVidCeiling } := by
  cases hFiles : m.singleFile with
  | true => exact ⟨m.definitions, bringIn_of_single hFiles file links?⟩
  | false =>
      obtain ⟨definitions, hDefined⟩ :=
        (m.install (.ofLinks? file.fid links?)).addDefinitions_eq file
      exact ⟨definitions, by rw [bringIn_of_files hFiles, hDefined]; rfl⟩

/-- An operation installs pairs of ids and does nothing else, unless it brings in a
file. -/
theorem perform_cases (m : Linkage) (op : Operation) :
    m.perform op = m.install (m.installs op) ∨
      ∃ disk file links?, op = .addFile disk file ∧
        m.offered (m.storedText? disk file) = .ok links? ∧
        m.perform op = m.bringIn file links? := by
  cases op with
  | addVar var global => exact Or.inl rfl
  | addKey key global => exact Or.inl rfl
  | addElement fid e =>
      exact Or.inl (congrArg Prod.fst (m.addRead_eq fid (FileLinks.ofElement e)))
  | addLinks fid links => exact Or.inl (m.addLinks_eq fid links)
  | loadLinks disk fid path =>
      exact Or.inl (congrArg Prod.fst (m.addRead_eq fid (FileLinks.load disk path)))
  | addFile disk file =>
      rw [perform, addFile, installs]
      cases hOffered : m.offered (m.storedText? disk file) with
      | error fault =>
          rw [addFileWith_of_error hOffered]
          exact Or.inl rfl
      | ok links? =>
          rw [addFileWith_of_ok hOffered]
          exact Or.inr ⟨disk, file, links?, rfl, hOffered, rfl⟩

/-- What an operation does to the ids, whether it brings in a file or not. -/
theorem perform_eq (m : Linkage) (op : Operation) :
    ∃ definitions vidCeilings, m.perform op =
      { m.install (m.installs op) with definitions := definitions, vidCeilings := vidCeilings } := by
  rcases m.perform_cases op with hInstall | ⟨disk, file, links?, rfl, hOffered, hBrought⟩
  · exact ⟨m.definitions, m.vidCeilings, hInstall⟩
  · obtain ⟨definitions, hEq⟩ := m.bringIn_eq file links?
    rw [installs, hOffered]
    exact ⟨definitions, _, hBrought.trans hEq⟩

end Linkage

end ProgramIndex
