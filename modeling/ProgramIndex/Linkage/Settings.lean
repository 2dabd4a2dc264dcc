import ProgramIndex.Disk
import ProgramIndex.Linkage.Fault
import ProgramIndex.Toml.Document

/-!
Settings of a run over a program: where the cross-references of its files are
stored.
-/

namespace ProgramIndex

/-- The settings of a run. With a single file, global ids are local ids. -/
structure Settings where
  singleFile : Bool
  targetPath : String
  projectName : String
  deriving DecidableEq, Repr

namespace Settings

def standard : Settings :=
  ⟨false, ".", "project"⟩

/-- A truth value in a document, or what holds where the key is absent. -/
def boolAt (document : Toml.Branch) (key : String) (absent : Bool) : Except LinkFault Bool :=
  match document.get? key with
  | none => .ok absent
  | some (.value (.bool b)) => .ok b
  | some _ => .error .settings

/-- A text in a document, or what holds where the key is absent. -/
def textAt (document : Toml.Branch) (key : String) (absent : String) :
    Except LinkFault String :=
  match document.get? key with
  | none => .ok absent
  | some (.value (.text s)) => .ok s
  | some _ => .error .settings

/-- Read settings from a document. Unknown keys are ignored. -/
def parse (text : String) : Except LinkFault Settings :=
  match Toml.parse text with
  | none => .error .settings
  | some document => do
      let singleFile ← boolAt document "single_file" standard.singleFile
      let targetPath ← textAt document "target_path" standard.targetPath
      let projectName ← textAt document "project_name" standard.projectName
      return ⟨singleFile, targetPath, projectName⟩

def load (disk : Disk) (path : String) : Except LinkFault Settings :=
  match disk.readText? path with
  | none => .error .settings
  | some text => parse text

/-- A path below another one. An absolute path stands for itself; nothing is
normalised. -/
def below (base path : String) : String :=
  if path.toList.head? = some '/' then path
  else if base = "" ∨ base.toList.getLast? = some '/' then base ++ path
  else base ++ "/" ++ path

def analysisDir (settings : Settings) : String :=
  below (below settings.targetPath (settings.projectName ++ ".cch")) "a"

/-- The path of the document with the cross-references of a file, which may lie
in a directory below the project's root. -/
def linksPath (settings : Settings) (directory? : Option String) (name : String) : String :=
  let base :=
    match directory? with
    | none => settings.analysisDir
    | some directory =>
        if directory = "" then settings.analysisDir else below settings.analysisDir directory
  below base (name ++ "_gxrefs.xml")

end Settings

end ProgramIndex
