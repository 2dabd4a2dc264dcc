import ProgramIndex.Proofs.Dictionary.Operation

/-!
Sessions: stretches of the use of a dictionary in which records are only added,
and in which only checkpoints are rolled back or released that were taken in the
same session.
-/

namespace ProgramIndex.Dictionary

theorem registry_withTable (d : Dictionary) (kind : Kind) (t : Table) :
    (d.withTable kind t).registry = d.registry := by
  cases kind <;> rfl

/-- Adding a record leaves the registry alone. -/
theorem registry_internChecked (d : Dictionary) (kind : Kind) (checked : Except Fault Key) :
    (d.internChecked kind checked).1.registry = d.registry := by
  cases checked with
  | error fault => rfl
  | ok key => exact d.registry_withTable kind _

theorem registry_changeEach (change : Kind → Table → Table × Except Fault Unit) (d : Dictionary)
    (kinds : List Kind) : (d.changeEach change kinds).1.registry = d.registry := by
  induction kinds generalizing d with
  | nil => rfl
  | cons kind rest ih =>
      unfold changeEach
      rcases change kind (d.table kind) with ⟨changed, _ | _⟩
      · exact d.registry_withTable kind changed
      · exact (ih _).trans (d.registry_withTable kind changed)

/-- No operation touches the registry. -/
theorem registry_perform (d : Dictionary) (op : Operation) :
    (d.perform op).registry = d.registry := by
  cases op with
  | index family key => exact d.registry_internChecked _ _
  | indexAttribute name params => exact d.registry_internChecked _ _
  | indexAttributes attributes => exact d.registry_internChecked _ _
  | indexFunArg name typ attributes => exact d.registry_internChecked _ _
  | indexFunArgs args => exact d.registry_internChecked _ _
  | checkpointAll => rfl
  | rollbackAll checkpoints => exact d.registry_changeEach _ _
  | releaseAll checkpoints => exact d.registry_changeEach _ _
  | read root =>
      rcases d.read_cases root with ⟨-, hRegistry, -⟩ | ⟨fault, -, hSame⟩
      · exact hRegistry
      · exact congrArg registry hSame

/-- A dictionary in a session, with the checkpoints that the session has taken. -/
structure Session where
  dictionary : Dictionary
  taken : List Checkpoints

namespace Session

/-- A session that is about to begin. -/
def start (d : Dictionary) : Session :=
  ⟨d, []⟩

def perform (s : Session) (op : Operation) : Session where
  dictionary := s.dictionary.perform op
  taken :=
    match op with
    | .checkpointAll => s.dictionary.checkpointAll.1 :: s.taken
    | _ => s.taken

/-- What a session does to its dictionary is the operation itself. -/
@[simp] theorem dictionary_perform (s : Session) (op : Operation) :
    (s.perform op).dictionary = s.dictionary.perform op := rfl

/-- A session reads no documents. Of the checkpoints it uses only its own ones, but
it may use each of them many times, standing or not. -/
def Permits (s : Session) : Operation → Prop
  | .rollbackAll checkpoints => checkpoints ∈ s.taken
  | .releaseAll checkpoints => checkpoints ∈ s.taken
  | .read _ => False
  | _ => True

/-- Sessions in which operations may succeed or fail. -/
def transitions : Transitions Session Operation :=
  ⟨perform, fun s op => s.Permits op ∧ op.Fits s.dictionary⟩

/-- Sessions in which counters may start again at zero. -/
def wrapping : Transitions Session Operation :=
  ⟨perform, Permits⟩

end Session

end ProgramIndex.Dictionary
