import ProgramIndex.Proofs.Table.Persistence
import ProgramIndex.Proofs.Table.Section

/-!
The normal form of a stored table. Writing and reading a table loses nothing, and
reading and writing a section brings it into a form that depends on its records
only: each of them is listed once, in the order of the indices, with the integers
in their shortest form.
-/

namespace ProgramIndex

namespace Table

end Table

end ProgramIndex
