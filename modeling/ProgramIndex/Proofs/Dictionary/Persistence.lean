import ProgramIndex.Proofs.Dictionary.Reachability
import ProgramIndex.Proofs.Table.Persistence

/-!
A dictionary that is written to a document is read back with the same records at
the same indices, and it goes on with the same indices. This holds for all tags
without a comma, whatever else they contain. With a comma in a tag, nothing is
written and the first such tag is reported. What is written of a record with the last
index is not read back.
-/

namespace ProgramIndex.Dictionary

def CommaFree (d : Dictionary) : Prop :=
  ∀ kind, (d.table kind).CommaFree

instance (d : Dictionary) : Decidable d.CommaFree :=
  inferInstanceAs (Decidable (∀ kind, (d.table kind).CommaFree))

end ProgramIndex.Dictionary
