import ProgramIndex.Dictionary.Codec
import ProgramIndex.Dictionary.Indexing
import ProgramIndex.Linkage.Basic
import ProgramIndex.View.Rendering
import ProgramIndex.Proofs.Run
import ProgramIndex.Proofs.Table.Consistency
import ProgramIndex.Proofs.Table.Rollback
import ProgramIndex.Proofs.Dictionary.Atomicity
import ProgramIndex.Proofs.Dictionary.Persistence
import ProgramIndex.Proofs.Dictionary.Speculation
import ProgramIndex.Proofs.Dictionary.Resolution
import ProgramIndex.Proofs.Linkage.Conversion
import ProgramIndex.Proofs.Linkage.Merge
import ProgramIndex.Proofs.Linkage.Persistence
import ProgramIndex.Proofs.Linkage.History
import ProgramIndex.Proofs.Linkage.Enumeration
import ProgramIndex.Proofs.Linkage.Locality
import ProgramIndex.Proofs.Linkage.Definition
import ProgramIndex.Proofs.Table.Numbering
import ProgramIndex.Proofs.Table.Permanence
import ProgramIndex.Proofs.Table.Token
import ProgramIndex.Proofs.Numeral.Spelling
import ProgramIndex.Proofs.Table.Section
import ProgramIndex.Proofs.Markup.Linearization
import ProgramIndex.Proofs.Table.Canonical
import ProgramIndex.Proofs.Table.Integers
import ProgramIndex.Proofs.Dictionary.Reading
import ProgramIndex.Proofs.Dictionary.Request
import ProgramIndex.Proofs.Dictionary.Growth
import ProgramIndex.Proofs.Dictionary.Decoding
import ProgramIndex.Proofs.Dictionary.Registration
import ProgramIndex.Proofs.Linkage.Document
import ProgramIndex.Proofs.View.Operand
import ProgramIndex.Proofs.View.Nesting
import ProgramIndex.Proofs.View.Stability
