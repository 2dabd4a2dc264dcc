/-!
The kinds of records that describe a C program, and the tables that hold them.
-/

namespace ProgramIndex

/-- The kinds of records. Each kind has a table of its own. -/
inductive Kind where
  | attrParam
  | attribute
  | attributes
  | constant
  | exp
  | funArg
  | funArgs
  | typ
  deriving DecidableEq, Repr

namespace Kind

/-- All kinds, in the order in which their tables are stored and visited. -/
def all : List Kind :=
  [.attrParam, .attribute, .attributes, .constant, .exp, .funArg, .funArgs, .typ]

theorem mem_all (kind : Kind) : kind ∈ all := by
  cases kind <;> decide

/-- The name of the table that holds the records of a kind. -/
def tableName : Kind → String
  | .attrParam => "attrparam-table"
  | .attribute => "attribute-table"
  | .attributes => "attributes-table"
  | .constant => "constant-table"
  | .exp => "exp-table"
  | .funArg => "funarg-table"
  | .funArgs => "funargs-table"
  | .typ => "typ-table"

end Kind

/-- The kinds whose records come in variants told apart by their first tag. The
records of the other kinds have one fixed shape each. -/
inductive Family where
  | attrParam
  | constant
  | exp
  | typ
  deriving DecidableEq, Repr

namespace Family

/-- All families, in the alphabetical order of their titles. -/
def all : List Family :=
  [.attrParam, .constant, .exp, .typ]

def title : Family → String
  | .attrParam => "attribute parameter"
  | .constant => "constant"
  | .exp => "expression"
  | .typ => "type"

def kind : Family → Kind
  | .attrParam => .attrParam
  | .constant => .constant
  | .exp => .exp
  | .typ => .typ

/-- The name of the table that holds a family's records. -/
def tableName (family : Family) : String :=
  family.kind.tableName

end Family

end ProgramIndex
