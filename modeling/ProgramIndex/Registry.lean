import ProgramIndex.Variant

/-!
Registries: which first tags the records of each family may have, and which
variant a tag stands for. The families' vocabularies are independent.
-/

namespace ProgramIndex

/-- The tags of one family with the variants they stand for. -/
abbrev Vocabulary (family : Family) : Type :=
  Std.ExtTreeMap String family.Shape

/-- The vocabularies of all families. -/
structure Registry where
  attrParams : Vocabulary .attrParam
  constants : Vocabulary .constant
  exps : Vocabulary .exp
  typs : Vocabulary .typ

namespace Registry

def empty : Registry :=
  ⟨∅, ∅, ∅, ∅⟩

/-- The registry of the variants that this library gives a meaning. -/
def standard : Registry where
  attrParams := .ofList AttrParamShape.tagged
  constants := .ofList ConstantShape.tagged
  exps := .ofList ExpShape.tagged
  typs := .ofList TypShape.tagged

def vocabulary (registry : Registry) : (family : Family) → Vocabulary family
  | .attrParam => registry.attrParams
  | .constant => registry.constants
  | .exp => registry.exps
  | .typ => registry.typs

def withVocabulary (registry : Registry) :
    (family : Family) → Vocabulary family → Registry
  | .attrParam, vocabulary => { registry with attrParams := vocabulary }
  | .constant, vocabulary => { registry with constants := vocabulary }
  | .exp, vocabulary => { registry with exps := vocabulary }
  | .typ, vocabulary => { registry with typs := vocabulary }

/-- Changing one family's vocabulary leaves the others as they are. -/
theorem vocabulary_withVocabulary (registry : Registry) (family other : Family)
    (vocabulary : Vocabulary family) :
    (registry.withVocabulary family vocabulary).vocabulary other =
      if h : family = other then h ▸ vocabulary else registry.vocabulary other := by
  cases family <;> cases other <;> rfl

/-- The variant that a tag stands for in a family. -/
def shape? (registry : Registry) (family : Family) (tag : String) : Option family.Shape :=
  (registry.vocabulary family)[tag]?

def isRegistered (registry : Registry) (family : Family) (tag : String) : Bool :=
  (registry.shape? family tag).isSome

/-- Give a tag of a family a meaning, in place of the one it may have. -/
def bind (registry : Registry) (family : Family) (tag : String) (shape : family.Shape) :
    Registry :=
  registry.withVocabulary family ((registry.vocabulary family).insert tag shape)

/-- Add a tag to a family. A tag that the family has already is not given
another meaning. -/
def register (registry : Registry) (family : Family) (tag : String) (shape : family.Shape) :
    Registry × Except Fault Unit :=
  if registry.isRegistered family tag then (registry, .error (.duplicateTag family tag))
  else (registry.bind family tag shape, .ok ())

/-- The tags of a family in ascending order. -/
def tags (registry : Registry) (family : Family) : List String :=
  (registry.vocabulary family).keys

/-- Read a record of a family by its first tag. -/
def construct (registry : Registry) (family : Family) (record : Record) :
    Except Fault (View family) :=
  match registry.shape? family record.tag with
  | some shape => .ok ⟨shape, record⟩
  | none => .error (.unknownVariant family record.tag)

/-- A description of the registry: the number of tags of each family that has
any. -/
def describe (registry : Registry) : String :=
  let entries := Family.all.filterMap fun family =>
    match registry.tags family with
    | [] => none
    | tags => some ("(" ++ Text.quote family.title ++ ", " ++ Numeral.ofNat tags.length ++ ")")
  "Registry \x7b families: " ++ Text.bracket entries ++ " \x7d"

end Registry

end ProgramIndex
