import ProgramIndex.Proofs.Dictionary.Resolution

/-!
Registrations of tags. A family gives a tag the meaning that it was first registered with,
and the built-in variants count as registered before all others. So the registrations in
their order determine a registry, and with it what the records of a dictionary are read as.
-/

namespace ProgramIndex

/-- A tag that a family is to read as a variant. -/
structure Registration where
  family : Family
  tag : String
  shape : family.Shape

namespace Registration

/-- The registration is about this tag of this family. -/
def Names (op : Registration) (family : Family) (tag : String) : Prop :=
  op.family = family ∧ op.tag = tag

/-- The variant that a registration asks for, if it is about this tag. -/
def shapeFor? (op : Registration) (family : Family) (tag : String) : Option family.Shape :=
  if hFamily : op.family = family then
    if op.tag = tag then some (hFamily ▸ op.shape) else none
  else none

/-- Some registration is about this tag of this family. -/
def Bound (history : List Registration) (family : Family) (tag : String) : Prop :=
  ∃ op ∈ history, op.Names family tag

/-- The first of the registrations that are about this tag asks for this variant. -/
def First (history : List Registration) (family : Family) (tag : String) (shape : family.Shape) :
    Prop :=
  ∃ earlier later, history = earlier ++ ⟨family, tag, shape⟩ :: later ∧
    ∀ op ∈ earlier, ¬ op.Names family tag

theorem shapeFor?_eq_some_iff {op : Registration} {family : Family} {tag : String}
    {shape : family.Shape} : op.shapeFor? family tag = some shape ↔ op = ⟨family, tag, shape⟩ := by
  obtain ⟨owner, name, wanted⟩ := op
  rw [shapeFor?]
  constructor
  · intro hShape
    split at hShape
    · rename_i hFamily
      subst hFamily
      split at hShape
      · rename_i hTag
        subst hTag
        cases hShape
        rfl
      · cases hShape
    · cases hShape
  · intro hSame
    cases hSame
    simp

/-- A registration says nothing about the tags that it does not name. -/
theorem shapeFor?_eq_none_iff {op : Registration} {family : Family} {tag : String} :
    op.shapeFor? family tag = none ↔ ¬ op.Names family tag := by
  rw [shapeFor?, Names]
  split <;> simp_all

/-- The first registration about a tag that is found in a history is the first one there is.
-/
theorem findSome?_shapeFor?_eq_some_iff {history : List Registration} {family : Family}
    {tag : String} {shape : family.Shape} :
    history.findSome? (·.shapeFor? family tag) = some shape ↔ First history family tag shape := by
  simp only [List.findSome?_eq_some_iff, shapeFor?_eq_some_iff, shapeFor?_eq_none_iff, First]
  constructor
  · rintro ⟨earlier, op, later, rfl, rfl, hEarlier⟩
    exact ⟨earlier, later, rfl, hEarlier⟩
  · rintro ⟨earlier, later, rfl, hEarlier⟩
    exact ⟨earlier, _, later, rfl, rfl, hEarlier⟩

/-- None is found exactly if the history has none. -/
theorem findSome?_shapeFor?_eq_none_iff {history : List Registration} {family : Family}
    {tag : String} :
    history.findSome? (·.shapeFor? family tag) = none ↔ ¬ Bound history family tag := by
  simp only [List.findSome?_eq_none_iff, shapeFor?_eq_none_iff, Bound, not_exists, not_and]

end Registration

namespace Registry

section

variable {registry : Registry}

/-- The registry after a registration, whether it succeeds or is refused. -/
def perform (registry : Registry) (op : Registration) : Registry :=
  (registry.register op.family op.tag op.shape).1

def transitions : Transitions Registry Registration :=
  ⟨perform, fun _ _ => True⟩

/-- Binding a tag gives it the variant, in place of the one it may have had. -/
theorem shape?_bind (registry : Registry) (family other : Family) (tag name : String)
    (shape : family.Shape) :
    (registry.bind family tag shape).shape? other name =
      ((⟨family, tag, shape⟩ : Registration).shapeFor? other name).or
        (registry.shape? other name) := by
  rw [bind, shape?, vocabulary_withVocabulary, Registration.shapeFor?]
  split
  · rename_i hSame
    subst hSame
    rw [Std.ExtTreeMap.getElem?_insert]
    split <;> simp_all [shape?]
  · rfl

theorem isRegistered_eq_false_iff {family : Family} {tag : String} :
    registry.isRegistered family tag = false ↔ registry.shape? family tag = none := by
  rw [isRegistered, Option.isSome_eq_false_iff, Option.isNone_iff_eq_none]

/-- A tag without a variant is bound. -/
theorem register_of_none {family : Family} {tag : String} (shape : family.Shape)
    (hFresh : registry.shape? family tag = none) :
    registry.register family tag shape = (registry.bind family tag shape, .ok ()) := by
  rw [register, isRegistered_eq_false_iff.mpr hFresh]
  rfl

/-- A tag with a variant is refused, and the registry stays as it is. -/
theorem register_of_some {family : Family} {tag : String} {known : family.Shape}
    (shape : family.Shape) (hKnown : registry.shape? family tag = some known) :
    registry.register family tag shape = (registry, .error (.duplicateTag family tag)) := by
  rw [register, isRegistered, hKnown]
  rfl

/-- A registration succeeds exactly if the tag has no meaning yet. -/
theorem register_ok_iff_none {family : Family} {tag : String} {shape : family.Shape} :
    (registry.register family tag shape).2 = .ok () ↔ registry.shape? family tag = none := by
  cases hKnown : registry.shape? family tag with
  | none => simp [register_of_none shape hKnown]
  | some known => simp [register_of_some shape hKnown]

/-- A registration gives a tag a variant if the tag has none yet, and changes nothing else. -/
theorem shape?_perform (registry : Registry) (op : Registration) (family : Family) (tag : String) :
    (registry.perform op).shape? family tag =
      (registry.shape? family tag).or (op.shapeFor? family tag) := by
  cases hKnown : registry.shape? op.family op.tag with
  | some known =>
      rw [perform, register_of_some op.shape hKnown]
      cases hWanted : op.shapeFor? family tag with
      | none => rw [Option.or_none]
      | some shape =>
          obtain rfl := Registration.shapeFor?_eq_some_iff.mp hWanted
          rw [hKnown, Option.some_or]
  | none =>
      rw [perform, register_of_none op.shape hKnown]
      refine (registry.shape?_bind op.family family op.tag tag op.shape).trans ?_
      cases hWanted : op.shapeFor? family tag with
      | none => rw [Option.none_or, Option.or_none]
      | some shape =>
          obtain rfl := Registration.shapeFor?_eq_some_iff.mp hWanted
          rw [Option.some_or, hKnown, Option.none_or]

/-- A registration that succeeds binds its tag and no other. -/
theorem shape?_of_register {op : Registration}
    (hOk : (registry.register op.family op.tag op.shape).2 = .ok ()) :
    (registry.perform op).shape? op.family op.tag = some op.shape ∧
      ∀ family tag, ¬ op.Names family tag →
        (registry.perform op).shape? family tag = registry.shape? family tag := by
  have hFresh : registry.shape? op.family op.tag = none := register_ok_iff_none.mp hOk
  constructor
  · rw [shape?_perform, hFresh, Option.none_or, Registration.shapeFor?_eq_some_iff]
  · intro family tag hOther
    rw [shape?_perform, Registration.shapeFor?_eq_none_iff.mpr hOther, Option.or_none]

end

/-! ### The registries at the start -/

/-- The registries that there are before anything has been registered by hand. -/
inductive Origin where
  | empty
  | standard
  deriving DecidableEq, Repr

/-- The built-in variants of a family with their tags. -/
def builtIn : (family : Family) → List (String × family.Shape)
  | .attrParam => AttrParamShape.tagged
  | .constant => ConstantShape.tagged
  | .exp => ExpShape.tagged
  | .typ => TypShape.tagged

namespace Origin

def registry : Origin → Registry
  | .empty => .empty
  | .standard => .standard

/-- What counts as registered already. -/
def registrations : Origin → List Registration
  | .empty => []
  | .standard => Family.all.flatMap fun family =>
      (builtIn family).map fun entry => ⟨family, entry.1, entry.2⟩

/-- All registrations up to the end of a run, whose operations are given newest first. -/
def history (origin : Origin) (ops : List Registration) : List Registration :=
  origin.registrations ++ ops.reverse

end Origin

theorem vocabulary_standard (family : Family) :
    standard.vocabulary family = .ofList (builtIn family) := by
  cases family <;> rfl

/-- No tag is built in twice for one family. -/
theorem nodup_builtIn (family : Family) : ((builtIn family).map Prod.fst).Nodup := by
  cases family <;> decide

/-- A vocabulary that is made of a list without repetitions reads like the list. -/
theorem getElem?_ofList {family : Family} {entries : List (String × family.Shape)}
    (hDistinct : (entries.map Prod.fst).Nodup) (tag : String) :
    (Std.ExtTreeMap.ofList entries : Vocabulary family)[tag]? = entries.lookup tag := by
  cases hLookup : entries.lookup tag with
  | some shape =>
      obtain ⟨earlier, later, rfl, -⟩ := List.lookup_eq_some_iff.mp hLookup
      refine Std.ExtTreeMap.getElem?_ofList_of_mem Std.ReflCmp.compare_self ?_ (by simp)
      exact (List.pairwise_map.mp hDistinct).imp fun hNe => mt Std.LawfulEqCmp.eq_of_compare hNe
  | none =>
      have hAbsent : tag ∉ entries.map Prod.fst := by
        rintro hMem
        obtain ⟨entry, hEntry, rfl⟩ := List.mem_map.mp hMem
        simpa using List.lookup_eq_none_iff.mp hLookup entry hEntry
      exact Std.ExtTreeMap.getElem?_ofList_of_contains_eq_false (by simpa using hAbsent)

/-- The standard registry knows the built-in tags, with their meanings. -/
theorem shape?_standard (family : Family) (tag : String) :
    standard.shape? family tag = (builtIn family).lookup tag := by
  rw [shape?, vocabulary_standard]
  exact getElem?_ofList (nodup_builtIn family) tag

theorem findSome?_map_shapeFor? {family : Family} (entries : List (String × family.Shape))
    (tag : String) :
    (entries.map fun entry => (⟨family, entry.1, entry.2⟩ : Registration)).findSome?
        (·.shapeFor? family tag) = entries.lookup tag := by
  rw [List.lookup_eq_findSome?, List.findSome?_map]
  refine congrArg (List.findSome? · entries) (funext fun entry => ?_)
  simp only [Function.comp_apply, Registration.shapeFor?, dite_true, beq_iff_eq, @eq_comm _ tag]

theorem findSome?_map_shapeFor?_of_ne {family other : Family}
    (entries : List (String × family.Shape)) (tag : String) (hOther : family ≠ other) :
    (entries.map fun entry => (⟨family, entry.1, entry.2⟩ : Registration)).findSome?
        (·.shapeFor? other tag) = none := by
  rw [Registration.findSome?_shapeFor?_eq_none_iff]
  rintro ⟨op, hOp, hFamily, -⟩
  obtain ⟨entry, -, rfl⟩ := List.mem_map.mp hOp
  exact hOther hFamily

/-- The built-in registrations of all families do not interfere: only those of the own
family are about a tag. -/
theorem findSome?_flatMap_builtIn (families : List Family) (family : Family) (tag : String) :
    (families.flatMap fun owner => (builtIn owner).map fun entry =>
        (⟨owner, entry.1, entry.2⟩ : Registration)).findSome? (·.shapeFor? family tag) =
      if family ∈ families then (builtIn family).lookup tag else none := by
  induction families with
  | nil => rfl
  | cons owner families ih =>
      rw [List.flatMap_cons, List.findSome?_append, ih]
      by_cases hOwner : owner = family
      · subst hOwner
        rw [findSome?_map_shapeFor?, if_pos List.mem_cons_self]
        split <;> simp
      · rw [findSome?_map_shapeFor?_of_ne _ _ hOwner, Option.none_or]
        simp [Ne.symm hOwner]

/-- A registry at the start knows what counts as registered already. -/
theorem shape?_registry (origin : Origin) (family : Family) (tag : String) :
    origin.registry.shape? family tag =
      origin.registrations.findSome? (·.shapeFor? family tag) := by
  cases origin with
  | empty => cases family <;> rfl
  | standard =>
      have hMem : family ∈ Family.all := by cases family <;> decide
      exact (shape?_standard family tag).trans
        ((findSome?_flatMap_builtIn Family.all family tag).trans (if_pos hMem)).symm

/-! ### Registries after a run -/

variable {origin : Origin} {ops : List Registration} {registry : Registry}

/-- Later registrations count only where there is no variant yet, and of them the first. -/
theorem shape?_of_onward {more : List Registration} {later : Registry}
    (onward : transitions.Run registry more later) (family : Family) (tag : String) :
    later.shape? family tag =
      (registry.shape? family tag).or (more.reverse.findSome? (·.shapeFor? family tag)) := by
  induction onward with
  | refl => exact (Option.or_none).symm
  | @step more later prior op hFits hAllowed ih =>
      rw [List.reverse_cons, List.findSome?_append, ← Option.or_assoc, ← ih]
      refine (later.shape?_perform op family tag).trans (congrArg (Option.or _) ?_)
      cases hWanted : op.shapeFor? family tag <;> simp [hWanted]

/-- By induction over the run: a tag has the meaning that the history finds first. -/
theorem shape?_of_run (run : transitions.Run origin.registry ops registry) (family : Family)
    (tag : String) :
    registry.shape? family tag = (origin.history ops).findSome? (·.shapeFor? family tag) := by
  rw [Origin.history, List.findSome?_append, ← shape?_registry]
  exact shape?_of_onward run family tag

/-- A tag has a meaning exactly if the first registration about it gave it this one. -/
theorem shape?_eq_some_iff_first (run : transitions.Run origin.registry ops registry)
    {family : Family} {tag : String} {shape : family.Shape} :
    registry.shape? family tag = some shape ↔
      Registration.First (origin.history ops) family tag shape := by
  rw [shape?_of_run run, Registration.findSome?_shapeFor?_eq_some_iff]

theorem shape?_eq_none_iff_not_bound (run : transitions.Run origin.registry ops registry)
    {family : Family} {tag : String} :
    registry.shape? family tag = none ↔
      ¬ Registration.Bound (origin.history ops) family tag := by
  rw [shape?_of_run run, Registration.findSome?_shapeFor?_eq_none_iff]

/-- A tag has some meaning exactly if there has been a registration about it. -/
theorem exists_shape?_iff_bound (run : transitions.Run origin.registry ops registry)
    {family : Family} {tag : String} :
    (∃ shape, registry.shape? family tag = some shape) ↔
      Registration.Bound (origin.history ops) family tag := by
  rw [← not_iff_not, ← shape?_eq_none_iff_not_bound run, Option.eq_none_iff_forall_ne_some,
    not_exists]

/-- A tag that has a variant keeps it, whatever is registered later. -/
theorem shape?_kept {more : List Registration} {later : Registry}
    (onward : transitions.Run registry more later) {family : Family} {tag : String}
    {shape : family.Shape} (hShape : registry.shape? family tag = some shape) :
    later.shape? family tag = some shape := by
  rw [shape?_of_onward onward, hShape, Option.some_or]

/-- Registrations of other tags or in other families do not matter to a tag. -/
theorem shape?_of_not_bound {more : List Registration} {later : Registry}
    (onward : transitions.Run registry more later) {family : Family} {tag : String}
    (hUnnamed : ¬ Registration.Bound more family tag) :
    later.shape? family tag = registry.shape? family tag := by
  have hNone : more.reverse.findSome? (·.shapeFor? family tag) = none := by
    rw [Registration.findSome?_shapeFor?_eq_none_iff]
    rintro ⟨op, hMem, hNames⟩
    exact hUnnamed ⟨op, List.mem_reverse.mp hMem, hNames⟩
  rw [shape?_of_onward onward, hNone, Option.or_none]

theorem pairwise_tags (registry : Registry) (family : Family) :
    (registry.tags family).Pairwise (· < ·) := by
  have hOrdered : (registry.tags family).Pairwise fun tag other => compare tag other = .lt :=
    Std.ExtTreeMap.ordered_keys
  exact hOrdered.imp compareOfLessAndEq_eq_lt.mp

/-- The tags that are listed are those with a meaning. -/
theorem mem_tags_iff {family : Family} {tag : String} :
    tag ∈ registry.tags family ↔ ∃ shape, registry.shape? family tag = some shape := by
  rw [tags, Std.ExtTreeMap.mem_keys, ← Std.ExtTreeMap.isSome_getElem?_iff_mem,
    Option.isSome_iff_exists]
  rfl

/-! ### First come, first served -/

/-- The registry gives each tag the meaning of the first of the registrations that are about
it, to itself and to every dictionary that reads through it. -/
structure FirstCome (registry : Registry) (history : List Registration) : Prop where
  isRegistered_iff : ∀ family tag,
    registry.isRegistered family tag = true ↔ Registration.Bound history family tag
  register_ok_iff : ∀ op : Registration,
    (registry.register op.family op.tag op.shape).2 = .ok () ↔
      ¬ Registration.Bound history op.family op.tag
  /-- A registration that succeeds binds its tag and no other. -/
  bound : ∀ (op : Registration) (grown : Registry),
    registry.register op.family op.tag op.shape = (grown, .ok ()) →
      grown.shape? op.family op.tag = some op.shape ∧
        ∀ family tag, ¬ op.Names family tag → grown.shape? family tag = registry.shape? family tag
  /-- A registration of a tag that is bound is refused and changes nothing. -/
  refused : ∀ op : Registration, Registration.Bound history op.family op.tag →
    registry.register op.family op.tag op.shape =
      (registry, .error (.duplicateTag op.family op.tag))
  kept : ∀ (more : List Registration) (later : Registry), transitions.Run registry more later →
    ∀ family tag,
      (∀ shape, registry.shape? family tag = some shape → later.shape? family tag = some shape) ∧
        (¬ Registration.Bound more family tag →
          later.shape? family tag = registry.shape? family tag)
  ascending : ∀ family, (registry.tags family).Pairwise (· < ·)
  mem_tags_iff : ∀ family tag,
    tag ∈ registry.tags family ↔ Registration.Bound history family tag
  get_ok_iff : ∀ d : Dictionary, d.registry = registry → ∀ family index,
    (∃ view, d.get family index = .ok view) ↔
      ∃ record, (d.table family.kind).records[index]? = some record ∧
        Registration.Bound history family (record.key.tags.headD "")
  get_eq_ok_iff : ∀ d : Dictionary, d.registry = registry →
    ∀ (family : Family) (index : Nat) (view : View family),
      d.get family index = .ok view ↔
        (d.table family.kind).records[index]? = some view.record ∧
          Registration.First history family (view.record.key.tags.headD "") view.shape

/-- Whatever has been registered since the start, with or without success, a registry goes by
the first registration of each tag. -/
theorem firstCome_of_run (run : transitions.Run origin.registry ops registry) :
    registry.FirstCome (origin.history ops) where
  isRegistered_iff family tag := by
    rw [← exists_shape?_iff_bound run, isRegistered, Option.isSome_iff_exists]
  register_ok_iff op := by
    rw [register_ok_iff_none, shape?_eq_none_iff_not_bound run]
  bound op grown hGrown := by
    have hBound := shape?_of_register (congrArg Prod.snd hGrown)
    rwa [perform, hGrown] at hBound
  refused op hBound := by
    obtain ⟨known, hKnown⟩ := (exists_shape?_iff_bound run).mpr hBound
    exact register_of_some op.shape hKnown
  kept more later onward family tag :=
    ⟨fun _ => shape?_kept onward, shape?_of_not_bound onward⟩
  ascending := registry.pairwise_tags
  mem_tags_iff family tag := by
    rw [Registry.mem_tags_iff, exists_shape?_iff_bound run]
  get_ok_iff d hRegistry family index := by
    subst hRegistry
    constructor
    · rintro ⟨view, hGet⟩
      obtain ⟨hRecord, hShape⟩ := Dictionary.get_eq_ok_iff.mp hGet
      exact ⟨view.record, hRecord, (exists_shape?_iff_bound run).mp ⟨view.shape, hShape⟩⟩
    · rintro ⟨record, hRecord, hBound⟩
      obtain ⟨shape, hShape⟩ := (exists_shape?_iff_bound run).mpr hBound
      exact ⟨⟨shape, record⟩, Dictionary.get_eq_ok_iff.mpr ⟨hRecord, hShape⟩⟩
  get_eq_ok_iff d hRegistry family index view := by
    subst hRegistry
    rw [Dictionary.get_eq_ok_iff, ← shape?_eq_some_iff_first run]
    rfl

/-- A type that is registered twice, with variants of the caller's own, and an expression
that is built in. -/
theorem firstCome_standard :
    ∃ registry : Registry,
      registry = ((standard.perform ⟨.typ, "tvector", .custom "Vector"⟩).perform
        ⟨.typ, "tvector", .custom "Matrix"⟩).perform ⟨.exp, "binop", .custom "Sum"⟩ ∧
      registry.FirstCome (Origin.standard.history
        [⟨.exp, "binop", .custom "Sum"⟩, ⟨.typ, "tvector", .custom "Matrix"⟩,
          ⟨.typ, "tvector", .custom "Vector"⟩]) ∧
      registry.shape? .typ "tvector" = some (.custom "Vector") ∧
      registry.shape? .exp "binop" = some .binop ∧ registry.shape? .exp "tvector" = none := by
  have run := ((((Transitions.RunWithin.refl : transitions.Run Origin.standard.registry [] _).step
    ⟨.typ, "tvector", .custom "Vector"⟩ trivial trivial).step
    ⟨.typ, "tvector", .custom "Matrix"⟩ trivial trivial).step
    ⟨.exp, "binop", .custom "Sum"⟩ trivial trivial)
  exact ⟨_, rfl, firstCome_of_run run, by decide +kernel, by decide +kernel, by decide +kernel⟩

end Registry

end ProgramIndex
