import ProgramIndex.Proofs.Dictionary.Reachability
import ProgramIndex.Proofs.Numeral.Word

/-!
Requests to add a record. The ways to add one differ in what they check and in how
the record is put together; what they have in common is that all checks come before
the first change, and that the change is the interning of one key in one table.
-/

namespace ProgramIndex

/-- A record that a dictionary is asked to add. A record of a family is given as it
is to be stored, a record of a fixed kind by the indices of what it refers to. -/
inductive Request where
  | tagged (family : Family) (key : Key)
  | namedAttribute (name : String) (params : List Nat)
  | attributeList (attributes : List Nat)
  | funArg (name : String) (typ attributes : Nat)
  | funArgList (args : List Nat)

namespace Request

def kind : Request → Kind
  | .tagged family _ => family.kind
  | .namedAttribute _ _ => .attribute
  | .attributeList _ => .attributes
  | .funArg _ _ _ => .funArg
  | .funArgList _ => .funArgs

/-- The family whose registry has to know the first tag. -/
def family? : Request → Option Family
  | .tagged family _ => some family
  | _ => none

/-- The records that have to be there, in the order in which they are looked up. -/
def references : Request → List (Kind × Nat)
  | .tagged _ _ => []
  | .namedAttribute _ params => params.map (.attrParam, ·)
  | .attributeList attributes => attributes.map (.attribute, ·)
  | .funArg _ typ attributes => [(.typ, typ), (.attributes, attributes)]
  | .funArgList args => args.map (.funArg, ·)

/-- The indices of the records that are referred to. -/
def indices : Request → List Nat
  | .tagged _ _ => []
  | .namedAttribute _ params => params
  | .attributeList attributes => attributes
  | .funArg _ typ attributes => [typ, attributes]
  | .funArgList args => args

/-- The tags and arguments that are asked for. -/
def key : Request → Key
  | .tagged _ key => key
  | .namedAttribute name params => ⟨[name], params.map Numeral.ofIndex⟩
  | .attributeList attributes => ⟨[], attributes.map Numeral.ofIndex⟩
  | .funArg name typ attributes => ⟨[name], [Numeral.ofIndex typ, Numeral.ofIndex attributes]⟩
  | .funArgList args => ⟨[], args.map Numeral.ofIndex⟩

def operation : Request → Dictionary.Operation
  | .tagged family key => .index family key
  | .namedAttribute name params => .indexAttribute name params
  | .attributeList attributes => .indexAttributes attributes
  | .funArg name typ attributes => .indexFunArg name typ attributes
  | .funArgList args => .indexFunArgs args

theorem eq_tagged_or_fixed (request : Request) :
    (∃ family key, request = .tagged family key) ∨ request.family? = none := by
  cases request with
  | tagged family key => exact Or.inl ⟨family, key, rfl⟩
  | _ => exact Or.inr rfl

theorem map_snd_references (request : Request) :
    request.references.map Prod.snd = request.indices := by
  cases request <;> simp [references, indices, Function.comp_def]

/-- The arguments of a record of a fixed kind are the indices it was asked for with. -/
theorem args_key {request : Request} (hFixed : request.family? = none) :
    request.key.args = request.indices.map Numeral.ofIndex := by
  cases request with
  | tagged family key => cases hFixed
  | _ => rfl

/-- Requests for the same record of a kind are the same, if all indices are words. -/
theorem eq_of_key_eq {first second : Request} (hKind : first.kind = second.kind)
    (hKey : first.key = second.key) (hFirst : ∀ index ∈ first.indices, index ≤ Numeral.maxIndex)
    (hSecond : ∀ index ∈ second.indices, index ≤ Numeral.maxIndex) : first = second := by
  have hTags := congrArg Key.tags hKey
  have hArgs := congrArg Key.args hKey
  -- The kind tells the form of the request, the tags the name, and the arguments the indices.
  cases first with
  | tagged family key =>
      cases second with
      | tagged other _ =>
          rw [show family = other by cases family <;> cases other <;> first | rfl | cases hKind]
          exact congrArg _ hKey
      | _ => cases family <;> cases hKind
  | namedAttribute name params =>
      cases second with
      | tagged family _ => cases family <;> cases hKind
      | namedAttribute other others =>
          have hParams : params = others := Numeral.map_ofIndex_inj hFirst hSecond hArgs
          rw [List.singleton_inj.mp hTags, hParams]
      | _ => cases hKind
  | attributeList attributes =>
      cases second with
      | tagged family _ => cases family <;> cases hKind
      | attributeList others =>
          have hAttributes : attributes = others := Numeral.map_ofIndex_inj hFirst hSecond hArgs
          rw [hAttributes]
      | _ => cases hKind
  | funArg name typ attributes =>
      cases second with
      | tagged family _ => cases family <;> cases hKind
      | funArg other otherTyp otherAttributes =>
          have hPair : [typ, attributes] = [otherTyp, otherAttributes] :=
            Numeral.map_ofIndex_inj hFirst hSecond hArgs
          obtain ⟨hTyp, hRest⟩ := List.cons.inj hPair
          rw [List.singleton_inj.mp hTags, hTyp, List.singleton_inj.mp hRest]
      | _ => cases hKind
  | funArgList args =>
      cases second with
      | tagged family _ => cases family <;> cases hKind
      | funArgList others =>
          have hAll : args = others := Numeral.map_ofIndex_inj hFirst hSecond hArgs
          rw [hAll]
      | _ => cases hKind

end Request

namespace Dictionary

/-- Add the record that is asked for. The outcome is its index, whether or not the
record had been there. -/
def add (d : Dictionary) : Request → Dictionary × Except Fault Nat
  | .tagged family key => d.index family key
  | .namedAttribute name params => d.indexAttribute name params
  | .attributeList attributes => d.indexAttributes attributes
  | .funArg name typ attributes => d.indexFunArg name typ attributes
  | .funArgList args => d.indexFunArgs args

/-- A request is one of the operations of a dictionary. -/
theorem perform_operation (d : Dictionary) (request : Request) :
    d.perform request.operation = (d.add request).1 := by
  cases request <;> rfl

/-- A reference leads to a record. -/
def Occupies (d : Dictionary) (reference : Kind × Nat) : Prop :=
  reference.2 ∈ (d.table reference.1).records

/-- The registry knows the first tag and all references lead to records. -/
structure Grants (d : Dictionary) (request : Request) : Prop where
  registered : ∀ family ∈ request.family?, d.registry.isRegistered family request.key.tag = true
  occupied : ∀ reference ∈ request.references, d.Occupies reference

instance (d : Dictionary) : DecidablePred d.Occupies := fun reference =>
  inferInstanceAs (Decidable (reference.2 ∈ (d.table reference.1).records))

instance (d : Dictionary) : DecidablePred d.Grants := fun request =>
  decidable_of_iff
    ((∀ family ∈ request.family?, d.registry.isRegistered family request.key.tag = true) ∧
      ∀ reference ∈ request.references, d.Occupies reference)
    ⟨fun hBoth => ⟨hBoth.1, hBoth.2⟩, fun hGranted => ⟨hGranted.registered, hGranted.occupied⟩⟩

/-- The reasons to refuse a request. Of several references that lead nowhere the
first one is named. -/
inductive Refuses (d : Dictionary) (request : Request) : Fault → Prop where
  | unregistered {family : Family} (hFamily : request.family? = some family)
      (hUnknown : d.registry.isRegistered family request.key.tag = false) :
      Refuses d request (.unknownVariant family request.key.tag)
  | unoccupied {earlier later : List (Kind × Nat)} {kind : Kind} {index : Nat}
      (hSplit : request.references = earlier ++ (kind, index) :: later)
      (hEarlier : ∀ reference ∈ earlier, d.Occupies reference)
      (hMissing : ¬ d.Occupies (kind, index)) :
      Refuses d request (.missingIndex (d.table kind).name index (d.table kind).size)

/-! ### Looking references up -/

/-- Look a reference up. What a record stores of it is the index as a signed
integer. -/
def refer (d : Dictionary) (reference : Kind × Nat) : Except Fault Int64 :=
  ((d.table reference.1).retrieve reference.2).map fun _ => Numeral.ofIndex reference.2

/-- The table that is asked for by its name is the one of the kind. -/
theorem references_eq_mapM {d : Dictionary}
    (hNames : ∀ kind, (d.table kind).name = kind.tableName) (kind : Kind) (indices : List Nat) :
    d.references kind.tableName indices = (indices.map (kind, ·)).mapM d.refer := by
  rw [references, tableNamed?_of_names hNames, List.mapM_map]
  rfl

/-- A reference to a record that is there is stored as its index. -/
theorem refer_of_occupies {d : Dictionary} {reference : Kind × Nat}
    (hOccupied : d.Occupies reference) :
    d.refer reference = .ok (Numeral.ofIndex reference.2) := by
  obtain ⟨record, hRecord⟩ := Table.mem_records_iff.mp hOccupied
  rw [refer, Table.retrieve_eq_ok_iff.mpr hRecord]
  rfl

/-- A reference is refused only if there is no record at the index. -/
theorem refer_eq_error_iff {d : Dictionary} {reference : Kind × Nat} {fault : Fault} :
    d.refer reference = .error fault ↔ ¬ d.Occupies reference ∧
      fault = .missingIndex (d.table reference.1).name reference.2
        (d.table reference.1).size := by
  rw [Occupies, ← Table.retrieve_eq_error_iff, refer]
  cases (d.table reference.1).retrieve reference.2 <;> simp [Except.map]

theorem occupies_of_refer {d : Dictionary} {reference : Kind × Nat} {arg : Int64}
    (hOk : d.refer reference = .ok arg) : d.Occupies reference := by
  by_contra hMissing
  rw [refer_eq_error_iff.mpr ⟨hMissing, rfl⟩] at hOk
  cases hOk

/-- References are looked up with success exactly if each of them leads to a record. -/
theorem referAll_eq_ok_iff {d : Dictionary} {references : List (Kind × Nat)}
    {args : List Int64} :
    references.mapM d.refer = .ok args ↔ (∀ reference ∈ references, d.Occupies reference) ∧
      args = references.map fun reference => Numeral.ofIndex reference.2 := by
  constructor
  · intro hOk
    have hOccupied : ∀ reference ∈ references, d.Occupies reference := by
      intro reference hMem
      obtain ⟨arg, hArg⟩ := exists_ok_of_mapM hOk hMem
      exact occupies_of_refer hArg
    have hMap := mapM_eq_ok_map fun reference hMem => refer_of_occupies (hOccupied reference hMem)
    exact ⟨hOccupied, Except.ok.inj (hOk.symm.trans hMap)⟩
  · rintro ⟨hOccupied, rfl⟩
    exact mapM_eq_ok_map fun reference hMem => refer_of_occupies (hOccupied reference hMem)

/-- Of the references that lead nowhere the first one is reported. -/
theorem referAll_eq_error_iff {d : Dictionary} {references : List (Kind × Nat)}
    {fault : Fault} :
    references.mapM d.refer = .error fault ↔
      ∃ earlier kind index later, references = earlier ++ (kind, index) :: later ∧
        (∀ reference ∈ earlier, d.Occupies reference) ∧ ¬ d.Occupies (kind, index) ∧
          fault = .missingIndex (d.table kind).name index (d.table kind).size := by
  rw [mapM_eq_error_iff]
  constructor
  · rintro ⟨earlier, ⟨kind, index⟩, later, hSplit, hEarlier, hFault⟩
    refine ⟨earlier, kind, index, later, hSplit, fun reference hMem => ?_,
      refer_eq_error_iff.mp hFault⟩
    obtain ⟨arg, hArg⟩ := hEarlier reference hMem
    exact occupies_of_refer hArg
  · rintro ⟨earlier, kind, index, later, hSplit, hEarlier, hMissing⟩
    exact ⟨earlier, (kind, index), later, hSplit,
      fun reference hMem => ⟨_, refer_of_occupies (hEarlier reference hMem)⟩,
      refer_eq_error_iff.mpr hMissing⟩

/-! ### The outcome of a request -/

theorem grants_tagged_iff {d : Dictionary} {family : Family} {key : Key} :
    d.Grants (.tagged family key) ↔ d.registry.isRegistered family key.tag = true := by
  constructor
  · intro hGranted
    exact hGranted.registered family rfl
  · intro hRegistered
    exact ⟨fun _ hFamily => Option.some.inj hFamily ▸ hRegistered, nofun⟩

/-- For the fixed kinds nothing but the references matters. -/
theorem grants_fixed_iff {d : Dictionary} {request : Request}
    (hFixed : request.family? = none) :
    d.Grants request ↔ ∀ reference ∈ request.references, d.Occupies reference := by
  refine ⟨fun hGranted => hGranted.occupied, fun hOccupied => ⟨fun family hFamily => ?_, hOccupied⟩⟩
  rw [hFixed] at hFamily
  cases hFamily

theorem add_tagged (d : Dictionary) (family : Family) (key : Key) :
    d.add (.tagged family key) = d.internChecked family.kind
      (if d.registry.isRegistered family key.tag then .ok key
        else .error (.unknownVariant family key.tag)) := rfl

theorem map_referAll {Result : Type} (d : Dictionary) (references : List (Kind × Nat))
    (store : List Int64 → Result) :
    (references.mapM d.refer).map store = (references.mapM d.refer).map fun _ =>
      store (references.map fun reference => Numeral.ofIndex reference.2) := by
  cases hRefer : references.mapM d.refer with
  | error fault => rfl
  | ok args => rw [(referAll_eq_ok_iff.mp hRefer).2]; rfl

/-- For a record of a fixed kind all references are looked up and then the record is
stored. -/
theorem add_fixed {d : Dictionary} (hNames : ∀ kind, (d.table kind).name = kind.tableName)
    {request : Request} (hFixed : request.family? = none) :
    d.add request = d.internChecked request.kind
      ((request.references.mapM d.refer).map fun _ => request.key) := by
  cases request with
  | tagged family key => cases hFixed
  | namedAttribute name params =>
      rw [add, indexAttribute, references_eq_mapM hNames, map_referAll, List.map_map]
      rfl
  | attributeList attributes =>
      rw [add, indexAttributes, references_eq_mapM hNames, map_referAll, List.map_map]
      rfl
  | funArgList args =>
      rw [add, indexFunArgs, references_eq_mapM hNames, map_referAll, List.map_map]
      rfl
  | funArg name typ attributes =>
      rw [add, indexFunArg]
      refine congrArg (d.internChecked Kind.funArg) ?_
      simp only [Request.references, List.mapM_cons, List.mapM_nil, refer, table]
      cases d.typs.retrieve typ with
      | error fault => rfl
      | ok _ => cases d.attributeLists.retrieve attributes <;> rfl

theorem internChecked_eq_ok_iff {d grown : Dictionary} {kind : Kind} {checked : Except Fault Key}
    {index : Nat} :
    d.internChecked kind checked = (grown, .ok index) ↔
      ∃ key, checked = .ok key ∧ (index, grown) = d.internIn kind key := by
  cases checked with
  | error fault => simp [internChecked]
  | ok key => simp [internChecked, Prod.ext_iff, and_comm, eq_comm]

/-- A failed check is the outcome, and the dictionary is as it was. -/
theorem internChecked_eq_error_iff {d after : Dictionary} {kind : Kind}
    {checked : Except Fault Key} {fault : Fault} :
    d.internChecked kind checked = (after, .error fault) ↔ checked = .error fault ∧ after = d := by
  cases checked with
  | error other => simp [internChecked, and_comm, eq_comm]
  | ok key => simp [internChecked]

/-- A request is met if it is granted, and then its key has been interned. -/
theorem add_eq_ok_iff {d grown : Dictionary}
    (hNames : ∀ kind, (d.table kind).name = kind.tableName) {request : Request} {index : Nat} :
    d.add request = (grown, .ok index) ↔
      d.Grants request ∧ (index, grown) = d.internIn request.kind request.key := by
  rcases request.eq_tagged_or_fixed with ⟨family, key, rfl⟩ | hFixed
  · rw [add_tagged, grants_tagged_iff, internChecked_eq_ok_iff]
    split
    · rename_i hRegistered
      simp [hRegistered, Request.kind, Request.key]
    · rename_i hUnknown
      simp [hUnknown]
  · simp only [add_fixed hNames hFixed, grants_fixed_iff hFixed, internChecked_eq_ok_iff,
      map_eq_ok_iff, referAll_eq_ok_iff]
    constructor
    · rintro ⟨key, ⟨args, ⟨hOccupied, -⟩, rfl⟩, hGrown⟩
      exact ⟨hOccupied, hGrown⟩
    · rintro ⟨hOccupied, hGrown⟩
      exact ⟨_, ⟨_, ⟨hOccupied, rfl⟩, rfl⟩, hGrown⟩

/-- A request that fails is refused for one of the two reasons, and the dictionary is
as it was. -/
theorem add_eq_error_iff {d after : Dictionary}
    (hNames : ∀ kind, (d.table kind).name = kind.tableName) {request : Request} {fault : Fault} :
    d.add request = (after, .error fault) ↔ d.Refuses request fault ∧ after = d := by
  rcases request.eq_tagged_or_fixed with ⟨family, key, rfl⟩ | hFixed
  · rw [add_tagged, internChecked_eq_error_iff]
    refine and_congr_left fun _ => ?_
    constructor
    · intro hError
      split at hError
      · cases hError
      · rename_i hUnknown
        rw [← Except.error.inj hError]
        exact .unregistered rfl (Bool.eq_false_iff.mpr hUnknown)
    · rintro (⟨hFamily, hUnknown⟩ | ⟨hSplit, -, -⟩)
      · cases hFamily
        exact if_neg (Bool.eq_false_iff.mp hUnknown)
      · simp [Request.references] at hSplit
  · have hMap : (request.references.mapM d.refer).map (fun _ => request.key) = .error fault ↔
        request.references.mapM d.refer = .error fault := by
      cases request.references.mapM d.refer <;> simp [Except.map]
    rw [add_fixed hNames hFixed, internChecked_eq_error_iff, hMap, referAll_eq_error_iff]
    refine and_congr_left fun _ => ?_
    constructor
    · rintro ⟨earlier, kind, index, later, hSplit, hEarlier, hMissing, rfl⟩
      exact .unoccupied hSplit hEarlier hMissing
    · rintro (⟨hFamily, -⟩ | ⟨hSplit, hEarlier, hMissing⟩)
      · rw [hFixed] at hFamily
        cases hFamily
      · exact ⟨_, _, _, _, hSplit, hEarlier, hMissing, rfl⟩

/-- The outcome alone tells what has become of a request. -/
theorem add_snd_eq_ok_iff {d : Dictionary}
    (hNames : ∀ kind, (d.table kind).name = kind.tableName) {request : Request} :
    (∃ index, (d.add request).2 = .ok index) ↔ d.Grants request := by
  constructor
  · rintro ⟨index, hOk⟩
    exact ((add_eq_ok_iff hNames).mp (Prod.ext rfl hOk)).1
  · intro hGranted
    have hAdd := (add_eq_ok_iff hNames).mpr ⟨hGranted, rfl⟩
    exact ⟨_, congrArg Prod.snd hAdd⟩

/-- A request fails exactly for the reasons to refuse it. -/
theorem add_snd_eq_error_iff {d : Dictionary}
    (hNames : ∀ kind, (d.table kind).name = kind.tableName) {request : Request} {fault : Fault} :
    (d.add request).2 = .error fault ↔ d.Refuses request fault := by
  constructor
  · exact fun hFault => ((add_eq_error_iff hNames).mp (Prod.ext rfl hFault)).1
  · exact fun hRefused => congrArg Prod.snd ((add_eq_error_iff hNames).mpr ⟨hRefused, rfl⟩)

/-- A request that fails changes nothing. -/
theorem add_of_error {d : Dictionary} (hNames : ∀ kind, (d.table kind).name = kind.tableName)
    {request : Request} {fault : Fault} (hFault : (d.add request).2 = .error fault) :
    (d.add request).1 = d :=
  ((add_eq_error_iff hNames).mp (Prod.ext rfl hFault)).2

end Dictionary

end ProgramIndex
