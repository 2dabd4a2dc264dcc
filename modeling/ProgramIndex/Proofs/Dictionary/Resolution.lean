import ProgramIndex.Proofs.Attempts
import ProgramIndex.Proofs.Dictionary.Integrity
import ProgramIndex.Proofs.Numeral.Word
import ProgramIndex.View.Typ

/-!
The reading of a dictionary that is built up record by record. As no reference
leads nowhere, all records can be read and all references of the fixed kinds be
followed, as long as the tables are small enough for an index to be a signed
integer.
-/

namespace ProgramIndex

/-- An index that is a signed integer is read back from the argument that stores it. -/
theorem Record.argIndex_eq_ok {record : Record} {position index : Nat}
    (hArg : record.key.args[position]? = some (Numeral.ofIndex index))
    (hBound : index ≤ Numeral.maxInt64) (table : String) :
    record.argIndex position table = .ok index := by
  have hPositive : ¬(Numeral.ofIndex index).toInt < 0 := by
    rw [Numeral.toInt_ofIndex hBound]
    omega
  simp only [argIndex, arg, hArg, bind, Except.bind, if_neg hPositive]
  rw [Numeral.toInt_ofIndex hBound, Int.toNat_natCast]

namespace Registry

variable {registry : Registry} {family : Family} {record : Record}

/-- A record becomes a view exactly of the shape that the registry gives to its tag. -/
theorem construct_eq_ok_iff {view : View family} :
    registry.construct family record = .ok view ↔
      record = view.record ∧ registry.shape? family view.record.tag = some view.shape := by
  obtain ⟨shape, shown⟩ := view
  rw [construct]
  constructor
  · intro hView
    split at hView
    · rename_i known hKnown
      cases hView
      exact ⟨rfl, hKnown⟩
    · cases hView
  · rintro ⟨rfl, hShape⟩
    rw [hShape]

/-- A record does not become a view only if its tag is unknown. -/
theorem construct_eq_error_iff {fault : Fault} :
    registry.construct family record = .error fault ↔
      registry.isRegistered family record.tag = false ∧
        fault = .unknownVariant family record.tag := by
  rw [construct, isRegistered]
  cases registry.shape? family record.tag with
  | none => simp [eq_comm]
  | some shape => simp

end Registry

namespace Dictionary

/-- A record of a fixed kind is read if it has the numbers of tags and arguments that the
kind asks for. -/
theorem getFixed_eq_ok {d : Dictionary} {kind : Kind} {tags index : Nat} {args? : Option Nat}
    {record : Record} (hRecord : (d.table kind).records[index]? = some record)
    (hTags : record.key.tags.length = tags)
    (hArgs : record.key.args.length = args?.getD record.key.args.length) :
    d.getFixed kind tags args? index = .ok record := by
  simp only [getFixed, Table.retrieve_eq_ok_iff.mpr hRecord, bind, Except.bind, Record.checkShape,
    if_pos (And.intro hTags hArgs)]
  rfl

/-- An argument is the index of a record that is stored at it. -/
def Designates (d : Dictionary) (kind : Kind) (arg : Int64) (record : Record) : Prop :=
  arg.toInt = record.index ∧ (d.table kind).records[record.index]? = some record

/-- All records of a dictionary can be read, and the references of the fixed kinds
lead to the records that the arguments say, one for each argument and in their
order. -/
structure Resolves (d : Dictionary) : Prop where
  get_ok : ∀ (family : Family) (index : Nat) (record : Record),
    (d.table family.kind).records[index]? = some record →
      ∃ shape, d.registry.shape? family record.tag = some shape ∧
        d.get family index = .ok ⟨shape, record⟩
  getAll_ok : ∀ family : Family, ∃ views, d.getAll family = .ok views ∧
    views.map Prod.fst = (d.table family.kind).occupied ∧
      ∀ entry ∈ views, d.get family entry.1 = .ok entry.2
  attribute_ok : ∀ (index : Nat) (record : Record),
    (d.table .attribute).records[index]? = some record →
      d.getAttribute index = .ok ⟨record⟩ ∧
        ∃ params, Attribute.params d ⟨record⟩ = .ok params ∧
          List.Forall₂ (d.Designates .attrParam) record.key.args (params.map View.record)
  attributes_ok : ∀ (index : Nat) (record : Record),
    (d.table .attributes).records[index]? = some record →
      d.getAttributes index = .ok ⟨record⟩ ∧
        ∃ attributes, Attributes.toList d ⟨record⟩ = .ok attributes ∧
          List.Forall₂ (d.Designates .attribute) record.key.args (attributes.map Attribute.record)
  funArg_ok : ∀ (index : Nat) (record : Record),
    (d.table .funArg).records[index]? = some record →
      d.getFunArg index = .ok ⟨record⟩ ∧
        ∃ typArg attributesArg typ attributes, record.key.args = [typArg, attributesArg] ∧
          FunArg.typ d ⟨record⟩ = .ok typ ∧ d.Designates .typ typArg typ.record ∧
          FunArg.attributes d ⟨record⟩ = .ok attributes ∧
            d.Designates .attributes attributesArg attributes.record
  funArgs_ok : ∀ (index : Nat) (record : Record),
    (d.table .funArgs).records[index]? = some record →
      d.getFunArgs index = .ok ⟨record⟩ ∧
        ∃ args, FunArgs.toList d ⟨record⟩ = .ok args ∧
          List.Forall₂ (d.Designates .funArg) record.key.args (args.map FunArg.record)

/-- A record of a family is read as the variant that the registry gives its first tag. -/
theorem get_eq_ok_iff {d : Dictionary} {family : Family} {index : Nat} {view : View family} :
    d.get family index = .ok view ↔
      (d.table family.kind).records[index]? = some view.record ∧
        d.registry.shape? family view.record.tag = some view.shape := by
  simp only [get, bind_eq_ok_iff, Table.retrieve_eq_ok_iff, Registry.construct_eq_ok_iff]
  constructor
  · rintro ⟨record, hRecord, rfl, hShape⟩
    exact ⟨hRecord, hShape⟩
  · rintro ⟨hRecord, hShape⟩
    exact ⟨view.record, hRecord, rfl, hShape⟩

/-- A record cannot be read if it is not there or if the registry does not know its tag. -/
theorem get_eq_error_iff {d : Dictionary} {family : Family} {index : Nat} {fault : Fault} :
    d.get family index = .error fault ↔
      (index ∉ (d.table family.kind).records ∧
        fault = .missingIndex (d.table family.kind).name index (d.table family.kind).size) ∨
      ∃ record, (d.table family.kind).records[index]? = some record ∧
        d.registry.isRegistered family record.tag = false ∧
          fault = .unknownVariant family record.tag := by
  simp only [get, bind_eq_error_iff, Table.retrieve_eq_error_iff, Table.retrieve_eq_ok_iff,
    Registry.construct_eq_error_iff]

/-- A record of a family is read if its tag is registered. -/
theorem get_eq_ok {d : Dictionary} {family : Family} {index : Nat} {record : Record}
    (hRecord : (d.table family.kind).records[index]? = some record)
    (hRegistered : d.registry.isRegistered family record.tag = true) :
    ∃ shape, d.registry.shape? family record.tag = some shape ∧
      d.get family index = .ok ⟨shape, record⟩ := by
  obtain ⟨shape, hShape⟩ := Option.isSome_iff_exists.mp hRegistered
  exact ⟨shape, hShape, get_eq_ok_iff.mpr ⟨hRecord, hShape⟩⟩

theorem Sound.get_ok {d : Dictionary} (h : d.Sound) (family : Family) (index : Nat)
    (record : Record) (hRecord : (d.table family.kind).records[index]? = some record) :
    ∃ shape, d.registry.shape? family record.tag = some shape ∧
      d.get family index = .ok ⟨shape, record⟩ :=
  get_eq_ok hRecord (Kind.admits_family.mp (h.admitted family.kind index record hRecord))

/-- In a sound dictionary every record of a family can be viewed. -/
theorem Sound.exists_view {d : Dictionary} (h : d.Sound) (family : Family) {index : Nat}
    {record : Record} (hRecord : (d.table family.kind).records[index]? = some record) :
    ∃ view, d.get family index = .ok view ∧ view.record = record := by
  obtain ⟨shape, -, hGet⟩ := h.get_ok family index record hRecord
  exact ⟨_, hGet, rfl⟩

/-- So all records of a family can be viewed at once, in the order of their indices. -/
theorem Sound.getAll_ok {d : Dictionary} (h : d.Sound) (family : Family) :
    ∃ views, d.getAll family = .ok views ∧
      views.map Prod.fst = (d.table family.kind).occupied ∧
        ∀ entry ∈ views, d.get family entry.1 = .ok entry.2 := by
  have hEach : ∀ index ∈ (d.table family.kind).occupied, ∃ entry,
      (d.get family index).map (fun view => (index, view)) = .ok entry ∧
        d.get family entry.1 = .ok entry.2 ∧ entry.1 = index := by
    intro index hMem
    obtain ⟨record, hRecord⟩ := Table.mem_records_iff.mp (Std.ExtTreeMap.mem_keys.mp hMem)
    obtain ⟨shape, -, hGet⟩ := h.get_ok family index record hRecord
    exact ⟨(index, ⟨shape, record⟩), by rw [hGet]; rfl, hGet, rfl⟩
  obtain ⟨views, hAll, hPairs⟩ := exists_mapM_forall₂ hEach
  have hEntries : List.Forall₂
      (fun entry index => d.get family entry.1 = .ok entry.2 ∧ entry.1 = index) views
      (d.table family.kind).occupied := hPairs.flip
  obtain ⟨hGet, hIndices⟩ := (List.forall₂_and_left _ _).mp hEntries
  rw [← List.forall₂_map_left_iff, List.forall₂_eq_eq_eq] at hIndices
  exact ⟨views, hAll, hIndices, hGet⟩

/-- Each reference of a record leads to a record. -/
theorem Sound.exists_designated {d : Dictionary} (h : d.Sound) {kind target : Kind}
    (hSize : (d.table target).size ≤ Numeral.maxInt64 + 1) {index : Nat} {record : Record}
    (hRecord : (d.table kind).records[index]? = some record) {position : Nat} {arg : Int64}
    (hTarget : kind.target? position = some target)
    (hArg : record.key.args[position]? = some arg) :
    ∃ referred, (∀ table, record.argIndex position table = .ok referred.index) ∧
      d.Designates target arg referred := by
  obtain ⟨found, hBelow, rfl⟩ := h.refersBelow hRecord position target arg hTarget hArg
  obtain ⟨referred, hReferred⟩ := Table.mem_records_iff.mp (h.dense target found hBelow)
  have hIndex := (h.consistent target).index_eq found referred hReferred
  have hNext := Table.le_size_of_forall_mem (h.dense target)
  have hBound : found ≤ Numeral.maxInt64 :=
    Nat.le_of_lt_succ (Nat.lt_of_lt_of_le hBelow (Nat.le_trans hNext hSize))
  refine ⟨referred, ?_, ?_, ?_⟩
  · rw [hIndex]
    exact Record.argIndex_eq_ok hArg hBound
  · rw [hIndex]
    exact Numeral.toInt_ofIndex hBound
  · rw [hIndex]
    exact hReferred

section

variable {d : Dictionary} {kind target : Kind} {View : Type} {read : Nat → Except Fault View}
  (recordOf : View → Record)

/-- A reference can be followed by anything that reads the records of its kind. -/
theorem Sound.follow_ok (h : d.Sound) (hSize : (d.table target).size ≤ Numeral.maxInt64 + 1)
    (hRead : ∀ index record, (d.table target).records[index]? = some record →
      ∃ view, read index = .ok view ∧ recordOf view = record)
    {index : Nat} {record : Record} (hRecord : (d.table kind).records[index]? = some record)
    {position : Nat} {arg : Int64} (hTarget : kind.target? position = some target)
    (hArg : record.key.args[position]? = some arg) (table : String) :
    ∃ view, (record.argIndex position table >>= read) = .ok view ∧
      d.Designates target arg (recordOf view) := by
  obtain ⟨referred, hIndex, hDesignates⟩ := h.exists_designated hSize hRecord hTarget hArg
  obtain ⟨view, hView, rfl⟩ := hRead referred.index referred hDesignates.2
  refine ⟨view, ?_, hDesignates⟩
  rw [hIndex]
  exact hView

/-- Where all arguments refer to records of one kind, all of them can be followed. -/
theorem Sound.followAll_ok (h : d.Sound) (hSize : (d.table target).size ≤ Numeral.maxInt64 + 1)
    (hRead : ∀ index record, (d.table target).records[index]? = some record →
      ∃ view, read index = .ok view ∧ recordOf view = record)
    (hTargets : ∀ position, kind.target? position = some target)
    {index : Nat} {record : Record} (hRecord : (d.table kind).records[index]? = some record)
    (table : String) :
    ∃ views, (List.range record.key.args.length).mapM
        (fun position => record.argIndex position table >>= read) = .ok views ∧
      List.Forall₂ (d.Designates target) record.key.args (views.map recordOf) := by
  have hEach : ∀ position ∈ List.range record.key.args.length, ∃ view,
      (record.argIndex position table >>= read) = .ok view ∧
        ∀ arg, record.key.args[position]? = some arg → d.Designates target arg (recordOf view) := by
    intro position hMem
    have hArg := List.getElem?_eq_getElem (List.mem_range.mp hMem)
    obtain ⟨view, hView, hDesignates⟩ :=
      h.follow_ok recordOf hSize hRead hRecord (hTargets position) hArg table
    refine ⟨view, hView, fun arg hSame => ?_⟩
    rw [hArg] at hSame
    rwa [← Option.some.inj hSame]
  obtain ⟨views, hAll, hViews⟩ := exists_mapM_forall₂ hEach
  obtain ⟨hLength, hPositions⟩ := List.forall₂_iff_get.mp hViews
  refine ⟨views, hAll, List.forall₂_map_right_iff.mpr (List.forall₂_iff_get.mpr ⟨?_, ?_⟩)⟩
  · rwa [List.length_range] at hLength
  · intro position hPosition hView
    have hDesignates := hPositions position (by rwa [List.length_range]) hView
    rw [List.get_eq_getElem, List.getElem_range] at hDesignates
    exact hDesignates _ (List.getElem?_eq_getElem hPosition)

end

section

variable {d : Dictionary} (h : d.Sound) {index : Nat} {record : Record}

include h

theorem Sound.getAttribute_eq_ok (hRecord : (d.table .attribute).records[index]? = some record) :
    d.getAttribute index = .ok ⟨record⟩ := by
  rw [getAttribute, getFixed_eq_ok hRecord (h.admitted .attribute index record hRecord) rfl]
  rfl

theorem Sound.getAttributes_eq_ok
    (hRecord : (d.table .attributes).records[index]? = some record) :
    d.getAttributes index = .ok ⟨record⟩ := by
  rw [getAttributes, getFixed_eq_ok hRecord (h.admitted .attributes index record hRecord) rfl]
  rfl

theorem Sound.getFunArg_eq_ok (hRecord : (d.table .funArg).records[index]? = some record) :
    d.getFunArg index = .ok ⟨record⟩ := by
  obtain ⟨hTags, hArgs⟩ := h.admitted .funArg index record hRecord
  have hShape : record.key.args.length = (some 2).getD record.key.args.length := hArgs
  rw [getFunArg, getFixed_eq_ok hRecord hTags hShape]
  rfl

theorem Sound.getFunArgs_eq_ok (hRecord : (d.table .funArgs).records[index]? = some record) :
    d.getFunArgs index = .ok ⟨record⟩ := by
  rw [getFunArgs, getFixed_eq_ok hRecord (h.admitted .funArgs index record hRecord) rfl]
  rfl

theorem Sound.funArg_ok (hTyps : (d.table .typ).size ≤ Numeral.maxInt64 + 1)
    (hLists : (d.table .attributes).size ≤ Numeral.maxInt64 + 1)
    (hRecord : (d.table .funArg).records[index]? = some record) :
    ∃ typArg attributesArg typ attributes, record.key.args = [typArg, attributesArg] ∧
      FunArg.typ d ⟨record⟩ = .ok typ ∧ d.Designates .typ typArg typ.record ∧
      FunArg.attributes d ⟨record⟩ = .ok attributes ∧
        d.Designates .attributes attributesArg attributes.record := by
  obtain ⟨-, hArgs⟩ := h.admitted .funArg index record hRecord
  obtain ⟨typArg, attributesArg, hPair⟩ := List.length_eq_two.mp hArgs
  have hFirst : record.key.args[0]? = some typArg := by rw [hPair]; rfl
  have hSecond : record.key.args[1]? = some attributesArg := by rw [hPair]; rfl
  obtain ⟨typ, hTyp, hTypArg⟩ :=
    h.follow_ok View.record hTyps (fun _ _ hFound => h.exists_view .typ hFound) hRecord rfl
      hFirst _
  obtain ⟨attributes, hAttributes, hAttributesArg⟩ :=
    h.follow_ok Attributes.record hLists
      (fun _ _ hFound => ⟨_, h.getAttributes_eq_ok hFound, rfl⟩) hRecord rfl hSecond _
  exact ⟨typArg, attributesArg, typ, attributes, hPair, hTyp, hTypArg, hAttributes, hAttributesArg⟩

end

/-- In a sound dictionary all references lead to what they say, as long as the indices are
signed integers. -/
theorem Sound.resolves {d : Dictionary} (h : d.Sound)
    (hSizes : ∀ kind, (d.table kind).size ≤ Numeral.maxInt64 + 1) : d.Resolves where
  get_ok := h.get_ok
  getAll_ok := h.getAll_ok
  attribute_ok _ _ hRecord :=
    ⟨h.getAttribute_eq_ok hRecord, h.followAll_ok View.record (hSizes .attrParam)
      (fun _ _ hFound => h.exists_view .attrParam hFound) (fun _ => rfl) hRecord _⟩
  attributes_ok _ _ hRecord :=
    ⟨h.getAttributes_eq_ok hRecord, h.followAll_ok Attribute.record (hSizes .attribute)
      (fun _ _ hFound => ⟨_, h.getAttribute_eq_ok hFound, rfl⟩) (fun _ => rfl) hRecord _⟩
  funArg_ok _ _ hRecord :=
    ⟨h.getFunArg_eq_ok hRecord, h.funArg_ok (hSizes .typ) (hSizes .attributes) hRecord⟩
  funArgs_ok _ _ hRecord :=
    ⟨h.getFunArgs_eq_ok hRecord, h.followAll_ok FunArg.record (hSizes .funArg)
      (fun _ _ hFound => ⟨_, h.getFunArg_eq_ok hFound, rfl⟩) (fun _ => rfl) hRecord _⟩

/-- For every registry: a dictionary that has been built up by a session, with
checkpoints taken, rolled back and released on the way, holds no reference that
cannot be followed. No rollback and no release may have failed, no table may ever have
held as many records as there are words, and in the end the indices must be signed
integers. -/
theorem resolves_of_session {registry : Registry} {ops : List Operation} {s : Session}
    (run : Session.faultless.RunWithin
      (fun s => ∀ kind, (s.dictionary.table kind).size ≤ Numeral.maxIndex)
      (.start (new registry)) ops s)
    (hSizes : ∀ kind, (s.dictionary.table kind).size ≤ Numeral.maxInt64 + 1) :
    s.dictionary.Resolves :=
  (Session.sound_of_run run).dictionary.resolves hSizes

/-- A session that releases a checkpoint and then goes back to an older one. The
index of the pointer type that is discarded is given to another type, and no
function argument is left that means the pointer. -/
theorem resolves_after_nested_rollback :
    ∃ (outer inner : Checkpoints) (s : Session),
      Session.faultless.RunWithin
        (fun s => ∀ kind, (s.dictionary.table kind).size ≤ Numeral.maxIndex)
        (.start (new .standard))
        [.indexFunArgs [0, 0], .indexFunArg "n" 1 0, .index .typ ⟨["tint", "iint"], [0]⟩,
          .rollbackAll outer, .releaseAll inner, .indexFunArg "p" 1 0, .checkpointAll,
          .index .typ ⟨["tptr"], [0, 0]⟩, .checkpointAll, .index .typ ⟨["tvoid"], []⟩,
          .indexAttributes [0], .indexAttribute "aligned" [0, 0],
          .index .attrParam ⟨["aint"], [4]⟩] s ∧
      (∀ kind, (s.dictionary.table kind).size ≤ Numeral.maxInt64 + 1) ∧
      s.dictionary.size = 7 ∧ s.dictionary.Resolves := by
  have run := (((((((((((((Transitions.RunWithin.refl :
    Session.faultless.RunWithin
      (fun s => ∀ kind, (s.dictionary.table kind).size ≤ Numeral.maxIndex)
      (.start (new .standard)) [] _).step
    (.index .attrParam ⟨["aint"], [4]⟩) ⟨trivial, trivial⟩ (by decide +kernel)).step
    (.indexAttribute "aligned" [0, 0]) ⟨trivial, trivial⟩ (by decide +kernel)).step
    (.indexAttributes [0]) ⟨trivial, trivial⟩ (by decide +kernel)).step
    (.index .typ ⟨["tvoid"], []⟩) ⟨trivial, trivial⟩ (by decide +kernel)).step
    .checkpointAll ⟨trivial, trivial⟩ (by decide +kernel)).step
    (.index .typ ⟨["tptr"], [0, 0]⟩) ⟨trivial, trivial⟩ (by decide +kernel)).step
    .checkpointAll ⟨trivial, trivial⟩ (by decide +kernel)).step
    (.indexFunArg "p" 1 0) ⟨trivial, trivial⟩ (by decide +kernel)).step
    (.releaseAll _) ⟨List.mem_cons_self, by decide +kernel⟩ (by decide +kernel)).step
    (.rollbackAll _) ⟨List.mem_cons_of_mem _ List.mem_cons_self, by decide +kernel⟩ (by decide +kernel)).step
    (.index .typ ⟨["tint", "iint"], [0]⟩) ⟨trivial, trivial⟩ (by decide +kernel)).step
    (.indexFunArg "n" 1 0) ⟨trivial, trivial⟩ (by decide +kernel)).step
    (.indexFunArgs [0, 0]) ⟨trivial, trivial⟩ (by decide +kernel)
  refine ⟨_, _, _, run, ?hSizes, by decide +kernel, resolves_of_session run ?hSizes⟩
  intro kind
  cases kind <;> decide +kernel

end Dictionary

end ProgramIndex
