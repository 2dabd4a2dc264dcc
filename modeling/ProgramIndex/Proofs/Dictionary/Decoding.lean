import ProgramIndex.Proofs.Dictionary.Growth
import ProgramIndex.Proofs.Dictionary.Resolution

/-!
What is read back of a record that has been added. Indices are 64-bit words and
arguments signed integers. A word is turned into an argument without a check, and
an argument into a word with one; so an index in the upper half of the words, which a
document may contain, is stored as a negative argument that is not read back.
-/

namespace ProgramIndex

namespace Record

/-- All arguments as indices, in their order. -/
def argIndices (record : Record) (table : String) : Except Fault (List Nat) :=
  (List.range record.key.args.length).mapM fun position => record.argIndex position table

theorem argIndex_ofIndex {record : Record} {position index : Nat}
    (hArg : record.key.args[position]? = some (Numeral.ofIndex index))
    (hWord : index ≤ Numeral.maxIndex) (table : String) :
    record.argIndex position table = if index ≤ Numeral.maxInt64 then .ok index
      else .error (.invalidReference table record.index position (Numeral.ofIndex index)) := by
  split
  · rename_i hBound
    exact argIndex_eq_ok hArg hBound table
  · rename_i hAbove
    have hNegative := Numeral.toInt_ofIndex_neg (Nat.lt_of_not_le hAbove) hWord
    simp only [argIndex, arg, hArg, bind, Except.bind, if_pos hNegative]

/-- The arguments that stand for indices are read back exactly if none of the indices
is above the signed integers. -/
theorem argIndices_eq_ok_iff {record : Record} {indices : List Nat}
    (hArgs : record.key.args = indices.map Numeral.ofIndex)
    (hWords : ∀ index ∈ indices, index ≤ Numeral.maxIndex) (table : String) :
    record.argIndices table = .ok indices ↔ ∀ index ∈ indices, index ≤ Numeral.maxInt64 := by
  have hEach : ∀ (position : Nat) (hPosition : position < indices.length),
      record.argIndex position table = .ok indices[position] ↔
        indices[position] ≤ Numeral.maxInt64 := by
    intro position hPosition
    have hArg : record.key.args[position]? = some (Numeral.ofIndex indices[position]) := by
      rw [hArgs, List.getElem?_map, List.getElem?_eq_getElem hPosition, Option.map_some]
    rw [argIndex_ofIndex hArg (hWords _ (List.getElem_mem hPosition))]
    split <;> simp [*]
  rw [argIndices, hArgs, List.length_map, mapM_eq_ok_iff_forall₂, List.forall₂_iff_get]
  simp only [List.length_range, List.get_eq_getElem, List.getElem_range]
  constructor
  · rintro ⟨-, hAll⟩ index hMem
    obtain ⟨position, hPosition, rfl⟩ := List.getElem_of_mem hMem
    exact (hEach position hPosition).mp (hAll position hPosition hPosition)
  · intro hBound
    refine ⟨trivial, fun position hPosition _ => (hEach position hPosition).mpr ?_⟩
    exact hBound _ (List.getElem_mem hPosition)

end Record

namespace Dictionary

/-- Read the record of any kind at an index, in the way its kind is read. -/
def getRecord (d : Dictionary) : Kind → Nat → Except Fault Record
  | .attrParam, index => (d.get .attrParam index).map View.record
  | .attribute, index => (d.getAttribute index).map Attribute.record
  | .attributes, index => (d.getAttributes index).map Attributes.record
  | .constant, index => (d.get .constant index).map View.record
  | .exp, index => (d.get .exp index).map View.record
  | .funArg, index => (d.getFunArg index).map FunArg.record
  | .funArgs, index => (d.getFunArgs index).map FunArgs.record
  | .typ, index => (d.get .typ index).map View.record

theorem getRecord_family {d : Dictionary} (family : Family) (index : Nat) :
    d.getRecord family.kind index = (d.get family index).map View.record := by
  cases family <;> rfl

/-- A record that has been added can be read at the index that was returned. -/
theorem getRecord_of_add {d grown : Dictionary} (hReached : d.Reached)
    {request : Request} {index : Nat} (hAdd : d.add request = (grown, .ok index)) :
    grown.getRecord request.kind index = .ok ⟨index, request.key⟩ := by
  have hRecord := hReached.record_of_add hAdd
  cases request with
  | tagged family key =>
      have hRegistered : grown.registry.isRegistered family key.tag = true := by
        rw [(hReached.growsTo_of_add hAdd).registry_eq]
        exact grants_tagged_iff.mp (hReached.grants_of_add hAdd)
      obtain ⟨shape, -, hGet⟩ := get_eq_ok hRecord hRegistered
      rw [Request.kind, getRecord_family, hGet]
      rfl
  | namedAttribute name params =>
      have hRead : grown.getFixed .attribute 1 none index = .ok _ := getFixed_eq_ok hRecord rfl rfl
      rw [Request.kind, getRecord, getAttribute, hRead]
      rfl
  | attributeList attributes =>
      have hRead : grown.getFixed .attributes 0 none index = .ok _ := getFixed_eq_ok hRecord rfl rfl
      rw [Request.kind, getRecord, getAttributes, hRead]
      rfl
  | funArg name typ attributes =>
      have hRead : grown.getFixed .funArg 1 (some 2) index = .ok _ := getFixed_eq_ok hRecord rfl rfl
      rw [Request.kind, getRecord, getFunArg, hRead]
      rfl
  | funArgList args =>
      have hRead : grown.getFixed .funArgs 0 none index = .ok _ := getFixed_eq_ok hRecord rfl rfl
      rw [Request.kind, getRecord, getFunArgs, hRead]
      rfl

/-- What comes back of the indices that a record of a fixed kind has been asked for with,
in any dictionary, whatever has been loaded into it before. The record can be read, and
each of its arguments is read back as the index that it was, if that is a signed
integer, and is a faulty reference otherwise. So the list of indices comes back exactly
if all of them are signed integers. -/
theorem argIndices_add_iff_of_reached {d grown : Dictionary} (hReached : d.Reached)
    {request : Request} (hFixed : request.family? = none) {index : Nat}
    (hAdd : d.add request = (grown, .ok index)) :
    ∃ record, grown.getRecord request.kind index = .ok record ∧ record.index = index ∧
      record.key = request.key ∧
      (∀ (position reference : Nat) (table : String),
        request.indices[position]? = some reference →
          record.argIndex position table = if reference ≤ Numeral.maxInt64 then .ok reference
            else .error (.invalidReference table index position (Numeral.ofIndex reference))) ∧
      ∀ table : String, record.argIndices table = .ok request.indices ↔
        ∀ reference ∈ request.indices, reference ≤ Numeral.maxInt64 := by
  have hWords := hReached.le_maxIndex_of_grants (hReached.grants_of_add hAdd)
  have hArgs := Request.args_key hFixed
  refine ⟨_, getRecord_of_add hReached hAdd, rfl, rfl, ?_, ?_⟩
  · intro position reference table hReference
    refine Record.argIndex_ofIndex ?_ (hWords _ (List.mem_of_getElem? hReference)) table
    rw [hArgs, List.getElem?_map, hReference, Option.map_some]
  · exact fun table => Record.argIndices_eq_ok_iff hArgs hWords table

/-- The largest index that comes back, next to a small one. -/
theorem argIndices_add_largest :
    ∃ (document : Element) (d grown : Dictionary) (request : Request) (record : Record),
      document = ⟨rootName, [], Kind.all.map fun kind => ⟨kind.tableName, [],
        if kind = .attrParam then [⟨"n", [("ix", "9223372036854775807"), ("t", "aint")], []⟩,
          ⟨"n", [("ix", "4"), ("t", "astr,x")], []⟩] else []⟩⟩ ∧
      transitions.Run (new .standard) [.read document] d ∧ d.Reached ∧
      request = .namedAttribute "aligned" [4, 9223372036854775807] ∧ request.family? = none ∧
      d.add request = (grown, .ok 0) ∧ grown.getRecord .attribute 0 = .ok record ∧
      record.argIndices Kind.attribute.tableName = .ok [4, 9223372036854775807] := by
  have run := (Transitions.RunWithin.refl : transitions.Run (new .standard) [] _).step
    (.read ⟨rootName, [], Kind.all.map fun kind => ⟨kind.tableName, [],
      if kind = .attrParam then [⟨"n", [("ix", "9223372036854775807"), ("t", "aint")], []⟩,
        ⟨"n", [("ix", "4"), ("t", "astr,x")], []⟩] else []⟩⟩) (by decide +kernel) trivial
  obtain ⟨record, hRecord, -, -, -, hIndices⟩ := @argIndices_add_iff_of_reached _ _
    (reached_of_run run) (.namedAttribute "aligned" [4, 9223372036854775807]) rfl 0 rfl
  exact ⟨_, _, _, _, record, rfl, run, reached_of_run run, rfl, rfl, rfl, hRecord,
    (hIndices _).mpr (by decide)⟩

/-- The next index is accepted as well, by the document and by the attribute that refers
to it. What is stored of it is the smallest signed integer, and that refers to nothing. -/
theorem reference_above_signed_lost :
    ∃ (document : Element) (d grown : Dictionary) (record : Record),
      document = ⟨rootName, [], Kind.all.map fun kind => ⟨kind.tableName, [],
        if kind = .attrParam then [⟨"n", [("ix", "9223372036854775808"), ("t", "aint")], []⟩]
        else []⟩⟩ ∧
      transitions.Run (new .standard) [.read document] d ∧
      d.add (.namedAttribute "aligned" [9223372036854775808]) = (grown, .ok 0) ∧
      grown.getAttribute 0 = .ok ⟨record⟩ ∧ record.key.args = [Int64.minValue] ∧
      record.argIndex 0 Kind.attribute.tableName =
        .error (.invalidReference "attribute-table" 0 0 Int64.minValue) ∧
      record.argIndices Kind.attribute.tableName ≠ .ok [9223372036854775808] := by
  have run := (Transitions.RunWithin.refl : transitions.Run (new .standard) [] _).step
    (.read ⟨rootName, [], Kind.all.map fun kind => ⟨kind.tableName, [],
      if kind = .attrParam then [⟨"n", [("ix", "9223372036854775808"), ("t", "aint")], []⟩]
      else []⟩⟩) (by decide +kernel) trivial
  exact ⟨_, _, _, _, rfl, run, rfl, rfl, by decide +kernel, by decide +kernel, by decide +kernel⟩

end Dictionary

end ProgramIndex
