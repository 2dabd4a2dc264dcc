import ProgramIndex.Proofs.Dictionary.Registration
import ProgramIndex.Proofs.View.Mention

/-!
The operands of views: what a view's arguments refer to in the view's own table. Each argument
is settled by itself, whether it leads to the view, to another one or to nothing that can be
read, and the first of them that leads to nothing decides for all.
-/

namespace ProgramIndex

/-! ### Which arguments are operands -/

/-- The arguments of a record with this tag and so many arguments that refer to records of its
own table. -/
def Family.operandPositions : Family → String → Nat → List Nat
  | .attrParam, tag, arity =>
      if tag ∈ ["acons", "abinop", "aindex", "aquestion"] then List.range arity
      else if tag ∈ ["astar", "asizeofe", "aalignofe", "aunop", "adot", "aaddrof"] then [0] else []
  | .constant, _, _ => []
  | .exp, tag, _ =>
      if tag ∈ ["unop", "sizeofe", "alignofe"] then [0]
      else if tag = "binop" then [0, 1]
      else if tag = "question" then [0, 1, 2]
      else if tag = "caste" then [1] else []
  | .typ, tag, _ => if tag ∈ ["tptr", "tarray", "tfun"] then [0] else []

/-- What a view is built on: the parameters of a parameter of an attribute, the parts of an
expression or the type below a type, as far as there are any. -/
def View.operands (d : Dictionary) :
    {family : Family} → View family → Except Fault (List (Target family))
  | .attrParam, p =>
      match p.shape with
      | .cons => AttrParam.operands d p
      | .nary => AttrParam.operands d p
      | _ => (AttrParam.param? d p).map Option.toList
  | .constant, _ => .ok []
  | .exp, e => Exp.subexps d e
  | .typ, t =>
      match Typ.target? d t with
      | some target => target.map fun target => [target]
      | none => .ok []

theorem Dictionary.followAll_singleton {family : Family} (d : Dictionary) (view : View family)
    (position : Nat) :
    d.followAll view [position] = (d.follow view position).map fun target => [target] := by
  rw [followAll, List.mapM_cons, List.mapM_nil]
  cases d.follow view position <;> rfl

/-- The operands of a view are what comes of following the arguments that its shape names.
-/
theorem View.operands_eq_followAll {family : Family} (d : Dictionary) (view : View family) :
    view.operands d = d.followAll view view.operandPositions := by
  have hOne : ∀ position, ((d.follow view position).map some).map Option.toList =
      d.followAll view [position] := by
    intro position
    rw [d.followAll_singleton]
    cases d.follow view position <;> rfl
  cases family with
  | attrParam =>
      rw [operands, operandPositions]
      cases hShape : view.shape <;> simp only [AttrParam.param?, hShape]
      case cons => rfl
      case nary => rfl
      case unary => exact hOne 0
      case star => exact hOne 0
      all_goals rfl
  | constant => rfl
  | exp => rfl
  | typ =>
      rw [operands, operandPositions]
      cases hShape : view.shape <;> simp only [Typ.target?, hShape]
      case ptr => exact (d.followAll_singleton view 0).symm
      case array => exact (d.followAll_singleton view 0).symm
      case func => exact (d.followAll_singleton view 0).symm
      all_goals rfl

/-- Among the built-in variants, a tag tells which arguments are operands. -/
theorem View.operandPositions_of_standard {family : Family} {view : View family}
    (hShape : Registry.standard.shape? family view.record.tag = some view.shape) :
    view.operandPositions =
      family.operandPositions view.record.tag view.record.key.args.length := by
  have hEach : ∀ entry ∈ Registry.builtIn family, ∀ record : Record,
      View.operandPositions ⟨entry.2, record⟩ =
        family.operandPositions entry.1 record.key.args.length := by
    cases family <;>
      simp [Registry.builtIn, AttrParamShape.tagged, ExpShape.tagged, TypShape.tagged,
        ConstantShape.tagged, operandPositions, Exp.subexpPositions, Family.operandPositions]
  rw [Registry.shape?_standard] at hShape
  obtain ⟨earlier, later, hSplit, -⟩ := List.lookup_eq_some_iff.mp hShape
  exact hEach (view.record.tag, view.shape) (by simp [hSplit]) view.record

/-! ### What an argument leads to -/

theorem Record.isSelfReference_eq_decide {record : Record} {position : Nat} {arg : Int64}
    (hArg : record.key.args[position]? = some arg) :
    record.isSelfReference position = decide (arg.toInt = record.index) := by
  rw [isSelfReference, hArg, decide_eq_decide]
  omega

namespace Dictionary

/-- An argument of a record of the family is the record's own index, or the index of a record
of the family whose first tag is registered. -/
def Resolvable (d : Dictionary) (family : Family) (record : Record) (position : Nat) : Prop :=
  ∃ arg, record.key.args[position]? = some arg ∧
    (arg.toInt = record.index ∨ ∃ (index : Nat) (referred : Record), arg.toInt = index ∧
      (d.table family.kind).records[index]? = some referred ∧
        d.registry.isRegistered family referred.tag = true)

/-- A target is what an argument of a record refers to. -/
structure Leads (d : Dictionary) {family : Family} (record : Record) (position : Nat)
    (target : Target family) : Prop where
  arg_eq : ∃ arg, record.key.args[position]? = some arg ∧
    arg.toInt = target.view.record.index ∧ (target.isItself = true ↔ arg.toInt = record.index)
  stored : (d.table family.kind).records[target.view.record.index]? = some target.view.record
  get_eq : d.get family target.view.record.index = .ok target.view

/-- What is wrong with an argument that leads to nothing. -/
inductive OperandFault (d : Dictionary) (family : Family) (record : Record) (position : Nat) :
    Fault → Prop where
  | missing (hNone : record.key.args[position]? = none) :
      OperandFault d family record position
        (.malformedEntry family.tableName (.noArgument record.index record.tag position))
  | negative {arg : Int64} (hArg : record.key.args[position]? = some arg)
      (hNegative : arg.toInt < 0) :
      OperandFault d family record position
        (.invalidReference family.tableName record.index position arg)
  | unoccupied {arg : Int64} {index : Nat} (hArg : record.key.args[position]? = some arg)
      (hIndex : arg.toInt = index) (hFree : index ∉ (d.table family.kind).records) :
      OperandFault d family record position
        (.missingIndex family.tableName index (d.table family.kind).size)
  | unregistered {arg : Int64} {index : Nat} {referred : Record}
      (hArg : record.key.args[position]? = some arg) (hIndex : arg.toInt = index)
      (hReferred : (d.table family.kind).records[index]? = some referred)
      (hTag : d.registry.isRegistered family referred.tag = false) :
      OperandFault d family record position (.unknownVariant family referred.tag)

section

variable {d : Dictionary} {family : Family} {view : View family} {position index : Nat}
  {arg : Int64}

theorem follow_of_missing (hNone : view.record.key.args[position]? = none) :
    d.follow view position = .error (.malformedEntry family.tableName
      (.noArgument view.record.index view.record.tag position)) := by
  simp only [follow, Record.isSelfReference, getAt, Record.argIndex, Record.arg, hNone]
  rfl

/-- The own index is not looked up. -/
theorem follow_of_self (hArg : view.record.key.args[position]? = some arg)
    (hIndex : arg.toInt = view.record.index) : d.follow view position = .ok (.itself view) := by
  refine follow_self ?_
  rw [Record.isSelfReference_eq_decide hArg]
  exact decide_eq_true hIndex

theorem follow_of_negative (hArg : view.record.key.args[position]? = some arg)
    (hNegative : arg.toInt < 0) :
    d.follow view position =
      .error (.invalidReference family.tableName view.record.index position arg) := by
  have hOther : view.record.isSelfReference position = false := by
    rw [Record.isSelfReference_eq_decide hArg, decide_eq_false_iff_not]
    omega
  simp only [follow, hOther, getAt, Record.argIndex, Record.arg, hArg, bind, Except.bind,
    if_pos hNegative]
  rfl

/-- Any other index is looked up in the family. -/
theorem follow_of_index (hArg : view.record.key.args[position]? = some arg)
    (hIndex : arg.toInt = index) (hOther : index ≠ view.record.index) :
    d.follow view position = (d.get family index).map .other := by
  have hNotSelf : view.record.isSelfReference position = false := by
    rw [Record.isSelfReference_eq_decide hArg, decide_eq_false_iff_not]
    omega
  have hPositive : ¬ (index : Int) < 0 := by omega
  simp only [follow, hNotSelf, getAt, Record.argIndex, Record.arg, hArg, hIndex, bind,
    Except.bind, if_neg hPositive, Int.toNat_natCast]
  rfl

end

/-! ### One argument -/

section

variable {d : Dictionary} {family : Family} {view : View family}

/-- An argument that leads to a target is followed to it. -/
theorem Leads.follow {target : Target family} {position : Nat}
    (hGet : d.get family view.record.index = .ok view)
    (hLeads : d.Leads view.record position target) : d.follow view position = .ok target := by
  obtain ⟨⟨arg, hArg, hIndex, hItself⟩, -, hTarget⟩ := hLeads
  cases target with
  | itself other =>
      have hSelf : arg.toInt = view.record.index := hItself.mp rfl
      have hSame : other.record.index = view.record.index :=
        Int.natCast_inj.mp (hIndex.symm.trans hSelf)
      rw [follow_of_self hArg hSelf]
      rw [Target.view, hSame, hGet] at hTarget
      rw [Except.ok.inj hTarget]
  | other found =>
      have hOther : found.record.index ≠ view.record.index := fun hSame =>
        nomatch hItself.mpr (hIndex.trans (congrArg Nat.cast hSame))
      rw [follow_of_index hArg hIndex hOther, hTarget]
      rfl

/-- An argument with something wrong is not followed, for this reason. -/
theorem OperandFault.follow {fault : Fault} {position : Nat} (hBuilt : d.Built)
    (hGet : d.get family view.record.index = .ok view)
    (hFault : d.OperandFault family view.record position fault) :
    d.follow view position = .error fault := by
  obtain ⟨hStored, hShape⟩ := get_eq_ok_iff.mp hGet
  cases hFault with
  | missing hNone => exact follow_of_missing hNone
  | negative hArg hNegative => exact follow_of_negative hArg hNegative
  | @unoccupied arg index hArg hIndex hFree =>
      have hOther : index ≠ view.record.index := fun hSame =>
        hFree (Table.mem_records_iff.mpr ⟨view.record, by rw [hSame]; exact hStored⟩)
      rw [follow_of_index hArg hIndex hOther, get_eq_error_iff.mpr (.inl ⟨hFree, rfl⟩),
        hBuilt.name_eq]
      rfl
  | @unregistered arg index referred hArg hIndex hReferred hTag =>
      have hOther : index ≠ view.record.index := by
        rintro rfl
        rw [Option.some.inj (hReferred.symm.trans hStored), Registry.isRegistered, hShape] at hTag
        cases hTag
      rw [follow_of_index hArg hIndex hOther,
        get_eq_error_iff.mpr (.inr ⟨referred, hReferred, hTag, rfl⟩)]
      rfl

/-- An argument leads somewhere or there is something wrong with it. -/
theorem leads_or_fault (hBuilt : d.Built)
    (hGet : d.get family view.record.index = .ok view) (position : Nat) :
    (∃ target : Target family, d.Leads view.record position target) ∨
      ∃ fault, d.OperandFault family view.record position fault := by
  cases hArg : view.record.key.args[position]? with
  | none => exact .inr ⟨_, .missing hArg⟩
  | some arg =>
      -- The view's own index is asked for first, so it need not be told from other indices.
      by_cases hSelf : arg.toInt = view.record.index
      · exact .inl ⟨.itself view, ⟨arg, hArg, hSelf, iff_of_true rfl hSelf⟩,
          (get_eq_ok_iff.mp hGet).1, hGet⟩
      · by_cases hNegative : arg.toInt < 0
        · exact .inr ⟨_, .negative hArg hNegative⟩
        · obtain ⟨index, hIndex⟩ := Int.eq_ofNat_of_zero_le (Int.not_lt.mp hNegative)
          cases hFound : d.get family index with
          | ok found =>
              obtain ⟨hStored, -⟩ := get_eq_ok_iff.mp hFound
              obtain rfl := (hBuilt.indexed family.kind).index_eq index _ hStored
              exact .inl ⟨.other found, ⟨arg, hArg, hIndex, iff_of_false nofun hSelf⟩, hStored,
                hFound⟩
          | error fault =>
              obtain ⟨hFree, -⟩ | ⟨referred, hStored, hTag, -⟩ := get_eq_error_iff.mp hFound
              · exact .inr ⟨_, .unoccupied hArg hIndex hFree⟩
              · exact .inr ⟨_, .unregistered hArg hIndex hStored hTag⟩

/-- As every argument leads somewhere or has something wrong with it, each is followed
exactly to what it leads to. -/
theorem follow_eq_ok_iff (hBuilt : d.Built)
    (hGet : d.get family view.record.index = .ok view) {position : Nat} {target : Target family} :
    d.follow view position = .ok target ↔ d.Leads view.record position target := by
  refine ⟨fun hFollow => ?_, Leads.follow hGet⟩
  obtain ⟨other, hLeads⟩ | ⟨fault, hFault⟩ := leads_or_fault hBuilt hGet position
  · obtain rfl := Except.ok.inj (hFollow.symm.trans (hLeads.follow hGet))
    exact hLeads
  · cases hFollow.symm.trans (hFault.follow hBuilt hGet)

/-- And it fails exactly for what is wrong with it. -/
theorem follow_eq_error_iff (hBuilt : d.Built)
    (hGet : d.get family view.record.index = .ok view) {position : Nat} {fault : Fault} :
    d.follow view position = .error fault ↔ d.OperandFault family view.record position fault := by
  refine ⟨fun hFollow => ?_, OperandFault.follow hBuilt hGet⟩
  obtain ⟨target, hLeads⟩ | ⟨other, hFault⟩ := leads_or_fault hBuilt hGet position
  · cases hFollow.symm.trans (hLeads.follow hGet)
  · obtain rfl := Except.error.inj (hFollow.symm.trans (hFault.follow hBuilt hGet))
    exact hFault

/-- An argument can be followed exactly if it is resolvable. -/
theorem exists_follow_iff (hBuilt : d.Built)
    (hGet : d.get family view.record.index = .ok view) {position : Nat} :
    (∃ target, d.follow view position = .ok target) ↔
      d.Resolvable family view.record position := by
  constructor
  · rintro ⟨target, hTarget⟩
    obtain ⟨⟨arg, hArg, hIndex, -⟩, hStored, hFound⟩ :=
      (follow_eq_ok_iff hBuilt hGet).mp hTarget
    obtain ⟨-, hShape⟩ := get_eq_ok_iff.mp hFound
    refine ⟨arg, hArg, .inr ⟨_, _, hIndex, hStored, ?_⟩⟩
    rw [Registry.isRegistered, hShape]
    rfl
  · rintro ⟨arg, hArg, hSelf | ⟨index, referred, hIndex, hStored, hTag⟩⟩
    · exact ⟨_, follow_of_self hArg hSelf⟩
    · by_cases hSame : index = view.record.index
      · exact ⟨_, follow_of_self hArg (by rw [hIndex, hSame])⟩
      · obtain ⟨shape, -, hFound⟩ := get_eq_ok hStored hTag
        refine ⟨.other ⟨shape, referred⟩, ?_⟩
        rw [follow_of_index hArg hIndex hSame, hFound]
        rfl

end

/-! ### All operands -/

/-- What comes of following some arguments of a record: what each of them refers to, in their
order, or what is wrong with the first of them that refers to nothing. -/
structure Delivers (d : Dictionary) (family : Family) (record : Record) (positions : List Nat)
    (attempt : Except Fault (List (Target family))) : Prop where
  exists_iff : (∃ targets, attempt = .ok targets) ↔
    ∀ position ∈ positions, d.Resolvable family record position
  ok_iff : ∀ targets, attempt = .ok targets ↔
    List.Forall₂ (d.Leads record) positions targets
  error_iff : ∀ fault, attempt = .error fault ↔
    ∃ earlier position later, positions = earlier ++ position :: later ∧
      (∀ other ∈ earlier, d.Resolvable family record other) ∧
        d.OperandFault family record position fault

/-- By the lemmas about lists of attempts the same holds of several arguments at once. -/
theorem delivers_followAll {d : Dictionary} (hBuilt : d.Built) {family : Family}
    {view : View family} (hGet : d.get family view.record.index = .ok view)
    (positions : List Nat) :
    d.Delivers family view.record positions (d.followAll view positions) where
  exists_iff := by
    simp only [followAll, exists_mapM_ok_iff, exists_follow_iff hBuilt hGet]
  ok_iff targets := by
    simp only [followAll, mapM_eq_ok_iff_forall₂, follow_eq_ok_iff hBuilt hGet]
  error_iff fault := by
    simp only [followAll, mapM_eq_error_iff, exists_follow_iff hBuilt hGet,
      follow_eq_error_iff hBuilt hGet]

end Dictionary

/-- A view that has been read at an index of a dictionary, whatever has been done to it before.
Its tag says which arguments are operands. They are found exactly if each of them is there and
is the view's own index or that of a record of the same table whose tag is registered. -/
theorem View.delivers_operands {d : Dictionary} (hBuilt : d.Built)
    (hStandard : d.registry = .standard) {family : Family} {index : Nat} {view : View family}
    (hGet : d.get family index = .ok view) :
    view.record.index = index ∧
      d.Delivers family view.record
        (family.operandPositions view.record.tag view.record.key.args.length)
        (view.operands d) := by
  obtain ⟨hStored, hShape⟩ := Dictionary.get_eq_ok_iff.mp hGet
  have hIndex := (hBuilt.indexed family.kind).index_eq index _ hStored
  rw [hStandard] at hShape
  rw [← View.operandPositions_of_standard hShape, view.operands_eq_followAll]
  exact ⟨hIndex, Dictionary.delivers_followAll hBuilt (by rw [hIndex]; exact hGet) _⟩

/-- A conditional expression that is a part of itself and lacks another part, and a parameter
that holds itself and an integer. -/
theorem View.delivers_operands_mixed :
    ∃ (d : Dictionary) (question : View .exp) (list : View .attrParam),
      Dictionary.wrapping.Run (.new .standard)
        [.index .exp ⟨["question"], [0, 1]⟩, .index .exp ⟨["const"], [-1]⟩,
          .index .attrParam ⟨["acons", "f"], [1, 0]⟩, .index .attrParam ⟨["aint"], [-7]⟩] d ∧
      d.Built ∧ d.registry = .standard ∧
      d.get .exp 1 = .ok question ∧ d.get .attrParam 1 = .ok list ∧
      question.operands d =
        .error (.malformedEntry "exp-table" (.noArgument 1 "question" 2)) ∧
      list.operands d = .ok [.itself list, .other ⟨.int, ⟨0, ⟨["aint"], [-7]⟩⟩⟩] ∧
      d.Delivers .exp question.record [0, 1, 2] (question.operands d) ∧
      d.Delivers .attrParam list.record [0, 1] (list.operands d) := by
  have run := ((((Transitions.RunWithin.refl :
    Dictionary.wrapping.Run (.new .standard) [] _).step
    (.index .attrParam ⟨["aint"], [-7]⟩) trivial trivial).step
    (.index .attrParam ⟨["acons", "f"], [1, 0]⟩) trivial trivial).step
    (.index .exp ⟨["const"], [-1]⟩) trivial trivial).step
    (.index .exp ⟨["question"], [0, 1]⟩) trivial trivial
  have hBuilt := Dictionary.built_of_run run
  generalize hDict : Dictionary.wrapping.perform _ _ = d at run hBuilt
  have hStandard : d.registry = .standard := by
    rw [← hDict]
    rfl
  have hQuestion : d.get .exp 1 = .ok ⟨.question, ⟨1, ⟨["question"], [0, 1]⟩⟩⟩ := by
    rw [← hDict]
    rfl
  have hList : d.get .attrParam 1 = .ok ⟨.cons, ⟨1, ⟨["acons", "f"], [1, 0]⟩⟩⟩ := by
    rw [← hDict]
    rfl
  refine ⟨d, _, _, run, hBuilt, hStandard, hQuestion, hList, ?_, ?_,
    (View.delivers_operands hBuilt hStandard hQuestion).2,
    (View.delivers_operands hBuilt hStandard hList).2⟩
  · rw [← hDict]
    rfl
  · rw [← hDict]
    rfl

end ProgramIndex
