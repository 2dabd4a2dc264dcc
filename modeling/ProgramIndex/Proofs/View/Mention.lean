import ProgramIndex.Proofs.Attempts
import ProgramIndex.Proofs.Dictionary.Reachability
import ProgramIndex.View.Rendering

/-!
What the views of a dictionary mention. A layout mentions other views where it puts their
texts in. Each of them is what an argument of the view's record refers to, and none of them
is the view itself: its own index is never followed.
-/

namespace ProgramIndex

/-! ### Pieces -/

namespace Piece

/-- A condition on the item in a piece, and one on the fault in it, shown or not. -/
def Admits (onItem : Item → Prop) (onFault : Fault → Prop) : Piece → Prop
  | .text _ => True
  | .item i => onItem i
  | .fault f => onFault f
  | .unseen f => onFault f

/-- All items and all faults in a layout satisfy a condition each. -/
def AllAdmit (onItem : Item → Prop) (onFault : Fault → Prop) (layout : List Piece) : Prop :=
  ∀ piece ∈ layout, piece.Admits onItem onFault

section

variable {onItem : Item → Prop} {onFault : Fault → Prop}

instance [DecidablePred onItem] [DecidablePred onFault] : DecidablePred (Admits onItem onFault)
  | .text _ => isTrue trivial
  | .item i => inferInstanceAs (Decidable (onItem i))
  | .fault f => inferInstanceAs (Decidable (onFault f))
  | .unseen f => inferInstanceAs (Decidable (onFault f))

instance [DecidablePred onItem] [DecidablePred onFault] (layout : List Piece) :
    Decidable (AllAdmit onItem onFault layout) :=
  inferInstanceAs (Decidable (∀ piece ∈ layout, piece.Admits onItem onFault))

@[simp] theorem allAdmit_nil : AllAdmit onItem onFault [] := nofun

@[simp] theorem allAdmit_cons {piece : Piece} {rest : List Piece} :
    AllAdmit onItem onFault (piece :: rest) ↔
      piece.Admits onItem onFault ∧ AllAdmit onItem onFault rest :=
  List.forall_mem_cons

@[simp] theorem allAdmit_append {first second : List Piece} :
    AllAdmit onItem onFault (first ++ second) ↔
      AllAdmit onItem onFault first ∧ AllAdmit onItem onFault second :=
  List.forall_mem_append

@[simp] theorem admits_text (s : String) : (Piece.text s).Admits onItem onFault := trivial

@[simp] theorem admits_item {i : Item} : (Piece.item i).Admits onItem onFault ↔ onItem i :=
  Iff.rfl

@[simp] theorem admits_fault {f : Fault} : (Piece.fault f).Admits onItem onFault ↔ onFault f :=
  Iff.rfl

@[simp] theorem admits_unseen {f : Fault} : (Piece.unseen f).Admits onItem onFault ↔ onFault f :=
  Iff.rfl

@[simp] theorem allAdmit_call {head : String} {inside : List Piece} :
    AllAdmit onItem onFault (call head inside) ↔ AllAdmit onItem onFault inside := by
  simp [call]

@[simp] theorem allAdmit_int64 (i : Int64) : AllAdmit onItem onFault (int64 i) := by
  simp [int64]

@[simp] theorem allAdmit_ofView {family : Family} {view : View family} :
    AllAdmit onItem onFault (ofView view) ↔ onItem (.view family view) := by
  simp [ofView]

/-- A reference to oneself is shown without the item itself. -/
@[simp] theorem allAdmit_ofTarget {family : Family} {target : Target family} :
    AllAdmit onItem onFault (ofTarget target) ↔
      ∀ view, target = .other view → onItem (.view family view) := by
  cases target <;> simp [ofTarget]

/-- What is shown of an attempt is its value or its fault. -/
theorem allAdmit_shown {α : Type} {result : Except Fault α} {pieces : α → List Piece} :
    AllAdmit onItem onFault (shown result pieces) ↔
      (∀ value, result = .ok value → AllAdmit onItem onFault (pieces value)) ∧
        ∀ fault, result = .error fault → onFault fault := by
  cases result <;> simp [shown]

/-- The text between parts of a layout mentions nothing. -/
@[simp] theorem allAdmit_separated {between : String} {layouts : List (List Piece)} :
    AllAdmit onItem onFault (separated between layouts) ↔
      ∀ layout ∈ layouts, AllAdmit onItem onFault layout := by
  rw [separated, List.intercalate]
  induction layouts with
  | nil => simp
  | cons first rest ih =>
      cases rest with
      | nil => simp
      | cons second others => simpa using fun _ => ih

end

theorem mem_call {piece : Piece} {head : String} {inside : List Piece} (hMem : piece ∈ inside) :
    piece ∈ call head inside :=
  List.mem_append_left _ (List.mem_cons_of_mem _ hMem)

/-- A piece of a part is a piece of the whole. -/
theorem mem_separated {piece : Piece} {between : String} {layout : List Piece}
    {layouts : List (List Piece)} (hLayout : layout ∈ layouts) (hMem : piece ∈ layout) :
    piece ∈ separated between layouts := by
  rw [separated, List.intercalate]
  induction layouts with
  | nil => cases hLayout
  | cons first rest ih =>
      cases rest with
      | nil => simpa [List.mem_singleton.mp hLayout] using hMem
      | cons second others =>
          rcases List.mem_cons.mp hLayout with rfl | hLater
          · simp [hMem]
          · simpa using Or.inr (Or.inr (ih hLater))

end Piece

open Piece

/-! ### Items -/

namespace Item

def kind : Item → Kind
  | .view family _ => family.kind
  | .attribute _ => .attribute
  | .attributes _ => .attributes
  | .funArg _ => .funArg
  | .funArgs _ => .funArgs

/-- The record that an item is read from. -/
def record : Item → Record
  | .view _ shown => shown.record
  | .attribute a => a.record
  | .attributes list => list.record
  | .funArg arg => arg.record
  | .funArgs list => list.record

end Item

/-- Read the record at an index of a kind's table. -/
def Dictionary.item (d : Dictionary) : Kind → Nat → Except Fault Item
  | .attrParam, index => (d.get .attrParam index).map (.view .attrParam)
  | .attribute, index => (d.getAttribute index).map .attribute
  | .attributes, index => (d.getAttributes index).map .attributes
  | .constant, index => (d.get .constant index).map (.view .constant)
  | .exp, index => (d.get .exp index).map (.view .exp)
  | .funArg, index => (d.getFunArg index).map .funArg
  | .funArgs, index => (d.getFunArgs index).map .funArgs
  | .typ, index => (d.get .typ index).map (.view .typ)

/-- The layout of an item puts the text of another one in. -/
def Item.Mentions (d : Dictionary) (i j : Item) : Prop :=
  Piece.item j ∈ i.layout d

/-- An argument of an item's record is the index of another item. The place where the item
itself comes from is not meant. -/
def Item.Refers (d : Dictionary) (i j : Item) : Prop :=
  ∃ kind position index, i.record.argIndex position kind.tableName = .ok index ∧
    d.item kind index = .ok j ∧ ¬ (kind = i.kind ∧ index = i.record.index)

/-- An argument refers to its own record if it is the index of it. -/
theorem Record.isSelfReference_iff {record : Record} {position index : Nat} {table : String}
    (hArg : record.argIndex position table = .ok index) :
    record.isSelfReference position = true ↔ index = record.index := by
  rw [isSelfReference]
  cases hAt : record.key.args[position]? with
  | none => simp [argIndex, arg, hAt, bind, Except.bind] at hArg
  | some value =>
      simp only [argIndex, arg, hAt, bind, Except.bind] at hArg
      split at hArg
      · cases hArg
      · rw [← Except.ok.inj hArg]
        simp only [decide_eq_true_eq]
        omega

/-- An optional index that is there is read like any other index. -/
theorem Record.argIndex_of_optArgIndex {record : Record} {position index : Nat} {table : String}
    (hArg : record.optArgIndex position table = .ok (some index)) :
    record.argIndex position table = .ok index := by
  obtain ⟨value, -, hOpt⟩ := bind_eq_ok_iff.mp hArg
  split at hOpt
  · cases hOpt
  · obtain ⟨found, hFound, hIndex⟩ := map_eq_ok_iff.mp hOpt
    rw [hFound, Option.some.inj hIndex]

/-- The items of a family are its views. -/
theorem Dictionary.item_kind (d : Dictionary) (family : Family) (index : Nat) :
    d.item family.kind index = (d.get family index).map (.view family) := by
  cases family <;> rfl

/-! ### References -/

section

variable {d : Dictionary}

/-- A reference into the table of another kind. -/
theorem Item.refers_of_item {i j : Item} (kind : Kind) {position index : Nat}
    (hKind : kind ≠ i.kind) (hArg : i.record.argIndex position kind.tableName = .ok index)
    (hItem : d.item kind index = .ok j) : i.Refers d j :=
  ⟨kind, position, index, hArg, hItem, fun hSame => hKind hSame.1⟩

/-- An item that is fetched through an argument is referred to by it. -/
theorem Item.refers_of_getAt {i : Item} {family : Family} {view : View family} {position : Nat}
    (hKind : family.kind ≠ i.kind) (hGet : d.getAt family i.record position = .ok view) :
    i.Refers d (.view family view) := by
  obtain ⟨index, hArg, hGet⟩ := bind_eq_ok_iff.mp hGet
  exact refers_of_item family.kind hKind hArg (by rw [d.item_kind, hGet]; rfl)

/-- A reference into the item's own table is followed only where it is not the item's index. -/
theorem Item.refers_of_follow {family : Family} {view other : View family} {position : Nat}
    (hFollow : d.follow view position = .ok (.other other)) :
    (Item.view family view).Refers d (.view family other) := by
  rw [Dictionary.follow] at hFollow
  split at hFollow
  · cases hFollow
  · rename_i hSelf
    obtain ⟨found, hGet, hOther⟩ := map_eq_ok_iff.mp hFollow
    obtain ⟨index, hArg, hGet⟩ := bind_eq_ok_iff.mp hGet
    cases hOther
    refine ⟨family.kind, position, index, hArg, by rw [d.item_kind, hGet]; rfl, ?_⟩
    rintro ⟨-, hIndex⟩
    exact hSelf ((Record.isSelfReference_iff hArg).mpr hIndex)

/-- All items in a layout are what a given item refers to. -/
abbrev Item.Covers (d : Dictionary) (i : Item) (layout : List Piece) : Prop :=
  AllAdmit (i.Refers d) (fun _ => True) layout

/-- A layout that shows an attempt covers what the value would show. -/
theorem Item.covers_shown {i : Item} {α : Type} {result : Except Fault α} {pieces : α → List Piece}
    (hOk : ∀ value, result = .ok value → i.Covers d (pieces value)) :
    i.Covers d (shown result pieces) :=
  allAdmit_shown.mpr ⟨hOk, fun _ _ => trivial⟩

/-- Fetching through an argument shows nothing but what the argument refers to. -/
theorem Item.covers_getAt {i : Item} {family : Family} {position : Nat}
    (hKind : family.kind ≠ i.kind) :
    i.Covers d (shown (d.getAt family i.record position) ofView) :=
  covers_shown fun _ hGet => allAdmit_ofView.mpr (refers_of_getAt hKind hGet)

/-- Following an argument leads to what it refers to, or to the view itself. -/
theorem Item.covers_ofTarget {family : Family} {view : View family} {target : Target family}
    {position : Nat} (hFollow : d.follow view position = .ok target) :
    (Item.view family view).Covers d (ofTarget target) := by
  rw [Covers, allAdmit_ofTarget]
  rintro other rfl
  exact refers_of_follow hFollow

/-- So what is shown of an argument that is followed is referred to. -/
theorem Item.covers_follow {family : Family} {view : View family} (position : Nat) :
    (Item.view family view).Covers d (shown (d.follow view position) ofTarget) :=
  covers_shown fun _ => covers_ofTarget

end

/-! ### Layouts -/

section

variable (d : Dictionary)

/-- Every shape of a parameter shows nothing but what its arguments refer to. -/
theorem AttrParam.covers_layout (p : AttrParam) :
    (Item.view .attrParam p).Covers d (AttrParam.layout d p) := by
  have hOperand : AllAdmit ((Item.view .attrParam p).Refers d) (fun _ => True)
      (shown (p.operand d) ofTarget) := Item.covers_follow 0
  have hOperands : ∀ targets, p.operands d = .ok targets → ∀ layout ∈ targets.map ofTarget,
      (Item.view .attrParam p).Covers d layout := by
    intro targets hTargets layout hMem
    obtain ⟨target, hTarget, rfl⟩ := List.mem_map.mp hMem
    obtain ⟨position, -, hFollow⟩ := (mem_of_mapM hTargets).mp hTarget
    exact Item.covers_ofTarget hFollow
  rw [AttrParam.layout]
  cases p.shape with
  | int => simp [allAdmit_shown]
  | str => simp
  | cons =>
      refine allAdmit_call.mpr (allAdmit_cons.mpr ⟨trivial, Item.covers_shown ?_⟩)
      exact fun targets hTargets => allAdmit_separated.mpr (hOperands targets hTargets)
  | typeOp => exact allAdmit_call.mpr (Item.covers_getAt nofun)
  | unary =>
      dsimp only
      split_ifs <;> simpa using hOperand
  | star =>
      dsimp only
      split
      · simp
      · exact allAdmit_call.mpr hOperand
  | nary =>
      refine allAdmit_call.mpr (Item.covers_shown fun targets hTargets => ?_)
      have hAll := hOperands targets hTargets
      -- The operands are put between different texts, depending on the tag and their number.
      generalize targets.map ofTarget = operands at hAll ⊢
      split
      · simpa using hAll
      · simpa using hAll
      · simpa using hAll
      · exact allAdmit_separated.mpr hAll
  | custom name => simp

/-- An attribute shows nothing but its parameters. -/
theorem Attribute.covers_layout (a : Attribute) :
    (Item.attribute a).Covers d (a.layout d) := by
  refine allAdmit_cons.mpr ⟨trivial, Item.covers_shown fun params hParams => ?_⟩
  rw [Item.Covers, allAdmit_separated, List.forall_mem_map]
  intro param hMem
  obtain ⟨position, -, hGet⟩ := (mem_of_mapM hParams).mp hMem
  exact allAdmit_ofView.mpr (Item.refers_of_getAt nofun hGet)

/-- A list of attributes shows nothing but its members. -/
theorem Attributes.covers_layout (list : Attributes) :
    (Item.attributes list).Covers d (list.layout d) := by
  rw [Attributes.layout]
  split
  · rename_i attributes hAttributes
    rw [Item.Covers, allAdmit_separated, List.forall_mem_map]
    intro a hMem
    obtain ⟨position, -, hGet⟩ := (mem_of_mapM hAttributes).mp hMem
    obtain ⟨index, hArg, hGet⟩ := bind_eq_ok_iff.mp hGet
    have hRefers : (Item.attributes list).Refers d (.attribute a) :=
      Item.refers_of_item .attribute nofun hArg (by rw [Dictionary.item, hGet]; rfl)
    simpa using hRefers
  · simp

/-- A constant shows the expression of an enumerator at most. -/
theorem Constant.covers_layout (c : Constant) :
    (Item.view .constant c).Covers d (c.layout d) := by
  rw [Constant.layout]
  cases c.shape with
  | str => dsimp only; split <;> simp
  | chr => simp [allAdmit_shown]
  | enum => exact allAdmit_call.mpr (Item.covers_getAt nofun)
  | _ => simp

/-- An expression shows nothing but its parts, its constant and its type. -/
theorem Exp.covers_layout (e : Exp) : (Item.view .exp e).Covers d (e.layout d) := by
  have hPart : ∀ position, AllAdmit ((Item.view .exp e).Refers d) (fun _ => True)
      (e.partLayout d position) := fun position => Item.covers_follow position
  have hTyp : AllAdmit ((Item.view .exp e).Refers d) (fun _ => True)
      (shown (e.typ d) ofView) := Item.covers_getAt nofun
  rw [Exp.layout]
  cases e.shape with
  | const => exact Item.covers_getAt nofun
  | _ => simp [hPart, hTyp]

/-- Around a type there are its attributes. -/
theorem Typ.covers_withAttributes {t : Typ} {layout : List Piece}
    (hLayout : (Item.view .typ t).Covers d layout) :
    (Item.view .typ t).Covers d (t.withAttributes d layout) := by
  rw [Typ.withAttributes]
  split
  · rename_i attributes hAttributes
    split
    · exact hLayout
    · obtain ⟨index, hArg, hGet⟩ := bind_eq_ok_iff.mp hAttributes
      have hRefers : (Item.view .typ t).Refers d (.attributes attributes) :=
        Item.refers_of_item .attributes nofun hArg (by rw [Dictionary.item, hGet]; rfl)
      simpa [hLayout] using hRefers
  · simp [hLayout]

/-- The size of an array is an expression that the type refers to. -/
theorem Typ.refers_of_arraySize {t : Typ} {e : Exp} (hSize : t.arraySize d = .ok (some e)) :
    (Item.view .typ t).Refers d (.view .exp e) := by
  obtain ⟨index?, hArg, hGet⟩ := bind_eq_ok_iff.mp hSize
  cases index? with
  | none => cases hGet
  | some index =>
      obtain ⟨view, hView, hSame⟩ := map_eq_ok_iff.mp hGet
      cases hSame
      exact Item.refers_of_item .exp nofun (Record.argIndex_of_optArgIndex hArg)
        (by rw [Dictionary.item, hView]; rfl)

/-- The parameters of a function are a list that the type refers to. -/
theorem Typ.refers_of_funArgs {t : Typ} {list : FunArgs} (hArgs : t.funArgs d = .ok (some list)) :
    (Item.view .typ t).Refers d (.funArgs list) := by
  obtain ⟨index?, hArg, hGet⟩ := bind_eq_ok_iff.mp hArgs
  cases index? with
  | none => cases hGet
  | some index =>
      obtain ⟨found, hFound, hSame⟩ := map_eq_ok_iff.mp hGet
      cases hSame
      exact Item.refers_of_item .funArgs nofun (Record.argIndex_of_optArgIndex hArg)
        (by rw [Dictionary.item, hFound]; rfl)

theorem Typ.covers_bareLayout (t : Typ) : (Item.view .typ t).Covers d (t.bareLayout d) := by
  have hInner : AllAdmit ((Item.view .typ t).Refers d) (fun _ => True)
      (shown (t.inner d) ofTarget) := Item.covers_follow 0
  rw [Typ.bareLayout]
  cases t.shape with
  | basic => dsimp only; split_ifs <;> simp
  | ptr => simp [hInner]
  | array =>
      refine allAdmit_append.mpr ⟨allAdmit_append.mpr ⟨hInner, allAdmit_cons.mpr ⟨trivial, ?_⟩⟩, ?_⟩
      · refine Item.covers_shown fun size? hSize => ?_
        cases size? with
        | none => simp
        | some e => simpa using Typ.refers_of_arraySize d hSize
      · simp
  | func =>
      have hArgs : ∀ pieces : Option FunArgs → List Piece, pieces none = [] →
          (∀ list, pieces (some list) = [.item (.funArgs list)]) →
            (Item.view .typ t).Covers d (shown (t.funArgs d) pieces) := by
        intro pieces hNone hSome
        refine Item.covers_shown fun list? hList => ?_
        cases list? with
        | none => simp [hNone]
        | some list => simpa [hSome] using Typ.refers_of_funArgs d hList
      refine allAdmit_append.mpr ⟨allAdmit_call.mpr hInner, allAdmit_call.mpr ?_⟩
      split
      · exact allAdmit_append.mpr ⟨hArgs _ rfl fun _ => rfl, by simp⟩
      · exact hArgs _ rfl fun _ => rfl
  | comp => simp [allAdmit_shown]
  | custom name => simp

/-- A type shows nothing but what it is made of and its attributes. -/
theorem Typ.covers_layout (t : Typ) : (Item.view .typ t).Covers d (t.layout d) := by
  rw [Typ.layout]
  split
  · exact t.covers_bareLayout d
  · exact covers_withAttributes d (t.covers_bareLayout d)

/-- A parameter of a function shows nothing but its type. -/
theorem FunArg.covers_layout (arg : FunArg) : (Item.funArg arg).Covers d (arg.layout d) :=
  allAdmit_append.mpr ⟨Item.covers_getAt nofun, by simp⟩

/-- A list of parameters shows nothing but its members. -/
theorem FunArgs.covers_layout (list : FunArgs) : (Item.funArgs list).Covers d (list.layout d) := by
  refine Item.covers_shown fun args hArgs => ?_
  rw [Item.Covers, allAdmit_separated, List.forall_mem_map]
  intro arg hMem
  obtain ⟨position, -, hGet⟩ := (mem_of_mapM hArgs).mp hMem
  obtain ⟨index, hArg, hGet⟩ := bind_eq_ok_iff.mp hGet
  have hRefers : (Item.funArgs list).Refers d (.funArg arg) :=
    Item.refers_of_item .funArg nofun hArg (by rw [Dictionary.item, hGet]; rfl)
  simpa using hRefers

/-- No item mentions what it does not refer to. -/
theorem Item.covers_layout : (i : Item) → i.Covers d (i.layout d)
  | .view .attrParam p => AttrParam.covers_layout d p
  | .view .constant c => Constant.covers_layout d c
  | .view .exp e => Exp.covers_layout d e
  | .view .typ t => Typ.covers_layout d t
  | .attribute a => a.covers_layout d
  | .attributes list => list.covers_layout d
  | .funArg arg => arg.covers_layout d
  | .funArgs list => list.covers_layout d

/-- What a layout mentions is what an argument refers to, and not the item itself. -/
theorem Item.Mentions.refers {i j : Item} (hMention : i.Mentions d j) : i.Refers d j :=
  i.covers_layout d _ hMention

end

/-! ### References to oneself -/

/-- The arguments that a view shows as references into its own table. -/
def View.operandPositions : {family : Family} → View family → List Nat
  | .attrParam, p =>
      match p.shape with
      | .cons => List.range p.record.key.args.length
      | .nary => List.range p.record.key.args.length
      | .unary => [0]
      | .star => [0]
      | _ => []
  | .constant, _ => []
  | .exp, e => Exp.subexpPositions e
  | .typ, t =>
      match t.shape with
      | .ptr => [0]
      | .array => [0]
      | .func => [0]
      | _ => []

/-- Whether a view shows a fault in the place of all its operands, which some parameters of
attributes do if one operand cannot be followed. -/
def View.Withholds (d : Dictionary) : {family : Family} → View family → Prop
  | .attrParam, p =>
      (p.shape = .cons ∨ p.shape = .nary) ∧ ∃ fault, AttrParam.operands d p = .error fault
  | .constant, _ => False
  | .exp, _ => False
  | .typ, _ => False

section

variable {d : Dictionary} {position : Nat}

/-- An argument that refers to its own record is not followed any further. -/
theorem Dictionary.follow_self {family : Family} {view : View family}
    (hSelf : view.record.isSelfReference position = true) :
    d.follow view position = .ok (.itself view) :=
  if_pos hSelf

/-- Operands that can all be followed are all shown, the view itself among them. -/
theorem AttrParam.self_mem_operands {p : AttrParam} (hSome : ¬ ∃ fault, p.operands d = .error fault)
    (hBound : position < p.record.key.args.length)
    (hSelf : p.record.isSelfReference position = true) :
    ∃ targets, p.operands d = .ok targets ∧ [Piece.text "self"] ∈ targets.map ofTarget := by
  cases hOperands : p.operands d with
  | error fault => exact absurd ⟨fault, hOperands⟩ hSome
  | ok targets =>
      refine ⟨targets, rfl, List.mem_map.mpr ⟨.itself p, ?_, rfl⟩⟩
      exact (mem_of_mapM hOperands).mpr
        ⟨position, List.mem_range.mpr hBound, Dictionary.follow_self hSelf⟩

/-- A parameter shows its reference to itself by a word, unless it withholds its operands.
-/
theorem AttrParam.self_shown {p : AttrParam} (hMem : position ∈ View.operandPositions p)
    (hSelf : p.record.isSelfReference position = true) (hShown : ¬ View.Withholds d p) :
    Piece.text "self" ∈ AttrParam.layout d p ∨ AttrParam.layout d p = call "astar" [] := by
  have hOperand : p.record.isSelfReference 0 = true →
      shown (p.operand d) ofTarget = [.text "self"] := fun hZero => by
    rw [operand, Dictionary.follow_self hZero]
    rfl
  rw [View.operandPositions] at hMem
  rw [AttrParam.layout]
  cases hShape : p.shape <;>
    simp only [hShape, List.not_mem_nil, List.mem_singleton, List.mem_range] at hMem ⊢
  case cons =>
    obtain ⟨targets, hTargets, hItself⟩ :=
      self_mem_operands (fun hNone => hShown ⟨.inl hShape, hNone⟩) hMem hSelf
    rw [hTargets]
    exact .inl (mem_call (List.mem_cons_of_mem _ (mem_separated hItself List.mem_cons_self)))
  case unary =>
    subst hMem
    left
    split_ifs <;> simp [hOperand hSelf, call]
  case star =>
    subst hMem
    exact .inr (if_pos hSelf)
  case nary =>
    obtain ⟨targets, hTargets, hItself⟩ :=
      self_mem_operands (fun hNone => hShown ⟨.inr hShape, hNone⟩) hMem hSelf
    rw [hTargets]
    refine .inl (mem_call ?_)
    simp only [shown]
    generalize targets.map ofTarget = operands at hItself ⊢
    split
    case h_4 => exact mem_separated hItself List.mem_cons_self
    all_goals simp only [List.mem_cons, List.not_mem_nil, or_false] at hItself
    case h_3 => rcases hItself with rfl | rfl | rfl <;> simp
    all_goals rcases hItself with rfl | rfl <;> simp

/-- So does an expression. -/
theorem Exp.self_shown {e : Exp} (hMem : position ∈ e.subexpPositions)
    (hSelf : e.record.isSelfReference position = true) : Piece.text "self" ∈ e.layout d := by
  have hPart : e.partLayout d position = [.text "self"] := by
    rw [partLayout, Dictionary.follow_self hSelf]
    rfl
  rw [subexpPositions] at hMem
  rw [Exp.layout]
  cases hShape : e.shape <;>
    simp only [hShape, List.mem_cons, List.not_mem_nil, or_false] at hMem ⊢
  case expOp => subst hMem; exact mem_call (by simp [hPart])
  case unop => subst hMem; exact mem_call (by simp [hPart])
  case binop => rcases hMem with rfl | rfl <;> exact mem_call (by simp [hPart])
  case question => rcases hMem with rfl | rfl | rfl <;> exact mem_call (by simp [hPart])
  case cast => subst hMem; exact mem_call (by simp [hPart])

theorem Typ.mem_withAttributes {t : Typ} {piece : Piece} {layout : List Piece}
    (hMem : piece ∈ layout) : piece ∈ t.withAttributes d layout := by
  rw [Typ.withAttributes]
  split
  · split
    · exact hMem
    · exact List.mem_append_left _ hMem
  · exact List.mem_append_left _ hMem

/-- And so does a type, with attributes or without. -/
theorem Typ.self_shown {t : Typ} (hMem : position ∈ View.operandPositions t)
    (hSelf : t.record.isSelfReference position = true) : Piece.text "self" ∈ t.layout d := by
  have hInner : t.record.isSelfReference 0 = true →
      shown (t.inner d) ofTarget = [.text "self"] := fun hZero => by
    rw [inner, Dictionary.follow_self hZero]
    rfl
  rw [View.operandPositions] at hMem
  rw [Typ.layout]
  cases hShape : t.shape <;>
    simp only [hShape, List.not_mem_nil, List.mem_singleton] at hMem ⊢
  all_goals
    subst hMem
    refine mem_withAttributes ?_
    simp [Typ.bareLayout, hShape, hInner hSelf, call]

/-- A view that refers to itself is not shown within itself: in its place stands the word
for it, or nothing at all in a pair of brackets. -/
theorem View.self_shown {family : Family} {view : View family}
    (hMem : position ∈ view.operandPositions)
    (hSelf : view.record.isSelfReference position = true) (hShown : ¬ view.Withholds d) :
    Piece.text "self" ∈ (Item.view family view).layout d ∨
      (Item.view family view).layout d = call "astar" [] := by
  cases family with
  | attrParam => exact AttrParam.self_shown hMem hSelf hShown
  | constant => cases hMem
  | exp => exact .inl (Exp.self_shown hMem hSelf)
  | typ => exact .inl (Typ.self_shown hMem hSelf)

end

end ProgramIndex
