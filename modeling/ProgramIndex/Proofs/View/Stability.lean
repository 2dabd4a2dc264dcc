import ProgramIndex.Proofs.Dictionary.Growth
import ProgramIndex.Proofs.View.Nesting

/-!
What a dictionary shows stays the same while it grows. All that the layout of a view looks at
are arguments, the registry and records at given indices. A record that is there is found again
later, and what goes wrong with it goes wrong again. Only where no record is found, another
answer may come later, so a view keeps its text if it shows no such fault.
-/

namespace ProgramIndex

open Relation (ReflTransGen)

/-- No record has been found at an index. -/
def Fault.IsMissing : Fault → Prop
  | .missingIndex _ _ _ => True
  | _ => False

instance : DecidablePred Fault.IsMissing := fun fault => by
  cases fault <;> unfold Fault.IsMissing <;> infer_instance

/-! ### Attempts that are made again -/

/-- What has been found, or found to be faulty, is found again. Nothing is said about an attempt
that finds no record. -/
def Persists {α : Type} (earlier later : Except Fault α) : Prop :=
  (∀ fault, earlier = .error fault → ¬ fault.IsMissing) → later = earlier

section

variable {α β : Type} {earlier later : Except Fault α}

theorem persists_refl (attempt : Except Fault α) : Persists attempt attempt :=
  fun _ => rfl

/-- Attempts that are made one after the other persist if each of them does. -/
theorem Persists.bind {f g : α → Except Fault β} (h : Persists earlier later)
    (hNext : ∀ value, Persists (f value) (g value)) : Persists (earlier >>= f) (later >>= g) := by
  intro hFound
  cases hEarlier : earlier with
  | error fault =>
      rw [hEarlier] at h hFound
      rw [h fun other hOther => hFound other (congrArg (· >>= f) hOther)]
      rfl
  | ok value =>
      rw [hEarlier] at h hFound
      rw [h nofun]
      exact hNext value hFound

theorem Persists.map (h : Persists earlier later) (f : α → β) :
    Persists (earlier.map f) (later.map f) := by
  intro hFound
  rw [h fun fault hFault => hFound fault (by rw [hFault]; rfl)]

/-- So do the attempts of a list. -/
theorem persists_mapM {f g : α → Except Fault β} (hEach : ∀ x, Persists (f x) (g x))
    (xs : List α) : Persists (xs.mapM f) (xs.mapM g) := by
  induction xs with
  | nil => exact persists_refl _
  | cons x rest ih =>
      rw [List.mapM_cons, List.mapM_cons]
      exact (hEach x).bind fun _ => ih.bind fun _ => persists_refl _

end

/-! ### Lookups -/

namespace Dictionary

/-- All records of a dictionary are in another one as well, at the same indices, and the
variants are the same. -/
structure KeptIn (d later : Dictionary) : Prop where
  registry_eq : later.registry = d.registry
  records : ∀ (kind : Kind) (index : Nat) (record : Record),
    (d.table kind).records[index]? = some record → (later.table kind).records[index]? = some record

/-- A dictionary is kept in what it grows to. -/
theorem GrowsTo.keptIn {d later : Dictionary} (hGrows : d.GrowsTo later) : d.KeptIn later :=
  ⟨hGrows.registry_eq, fun kind index => (hGrows.retains kind index).records⟩

variable {d later : Dictionary}

theorem KeptIn.size_le (h : d.KeptIn later) : d.size ≤ later.size := by
  have hTable : ∀ kind, (d.table kind).size ≤ (later.table kind).size := by
    intro kind
    have hSubset : (d.table kind).occupied ⊆ (later.table kind).occupied := by
      intro index hMem
      obtain ⟨record, hRecord⟩ := Table.mem_records_iff.mp (Std.ExtTreeMap.mem_keys.mp hMem)
      exact Std.ExtTreeMap.mem_keys.mpr
        (Table.mem_records_iff.mpr ⟨record, h.records kind index record hRecord⟩)
    have hLength := Std.ExtTreeMap.nodup_keys.length_le_of_subset hSubset
    rwa [Table.occupied, Std.ExtTreeMap.length_keys, Std.ExtTreeMap.length_keys] at hLength
  have hAll := List.forall_iff_forall_mem.mpr fun kind (_ : kind ∈ Kind.all) => hTable kind
  simp only [Kind.all, List.Forall] at hAll
  simp only [size, tables, Kind.all, List.map_cons, List.map_nil, List.foldr_cons, List.foldr_nil]
  omega

/-- A record that is found is found again at its index. -/
theorem KeptIn.retrieve (h : d.KeptIn later) (kind : Kind) (index : Nat) :
    Persists ((d.table kind).retrieve index) ((later.table kind).retrieve index) := by
  intro hFound
  cases hRetrieve : (d.table kind).retrieve index with
  | ok record =>
      have hRecord := Table.retrieve_eq_ok_iff.mp hRetrieve
      exact Table.retrieve_eq_ok_iff.mpr (h.records kind index record hRecord)
  | error fault =>
      obtain ⟨-, rfl⟩ := Table.retrieve_eq_error_iff.mp hRetrieve
      exact absurd trivial (hFound _ hRetrieve)

/-- A view is read again as it was, or fails again for a reason that is not a missing
record. -/
theorem KeptIn.get (h : d.KeptIn later) (family : Family) (index : Nat) :
    Persists (d.get family index) (later.get family index) := by
  rw [Dictionary.get, Dictionary.get, h.registry_eq]
  exact (h.retrieve family.kind index).bind fun _ => persists_refl _

/-- The same holds of the fixed kinds, whose shape is checked on the record alone. -/
theorem KeptIn.getFixed (h : d.KeptIn later) (kind : Kind) (tags : Nat) (args? : Option Nat)
    (index : Nat) :
    Persists (d.getFixed kind tags args? index) (later.getFixed kind tags args? index) :=
  (h.retrieve kind index).bind fun _ => persists_refl _

/-- So every item is read again as it was. -/
theorem KeptIn.item (h : d.KeptIn later) (kind : Kind) (index : Nat) :
    Persists (d.item kind index) (later.item kind index) := by
  cases kind with
  | attrParam => exact (h.get .attrParam index).map _
  | constant => exact (h.get .constant index).map _
  | exp => exact (h.get .exp index).map _
  | typ => exact (h.get .typ index).map _
  | _ => exact ((h.getFixed _ _ _ index).map _).map _

theorem KeptIn.getAt (h : d.KeptIn later) (family : Family) (record : Record) (position : Nat) :
    Persists (d.getAt family record position) (later.getAt family record position) :=
  (persists_refl _).bind fun index => h.get family index

/-- A reference leads where it led. -/
theorem KeptIn.follow (h : d.KeptIn later) {family : Family} (view : View family)
    (position : Nat) : Persists (d.follow view position) (later.follow view position) := by
  rw [Dictionary.follow, Dictionary.follow]
  split
  · exact persists_refl _
  · exact (h.getAt family view.record position).map _

theorem KeptIn.followEach (h : d.KeptIn later) {family : Family} (view : View family) :
    Persists (d.followEach view) (later.followEach view) :=
  persists_mapM (h.follow view) _

end Dictionary

/-! ### Layouts -/

namespace Piece

/-- None of the faults in a layout, shown or not, is that no record has been found. -/
abbrev Settled (layout : List Piece) : Prop :=
  AllAdmit (fun _ => True) (fun fault => ¬ fault.IsMissing) layout

/-- A layout is made again as it was, unless no record has been found for some part of it. -/
def Lasts (earlier later : List Piece) : Prop :=
  Settled earlier → later = earlier

variable {first second firstLater secondLater : List Piece}

theorem lasts_refl (layout : List Piece) : Lasts layout layout :=
  fun _ => rfl

/-- A layout lasts if both of its parts do. -/
theorem Lasts.append (hFirst : Lasts first firstLater) (hSecond : Lasts second secondLater) :
    Lasts (first ++ second) (firstLater ++ secondLater) := by
  intro hSettled
  obtain ⟨hSettledFirst, hSettledSecond⟩ := allAdmit_append.mp hSettled
  rw [hFirst hSettledFirst, hSecond hSettledSecond]

theorem Lasts.cons (piece : Piece) (h : Lasts second secondLater) :
    Lasts (piece :: second) (piece :: secondLater) :=
  (lasts_refl [piece]).append h

theorem Lasts.call (head : String) (h : Lasts first firstLater) :
    Lasts (call head first) (call head firstLater) :=
  (h.append (lasts_refl _)).cons _

end Piece

open Piece

/-- What is shown of an attempt lasts if the attempt persists. -/
theorem Persists.shown {α : Type} {earlier later : Except Fault α} (h : Persists earlier later)
    (pieces : α → List Piece) : Lasts (shown earlier pieces) (shown later pieces) := by
  intro hSettled
  rw [h (allAdmit_shown.mp hSettled).2]

namespace Dictionary.KeptIn

variable {d later : Dictionary} (h : d.KeptIn later)

include h

/-- The layout of a parameter lasts, in every shape. -/
theorem layout_attrParam (p : AttrParam) :
    Lasts (AttrParam.layout d p) (AttrParam.layout later p) := by
  have hOperand := h.follow p 0
  have hOperands := h.followEach p
  rw [AttrParam.layout, AttrParam.layout]
  cases p.shape with
  | cons => exact ((hOperands.shown _).cons _).call _
  | typeOp => exact ((h.getAt .typ p.record 0).shown _).call _
  | unary =>
      dsimp only
      split
      · exact ((hOperand.shown _).cons _).call _
      · split
        · exact ((hOperand.shown _).append (lasts_refl _)).call _
        · exact (hOperand.shown _).call _
  | star =>
      dsimp only
      split
      · exact lasts_refl _
      · exact (hOperand.shown _).call _
  | nary => exact (hOperands.shown _).call _
  | _ => exact lasts_refl _

/-- The layout of an attribute lasts. -/
theorem layout_attribute (a : Attribute) : Lasts (a.layout d) (a.layout later) :=
  ((persists_mapM (h.getAt .attrParam a.record) _).shown _).cons _

theorem attributes_toList (list : Attributes) : Persists (list.toList d) (list.toList later) :=
  persists_mapM (fun _ => (persists_refl _).bind fun index => (h.getFixed _ _ _ index).map _) _

theorem layout_attributes (list : Attributes) : Lasts (list.layout d) (list.layout later) := by
  intro hSettled
  have hToList : list.toList later = list.toList d := by
    refine h.attributes_toList list fun fault hFault => ?_
    rw [Attributes.layout, hFault] at hSettled
    exact hSettled (.fault fault) (by simp)
  rw [Attributes.layout, Attributes.layout, hToList]

/-- The layout of a constant lasts. -/
theorem layout_constant (c : Constant) : Lasts (c.layout d) (c.layout later) := by
  rw [Constant.layout, Constant.layout]
  cases c.shape with
  | enum => exact ((h.getAt .exp c.record 0).shown _).call _
  | _ => exact lasts_refl _

/-- The layout of an expression lasts, in every shape. -/
theorem layout_exp (e : Exp) : Lasts (e.layout d) (e.layout later) := by
  have hPart : ∀ position, Lasts (e.partLayout d position) (e.partLayout later position) :=
    fun position => (h.follow e position).shown _
  have hTyp := h.getAt .typ e.record e.typPosition
  rw [Exp.layout, Exp.layout]
  cases e.shape with
  | const => exact (h.getAt .constant e.record 0).shown _
  | typeOp => exact (hTyp.shown _).call _
  | expOp => exact (hPart 0).call _
  | unop => exact ((hPart 0).cons _).call _
  | binop => exact ((hPart 0).append ((hPart 1).cons _)).call _
  | question =>
      exact (((hPart 0).append ((hPart 1).cons _)).append ((hPart 2).cons _)).call _
  | cast => exact ((hTyp.shown _).append ((hPart 1).cons _)).call _
  | _ => exact lasts_refl _

/-- The attributes of a type are read again as they were. -/
theorem typ_attributes (t : Typ) : Persists (t.attributes d) (t.attributes later) :=
  (persists_refl _).bind fun index => (h.getFixed _ _ _ index).map _

/-- The size of an array is read again as it was. -/
theorem typ_arraySize (t : Typ) : Persists (t.arraySize d) (t.arraySize later) :=
  (persists_refl _).bind fun
    | none => persists_refl _
    | some index => (h.get .exp index).map _

theorem typ_funArgs (t : Typ) : Persists (t.funArgs d) (t.funArgs later) :=
  (persists_refl _).bind fun
    | none => persists_refl _
    | some index => ((h.getFixed _ _ _ index).map _).map _

/-- A type with its attributes lasts if it lasts without them. -/
theorem layout_withAttributes (t : Typ) {bare bareLater : List Piece}
    (hBare : Lasts bare bareLater) :
    Lasts (t.withAttributes d bare) (t.withAttributes later bareLater) := by
  intro hSettled
  rw [Typ.withAttributes] at hSettled
  -- A list of attributes that cannot be read leaves no text, but its fault is in the layout.
  have hAttributes : t.attributes later = t.attributes d := by
    refine h.typ_attributes t fun fault hFault => ?_
    rw [hFault] at hSettled
    exact hSettled (.unseen fault) (by simp)
  have hSame : bareLater = bare := by
    refine hBare fun piece hMem => hSettled piece ?_
    split
    · split
      · exact hMem
      · exact List.mem_append_left _ hMem
    · exact List.mem_append_left _ hMem
  rw [Typ.withAttributes, Typ.withAttributes, hAttributes, hSame]

/-- The layout of a type without its attributes lasts, in every shape. -/
theorem layout_bare (t : Typ) : Lasts (t.bareLayout d) (t.bareLayout later) := by
  have hInner := (h.follow t 0).shown ofTarget
  rw [Typ.bareLayout, Typ.bareLayout]
  cases t.shape with
  | ptr => exact (hInner.append (lasts_refl _)).call _
  | array =>
      exact (hInner.append (((h.typ_arraySize t).shown _).cons _)).append (lasts_refl _)
  | func =>
      have hArgs := (h.typ_funArgs t).shown
      refine (hInner.call _).append (Lasts.call _ ?_)
      split
      · exact (hArgs _).append (lasts_refl _)
      · exact hArgs _
  | _ => exact lasts_refl _

/-- The layout of a type lasts. -/
theorem layout_typ (t : Typ) : Lasts (t.layout d) (t.layout later) := by
  rw [Typ.layout, Typ.layout]
  cases t.shape with
  | custom name => exact h.layout_bare t
  | _ => exact h.layout_withAttributes t (h.layout_bare t)

/-- The layout of a parameter of a function lasts. -/
theorem layout_funArg (arg : FunArg) : Lasts (arg.layout d) (arg.layout later) :=
  ((h.getAt .typ arg.record 0).shown _).append (lasts_refl _)

theorem layout_funArgs (list : FunArgs) : Lasts (list.layout d) (list.layout later) :=
  (persists_mapM
    (fun _ => (persists_refl _).bind fun index => (h.getFixed _ _ _ index).map _) _).shown _

/-- No layout changes but by records that were missing. -/
theorem layout_item : (item : Item) → Lasts (item.layout d) (item.layout later)
  | .view .attrParam p => h.layout_attrParam p
  | .view .constant c => h.layout_constant c
  | .view .exp e => h.layout_exp e
  | .view .typ t => h.layout_typ t
  | .attribute a => h.layout_attribute a
  | .attributes list => h.layout_attributes list
  | .funArg arg => h.layout_funArg arg
  | .funArgs list => h.layout_funArgs list

end Dictionary.KeptIn

/-! ### Texts -/

/-- Nothing that an item leads to looks for a record that is not there. -/
def Item.FindsAll (d : Dictionary) (item : Item) : Prop :=
  ∀ shown, ReflTransGen (Item.Mentions d) item shown → Settled (shown.layout d)

/-- Where no layout at all misses a record there is none to miss on the way. -/
theorem Item.findsAll_of_forall {d : Dictionary} {item : Item}
    (hAll : ∀ shown, d.Shows shown → Settled (shown.layout d)) (hShows : d.Shows item) :
    item.FindsAll d :=
  fun shown hReach => hAll shown (shows_of_reflTransGen hShows hReach)

/-- The text of an item depends on the layouts of what it leads to only. -/
theorem Item.render_eq_of_layout_eq {d later : Dictionary} {depth : Nat} {item : Item}
    (hLayout : ∀ shown, ReflTransGen (Item.Mentions d) item shown →
      shown.layout later = shown.layout d) :
    item.render later depth = item.render d depth := by
  induction depth generalizing item with
  | zero => rfl
  | succ depth ih =>
      have hPieces : ∀ piece ∈ item.layout d,
          piece.render (Item.render later depth) = piece.render (Item.render d depth) := by
        intro piece hMem
        cases piece with
        | item next => exact ih fun shown hReach => hLayout shown (.head hMem hReach)
        | _ => simp only [Piece.render]
      rw [render, render, hLayout item .refl, mapM_congr hPieces]

namespace Dictionary

/-- An item that has been read from a dictionary, whatever has been done to it before. If no
circle of mentions can be reached from it and none of the lookups for its text looks for a
record that is not there, then any dictionary that has all the records of this one reads the
same item in its place and shows it by the same text. This is what a dictionary in which no
record has the last index becomes by adding records and by taking and releasing
checkpoints. -/
theorem text_kept_of_built {d : Dictionary} (hBuilt : d.Built) {kind : Kind} {index : Nat}
    {item : Item} (hItem : d.item kind index = .ok item) (hCircle : ¬ item.Circular d)
    (hFinds : item.FindsAll d) :
    (∀ later, d.KeptIn later → later.item kind index = .ok item ∧
      ∃ text, d.text? item = some text ∧ later.text? item = some text) ∧
    (d.Reached → ∀ ops later, growing.Run d ops later → d.KeptIn later) := by
  refine ⟨fun later hKept => ⟨?_, ?_⟩, fun hReached _ _ run => (hReached.grow run).2.keptIn⟩
  · rw [hKept.item kind index (by rw [hItem]; nofun), hItem]
  · obtain ⟨text, hText, hDeeper⟩ := Item.exists_text? hBuilt ⟨kind, index, hItem⟩ hCircle
    refine ⟨text, hText, ?_⟩
    have hLayout : ∀ shown, ReflTransGen (Item.Mentions d) item shown →
        shown.layout later = shown.layout d := fun shown hReach =>
      hKept.layout_item shown (hFinds shown hReach)
    rw [Dictionary.text?, Item.render_eq_of_layout_eq hLayout]
    exact hDeeper later.size hKept.size_le

/-- A type with references to itself and to a type of an unknown variant, and with arguments
missing. Its dictionary gets another expression, which changes the size of the table, and a
checkpoint. -/
theorem text_kept_with_faults :
    ∃ (d later : Dictionary) (item : Item) (text : String),
      transitions.Run (new .standard)
        [.index .typ ⟨["tptr"], [2]⟩, .index .typ ⟨["tarray"], [2, 0, -1]⟩,
          .index .exp ⟨["caste"], [0]⟩, .index .exp ⟨["binop", "plusa"], [0, 1, -1]⟩,
          .read ⟨rootName, [], Kind.all.map fun kind => ⟨kind.tableName, [],
            if kind = .typ then [⟨"n", [("ix", "0"), ("t", "tother")], []⟩] else []⟩⟩] d ∧
      d.Reached ∧ growing.Run d [.checkpointAll, .index .exp ⟨["const"], [0]⟩] later ∧
      d.item .typ 1 = .ok item ∧ ¬ item.Circular d ∧ item.FindsAll d ∧ d.KeptIn later ∧
      later.size = d.size + 1 ∧ later.item .typ 1 = .ok item ∧
      text = "(self *)[(self plusa caste(<Unknown type variant: \"tother\">,"
        ++ "<Malformed entry in table exp-table: record 1 (caste) has no argument 1>))]" ∧
      d.text? item = some text ∧ later.text? item = some text := by
  have run := (((((Transitions.RunWithin.refl : transitions.Run (new .standard) [] _).step
    (.read ⟨rootName, [], Kind.all.map fun kind => ⟨kind.tableName, [],
      if kind = .typ then [⟨"n", [("ix", "0"), ("t", "tother")], []⟩] else []⟩⟩)
      (by decide +kernel) trivial).step
    (.index .exp ⟨["binop", "plusa"], [0, 1, -1]⟩) (by decide +kernel) trivial).step
    (.index .exp ⟨["caste"], [0]⟩) (by decide +kernel) trivial).step
    (.index .typ ⟨["tarray"], [2, 0, -1]⟩) (by decide +kernel) trivial).step
    (.index .typ ⟨["tptr"], [2]⟩) (by decide +kernel) trivial
  generalize hDict : transitions.perform _ _ = d at run
  have growth := ((Transitions.RunWithin.refl : growing.Run d [] d).step
    (.index .exp ⟨["const"], [0]⟩) ⟨by rw [← hDict]; decide +kernel, trivial⟩ trivial).step
    .checkpointAll ⟨by rw [← hDict]; decide +kernel, trivial⟩ trivial
  have hItem : d.item .typ 1 = .ok (.view .typ ⟨.array, ⟨1, ⟨["tarray"], [2, 0, -1]⟩⟩⟩) := by
    rw [← hDict]
    rfl
  have hCircle := @Item.not_circular_of_rank d _ (fun shown =>
      if shown.place = (.typ, 1) then 2 else if shown.place = (.exp, 0) then 1 else 0) 3
    (by rw [← hDict]; decide +kernel) ⟨_, _, hItem⟩ (by decide)
  have hFinds := Item.findsAll_of_forall (by rw [← hDict]; decide +kernel) ⟨_, _, hItem⟩
  have hReached := reached_of_run run
  obtain ⟨hKept, hGrowing⟩ := text_kept_of_built hReached.built hItem hCircle hFinds
  have hLater := hGrowing hReached _ _ growth
  obtain ⟨hAgain, text, hText, hTextLater⟩ := hKept _ hLater
  have hShown : text = "(self *)[(self plusa caste(<Unknown type variant: \"tother\">,"
      ++ "<Malformed entry in table exp-table: record 1 (caste) has no argument 1>))]" := by
    refine Option.some.inj (hText.symm.trans ?_)
    rw [← hDict]
    decide +kernel
  exact ⟨d, _, _, text, run, hReached, growth, hItem, hCircle, hFinds, hLater,
    by rw [← hDict]; decide +kernel, hAgain, hShown, hText, hTextLater⟩

end Dictionary

end ProgramIndex
