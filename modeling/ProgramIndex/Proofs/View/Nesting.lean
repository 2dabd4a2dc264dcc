import Mathlib.Data.List.Chain
import Mathlib.Data.List.Nodup
import Mathlib.Logic.Relation
import ProgramIndex.Proofs.Dictionary.Resolution
import ProgramIndex.Proofs.View.Mention

/-!
How deep the views of a dictionary are nested. Apart from references of a record to itself,
which are not followed, the items on a way down through the mentions are different ones as
long as the way does not run in a circle. They come from different records, so there are at
most as many of them as the dictionary has records, and that depth suffices to show the first
of them.
-/

namespace ProgramIndex

open Relation (ReflTransGen TransGen)

/-! ### The places of items -/

/-- The table and the index that an item comes from. -/
def Item.place (item : Item) : Kind × Nat :=
  (item.kind, item.record.index)

namespace Dictionary

variable {d : Dictionary} {kind : Kind} {index : Nat} {item : Item}

/-- An item can be read from the dictionary. -/
def Shows (d : Dictionary) (item : Item) : Prop :=
  ∃ kind index, d.item kind index = .ok item

/-- The places of all records of a dictionary. -/
def places (d : Dictionary) : List (Kind × Nat) :=
  Kind.all.flatMap fun kind => (d.table kind).occupied.map (kind, ·)

/-- A dictionary has as many places as records. -/
theorem length_places (d : Dictionary) : d.places.length = d.size := by
  simp [places, size, tables, Kind.all, Table.occupied, Table.size]

/-- A view is read from the record at its index. -/
theorem record_of_get {family : Family} {view : View family}
    (hGet : d.get family index = .ok view) :
    (d.table family.kind).records[index]? = some view.record :=
  (get_eq_ok_iff.mp hGet).1

theorem record_of_getFixed {tags : Nat} {args? : Option Nat} {record : Record}
    (hGet : d.getFixed kind tags args? index = .ok record) :
    (d.table kind).records[index]? = some record := by
  obtain ⟨found, hRetrieve, hRest⟩ := bind_eq_ok_iff.mp hGet
  obtain ⟨-, -, hSame⟩ := bind_eq_ok_iff.mp hRest
  rw [Table.retrieve_eq_ok_iff.mp hRetrieve, Except.ok.inj hSame]

theorem record_of_fixed {Fixed : Type} {tags : Nat} {args? : Option Nat} {mk : Record → Fixed}
    {shown : Fixed → Item}
    (hShown : ∀ record, (shown (mk record)).kind = kind ∧ (shown (mk record)).record = record)
    (hItem : ((d.getFixed kind tags args? index).map mk).map shown = .ok item) :
    item.kind = kind ∧ (d.table kind).records[index]? = some item.record := by
  obtain ⟨fixed, hMade, rfl⟩ := map_eq_ok_iff.mp hItem
  obtain ⟨record, hGet, rfl⟩ := map_eq_ok_iff.mp hMade
  obtain ⟨hKind, hRecord⟩ := hShown record
  exact ⟨hKind, by rw [hRecord]; exact record_of_getFixed hGet⟩

/-- An item is read from the record at its place. -/
theorem record_of_item (hItem : d.item kind index = .ok item) :
    item.kind = kind ∧ (d.table kind).records[index]? = some item.record := by
  have hFamily : ∀ family : Family, d.item family.kind index = .ok item →
      item.kind = family.kind ∧ (d.table family.kind).records[index]? = some item.record := by
    intro family hView
    rw [d.item_kind] at hView
    obtain ⟨view, hGet, rfl⟩ := map_eq_ok_iff.mp hView
    exact ⟨rfl, record_of_get hGet⟩
  cases kind with
  | attrParam => exact hFamily .attrParam hItem
  | constant => exact hFamily .constant hItem
  | exp => exact hFamily .exp hItem
  | typ => exact hFamily .typ hItem
  | _ => exact record_of_fixed (fun _ => ⟨rfl, rfl⟩) hItem

theorem mem_places_of_item (hItem : d.item kind index = .ok item) : (kind, index) ∈ d.places := by
  have hOccupied := Table.mem_records_iff.mpr ⟨_, (record_of_item hItem).2⟩
  exact List.mem_flatMap.mpr
    ⟨kind, kind.mem_all, List.mem_map.mpr ⟨index, Std.ExtTreeMap.mem_keys.mpr hOccupied, rfl⟩⟩

theorem forall_shows_iff {P : Item → Prop} : (∀ item, d.Shows item → P item) ↔
    ∀ place ∈ d.places, ∀ item ∈ (d.item place.1 place.2).toOption, P item := by
  constructor
  · intro hAll place _ item hItem
    refine hAll item ⟨place.1, place.2, ?_⟩
    cases hRead : d.item place.1 place.2 <;> simp_all [Except.toOption]
  · rintro hAll item ⟨kind, index, hItem⟩
    exact hAll (kind, index) (mem_places_of_item hItem) item (by rw [hItem]; rfl)

instance {P : Item → Prop} [DecidablePred P] : Decidable (∀ item, d.Shows item → P item) :=
  decidable_of_iff _ forall_shows_iff.symm

/-- An item tells where it comes from. -/
theorem Built.place_eq (hBuilt : d.Built) (hItem : d.item kind index = .ok item) :
    item.place = (kind, index) := by
  obtain ⟨rfl, hRecord⟩ := record_of_item hItem
  rw [Item.place, (hBuilt.indexed item.kind).index_eq index item.record hRecord]

/-- The items of a dictionary are at its places. -/
theorem Built.place_mem (hBuilt : d.Built) (hShows : d.Shows item) :
    item.place ∈ d.places := by
  obtain ⟨kind, index, hItem⟩ := hShows
  rw [hBuilt.place_eq hItem]
  exact mem_places_of_item hItem

/-- No two items are at one place. -/
theorem Built.place_inj (hBuilt : d.Built) {other : Item} (hShows : d.Shows item)
    (hOther : d.Shows other) (hPlace : item.place = other.place) : item = other := by
  obtain ⟨kind, index, hItem⟩ := hShows
  obtain ⟨otherKind, otherIndex, hOtherItem⟩ := hOther
  rw [hBuilt.place_eq hItem, hBuilt.place_eq hOtherItem] at hPlace
  cases hPlace
  exact Except.ok.inj (hItem.symm.trans hOtherItem)

end Dictionary

/-! ### Circles -/

namespace Item

/-- From an item one comes to a circle of mentions, in which different items lead to each
other. A record that refers to itself makes no circle. -/
def Circular (d : Dictionary) (item : Item) : Prop :=
  ∃ first second, first ≠ second ∧ ReflTransGen (Mentions d) item first ∧
    TransGen (Mentions d) first second ∧ TransGen (Mentions d) second first

variable {d : Dictionary} {item shown next : Item}

theorem Mentions.shows (hMention : shown.Mentions d next) : d.Shows next := by
  obtain ⟨kind, -, index, -, hItem, -⟩ := hMention.refers
  exact ⟨kind, index, hItem⟩

/-- No item is mentioned in its own layout. -/
theorem Mentions.ne (hMention : shown.Mentions d next) (hBuilt : d.Built) : next ≠ shown := by
  obtain ⟨kind, -, index, -, hItem, hOther⟩ := hMention.refers
  rintro rfl
  obtain ⟨hKind, hIndex⟩ := Prod.mk.inj (hBuilt.place_eq hItem)
  exact hOther ⟨hKind.symm, hIndex.symm⟩

/-- What is mentioned, at whatever distance, can be read. -/
theorem shows_of_reflTransGen (hShows : d.Shows item)
    (hReach : ReflTransGen (Mentions d) item shown) : d.Shows shown := by
  cases hReach with
  | refl => exact hShows
  | tail _ hMention => exact hMention.shows

/-- Where there is no circle no item leads back to itself. -/
theorem not_transGen_self (hBuilt : d.Built) (hCircle : ¬ item.Circular d)
    (hReach : ReflTransGen (Mentions d) item shown) : ¬ TransGen (Mentions d) shown shown := by
  intro hReturn
  -- The way back starts with a mention of something else, which closes a circle.
  obtain ⟨next, hMention, hBack⟩ := TransGen.head'_iff.mp hReturn
  rcases Relation.reflTransGen_iff_eq_or_transGen.mp hBack with hSame | hTrans
  · exact hMention.ne hBuilt hSame.symm
  · exact hCircle ⟨shown, next, (hMention.ne hBuilt).symm, hReach, .single hMention, hTrans⟩

/-- There is no circle below an item if all that it leads to can be ranked such that each
layout mentions only what is ranked lower. -/
theorem not_circular_of_rank {rank : Item → Nat} {bound : Nat}
    (hRank : ∀ shown, d.Shows shown → rank shown < bound →
      Piece.AllAdmit (fun next => rank next < rank shown) (fun _ => True) (shown.layout d))
    (hShows : d.Shows item) (hBound : rank item < bound) : ¬ item.Circular d := by
  have hStep : ∀ {shown next}, d.Shows shown → rank shown < bound →
      TransGen (Mentions d) shown next → rank next < rank shown := by
    intro shown next hShown hLess hTrans
    induction hTrans with
    | single hMention => exact hRank shown hShown hLess _ hMention
    | tail hEarlier hMention ih =>
        have hMiddle := shows_of_reflTransGen hShown hEarlier.to_reflTransGen
        exact (hRank _ hMiddle (ih.trans hLess) _ hMention).trans ih
  rintro ⟨first, second, -, hReach, hThere, hBack⟩
  have hFirst := shows_of_reflTransGen hShows hReach
  have hLess : rank first < bound := by
    rcases Relation.reflTransGen_iff_eq_or_transGen.mp hReach with rfl | hTrans
    · exact hBound
    · exact (hStep hShows hBound hTrans).trans hBound
  have hSecond := shows_of_reflTransGen hFirst hThere.to_reflTransGen
  have hDown := hStep hFirst hLess hThere
  exact Nat.lt_asymm hDown (hStep hSecond (hDown.trans hLess) hBack)

/-- What is mentioned on a way down from an item. -/
theorem chain_pairwise {path : List Item} (hChain : List.IsChain (Mentions d) (item :: path)) :
    (item :: path).Pairwise (TransGen (Mentions d)) :=
  List.isChain_iff_pairwise.mp (hChain.imp fun _ _ => TransGen.single)

theorem reflTransGen_of_mem_chain {path : List Item}
    (hChain : List.IsChain (Mentions d) (item :: path)) (hMem : shown ∈ item :: path) :
    ReflTransGen (Mentions d) item shown := by
  rcases List.mem_cons.mp hMem with rfl | hLater
  · exact .refl
  · exact (List.rel_of_pairwise_cons (chain_pairwise hChain) hLater).to_reflTransGen

/-- A chain of mentions without a circle does not come by an item twice. -/
theorem chain_nodup {path : List Item} (hBuilt : d.Built) (hCircle : ¬ item.Circular d)
    (hChain : List.IsChain (Mentions d) (item :: path)) : (item :: path).Nodup := by
  refine (chain_pairwise hChain).imp_of_mem fun hFirst _ hTrans => ?_
  rintro rfl
  exact not_transGen_self hBuilt hCircle (reflTransGen_of_mem_chain hChain hFirst) hTrans

/-- The items on a way down are at most as many as there are records. -/
theorem length_chain_le {path : List Item} (hBuilt : d.Built) (hShows : d.Shows item)
    (hCircle : ¬ item.Circular d) (hChain : List.IsChain (Mentions d) (item :: path)) :
    (item :: path).length ≤ d.size := by
  have hEach : ∀ shown ∈ item :: path, d.Shows shown := fun shown hMem =>
    shows_of_reflTransGen hShows (reflTransGen_of_mem_chain hChain hMem)
  have hNodup : ((item :: path).map place).Nodup :=
    (chain_nodup hBuilt hCircle hChain).map_on fun first hFirst second hSecond =>
      hBuilt.place_inj (hEach first hFirst) (hEach second hSecond)
  have hSubset : (item :: path).map place ⊆ d.places :=
    List.forall_mem_map.mpr fun shown hMem => hBuilt.place_mem (hEach shown hMem)
  have hLength := hNodup.length_le_of_subset hSubset
  rwa [List.length_map, d.length_places] at hLength

/-! ### Texts -/

theorem render_succ_eq_some_iff {depth : Nat} {text : String} :
    item.render d (depth + 1) = some text ↔
      ∃ texts, List.Forall₂ (fun piece text => piece.render (Item.render d depth) = some text)
        (item.layout d) texts ∧ String.join texts = text := by
  rw [render, Option.map_eq_some_iff]
  simp only [mapM_eq_some_iff]

/-- A text does not change if views may be nested deeper. -/
theorem render_mono {depth deeper : Nat} {text : String} (hRender : item.render d depth = some text)
    (hLe : depth ≤ deeper) : item.render d deeper = some text := by
  induction depth generalizing item deeper text with
  | zero => cases hRender
  | succ depth ih =>
      obtain ⟨deeper, rfl⟩ := Nat.exists_eq_add_of_lt hLe
      obtain ⟨texts, hTexts, hJoin⟩ := render_succ_eq_some_iff.mp hRender
      refine render_succ_eq_some_iff.mpr ⟨texts, hTexts.imp fun piece text hPiece => ?_, hJoin⟩
      cases piece with
      | item i => exact ih hPiece (Nat.le_add_right depth deeper)
      | _ => exact hPiece

/-- An item has a text if all ways down from it end within the depth. -/
theorem exists_render {depth : Nat}
    (hChains : ∀ path, List.IsChain (Mentions d) (item :: path) → path.length < depth) :
    ∃ text, item.render d depth = some text := by
  induction depth generalizing item with
  | zero => exact absurd (hChains [] (List.isChain_singleton item)) (Nat.not_lt_zero _)
  | succ depth ih =>
      -- A way down from what is mentioned is one from the item, without its first step.
      have hPiece : ∀ piece ∈ item.layout d,
          ∃ text, piece.render (Item.render d depth) = some text := by
        intro piece hMem
        cases piece with
        | item next =>
            refine ih fun path hChain => Nat.lt_of_succ_lt_succ ?_
            exact hChains (next :: path) (List.isChain_cons_cons.mpr ⟨hMem, hChain⟩)
        | _ => exact ⟨_, rfl⟩
      obtain ⟨texts, hTexts⟩ := exists_mapM_some hPiece
      exact ⟨_, render_succ_eq_some_iff.mpr ⟨texts, mapM_eq_some_iff.mp hTexts, rfl⟩⟩

/-- An item that leads to no circle has a text, at any depth from the number of records on. -/
theorem exists_text? (hBuilt : d.Built) (hShows : d.Shows item) (hCircle : ¬ item.Circular d) :
    ∃ text, d.text? item = some text ∧
      ∀ depth, d.size ≤ depth → item.render d depth = some text := by
  obtain ⟨text, hText⟩ := exists_render fun path hChain =>
    length_chain_le hBuilt hShows hCircle hChain
  exact ⟨text, hText, fun depth hDepth => render_mono hText hDepth⟩

end Item

namespace Dictionary

/-- An item that has been read from a dictionary, whatever has been done to it before and
whatever is wrong with its records. If no circle of mentions can be reached from the item,
references of records to themselves aside, then it has a text; the views in it are nested at
most as deep as the dictionary has records. What a view mentions is never the view itself: in
its place stands a word, or an empty pair of brackets. -/
theorem text_nested_of_built {d : Dictionary} (hBuilt : d.Built) {kind : Kind} {index : Nat}
    {item : Item} (hItem : d.item kind index = .ok item) (hCircle : ¬ item.Circular d) :
    (∃ text, d.text? item = some text ∧
      ∀ depth, d.size ≤ depth → item.render d depth = some text) ∧
    (∀ path, List.IsChain (Item.Mentions d) (item :: path) → (item :: path).length ≤ d.size) ∧
    (∀ shown next : Item, shown.Mentions d next → shown.Refers d next ∧ next ≠ shown) ∧
    ∀ (family : Family) (view : View family), ∀ position ∈ view.operandPositions,
      view.record.isSelfReference position = true → ¬ view.Withholds d →
        Piece.text "self" ∈ (Item.view family view).layout d ∨
          (Item.view family view).layout d = Piece.call "astar" [] :=
  ⟨Item.exists_text? hBuilt ⟨kind, index, hItem⟩ hCircle,
    fun _ => Item.length_chain_le hBuilt ⟨kind, index, hItem⟩ hCircle,
    fun _ _ hMention => ⟨hMention.refers, hMention.ne hBuilt⟩,
    fun _ _ _ hMem hSelf hShown => View.self_shown hMem hSelf hShown⟩

/-- Types and expressions that refer to themselves, to nothing and to a type of an unknown
variant, some of them with arguments missing. Two other types make a circle and have no
text. -/
theorem text_nested_with_faults :
    ∃ (d : Dictionary) (item : Item) (text : String),
      wrapping.Run (new .standard)
        [.index .typ ⟨["tptr"], [4]⟩, .index .typ ⟨["tarray"], [4, 0, -1]⟩,
          .index .exp ⟨["caste"], [0, 7]⟩, .index .exp ⟨["binop", "plusa"], [0, 1, -1]⟩,
          .read ⟨rootName, [], Kind.all.map fun kind => ⟨kind.tableName, [],
            if kind = .typ then [⟨"n", [("ix", "0"), ("t", "tother")], []⟩,
              ⟨"n", [("ix", "1"), ("t", "tptr"), ("a", "2,0")], []⟩,
              ⟨"n", [("ix", "2"), ("t", "tptr"), ("a", "1,0")], []⟩] else []⟩⟩] d ∧
      d.Built ∧ d.size = 7 ∧ (d.item .typ 2).toOption.bind d.text? = none ∧
      d.item .typ 3 = .ok item ∧ ¬ item.Circular d ∧
      text = "(self *)[(self plusa caste(<Unknown type variant: \"tother\">,"
        ++ "<Unable to retrieve item 7 from table exp-table (size 2)>))]" ∧
      d.text? item = some text ∧ (∀ depth, 7 ≤ depth → item.render d depth = some text) ∧
      (∀ path, List.IsChain (Item.Mentions d) (item :: path) → (item :: path).length ≤ 7) ∧
      ∀ shown next : Item, shown.Mentions d next → shown.Refers d next ∧ next ≠ shown := by
  have run := (((((Transitions.RunWithin.refl : wrapping.Run (new .standard) [] _).step
    (.read ⟨rootName, [], Kind.all.map fun kind => ⟨kind.tableName, [],
      if kind = .typ then [⟨"n", [("ix", "0"), ("t", "tother")], []⟩,
        ⟨"n", [("ix", "1"), ("t", "tptr"), ("a", "2,0")], []⟩,
        ⟨"n", [("ix", "2"), ("t", "tptr"), ("a", "1,0")], []⟩] else []⟩⟩)
      trivial trivial).step
    (.index .exp ⟨["binop", "plusa"], [0, 1, -1]⟩) trivial trivial).step
    (.index .exp ⟨["caste"], [0, 7]⟩) trivial trivial).step
    (.index .typ ⟨["tarray"], [4, 0, -1]⟩) trivial trivial).step
    (.index .typ ⟨["tptr"], [4]⟩) trivial trivial
  generalize hDict : wrapping.perform _ _ = d at run
  have hItem : d.item .typ 3 = .ok (.view .typ ⟨.array, ⟨3, ⟨["tarray"], [4, 0, -1]⟩⟩⟩) := by
    rw [← hDict]
    rfl
  have hSize : d.size = 7 := by rw [← hDict]; decide +kernel
  have hCircle := @Item.not_circular_of_rank d _ (fun shown =>
      if shown.place = (.typ, 3) then 2 else if shown.place = (.exp, 0) then 1
      else if shown.place ∈ [(.typ, 1), (.typ, 2)] then 3 else 0) 3
    (by rw [← hDict]; decide +kernel) ⟨_, _, hItem⟩ (by decide)
  obtain ⟨⟨text, hText, hDeeper⟩, hChain, hMention, -⟩ :=
    text_nested_of_built (built_of_run run) hItem hCircle
  rw [hSize] at hDeeper hChain
  have hShown : text = "(self *)[(self plusa caste(<Unknown type variant: \"tother\">,"
      ++ "<Unable to retrieve item 7 from table exp-table (size 2)>))]" := by
    refine Option.some.inj (hText.symm.trans ?_)
    rw [← hDict]
    decide +kernel
  exact ⟨d, _, text, run, built_of_run run, hSize, by rw [← hDict]; decide +kernel, hItem,
    hCircle, hShown, hText, hDeeper, hChain, hMention⟩

end Dictionary

end ProgramIndex
