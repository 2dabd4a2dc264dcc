import ProgramIndex.Markup.Document
import ProgramIndex.Proofs.Attempts

/-!
Trees as sequences of events. The tags of a document in which each end closes the innermost
open element are those of the trees that are complete and of the elements that are open, one
after the other and each before its children. A build is at each event what this says, so a
document is read exactly if its tags are those of one tree.
-/

namespace ProgramIndex

namespace Markup

/-- The events that open or close an element. -/
def tagsOf (events : List Event) : List Event :=
  events.filter (· ≠ .aside)

/-- Each end closes the innermost element that is open, the given ones among them. -/
def Nests : List String → List Event → Prop
  | _, [] => True
  | opened, .start tag :: later => Nests (tag.name :: opened) later
  | opened, .empty _ :: later => Nests opened later
  | [], .finish _ :: _ => False
  | innermost :: outer, .finish name :: later => name = innermost ∧ Nests outer later
  | opened, .aside :: later => Nests opened later

instance Nests.decidable : (opened : List String) → (events : List Event) →
    Decidable (Nests opened events)
  | _, [] => inferInstanceAs (Decidable True)
  | opened, .start tag :: later => decidable (tag.name :: opened) later
  | opened, .empty _ :: later => decidable opened later
  | [], .finish _ :: _ => inferInstanceAs (Decidable False)
  | innermost :: outer, .finish name :: later =>
      let _ := decidable outer later
      inferInstanceAs (Decidable (name = innermost ∧ Nests outer later))
  | opened, .aside :: later => decidable opened later

/-- The tags of some trees, those of each element before those of its children. An element
without children may be one tag or two. -/
inductive Linearizes : List Event → List Element → Prop where
  | nil : Linearizes [] []
  | empty {rest : List Event} {trees : List Element} (tag : Tag) (hRest : Linearizes rest trees) :
      Linearizes (.empty tag :: rest) (⟨tag.name, tag.attributes, []⟩ :: trees)
  | node {inner rest : List Event} {children trees : List Element} (tag : Tag)
      (hInner : Linearizes inner children) (hRest : Linearizes rest trees) :
      Linearizes (.start tag :: inner ++ .finish tag.name :: rest)
        (⟨tag.name, tag.attributes, children⟩ :: trees)

/-- The tags of some trees and, after them, of elements that are open, with the children that
these have so far. -/
inductive Leaves : List Event → List OpenElement → List Element → Prop where
  | top {tags : List Event} {roots : List Element} (hRoots : Linearizes tags roots) :
      Leaves tags [] roots
  | inside {before inner : List Event} {opened : List OpenElement} {roots children : List Element}
      (tag : Tag) (hBefore : Leaves before opened roots) (hInner : Linearizes inner children) :
      Leaves (before ++ .start tag :: inner) (⟨tag, children.reverse⟩ :: opened) roots

/-- A second tree is complete at some event. -/
inductive SecondRoot (events : List Event) : ProgramIndex.Fault → Prop where
  | mk {before later : List Event} {event : Event} {first second : Element}
      (hEvents : events = before ++ event :: later) (hTag : event ≠ .aside)
      (hRoots : Linearizes (tagsOf (before ++ [event])) [first, second]) :
      SecondRoot events (.malformedEntry first.name (.secondRoot second.name))

/-- What keeps the tags of a document from being those of one tree. An element that is open
at the end is to blame only if no second tree has been complete before. -/
inductive Misplaced (events : List Event) : ProgramIndex.Fault → Prop where
  | secondRoot {fault : ProgramIndex.Fault} (hSecond : SecondRoot events fault) :
      Misplaced events fault
  | openAtEnd {opened : List OpenElement} {outermost : OpenElement} {roots : List Element}
      (hLeaves : Leaves (tagsOf events) opened roots) (hRoots : roots.length ≤ 1)
      (hOutermost : opened.getLast? = some outermost) :
      Misplaced events (.malformedEntry outermost.tag.name .openAtEnd)
  | noRoot (hNone : tagsOf events = []) :
      Misplaced events (.malformedEntry "<document>" .noRoot)

/-- A second tree stays the second, whatever comes after it. -/
theorem SecondRoot.append {events : List Event} {fault : ProgramIndex.Fault}
    (hSecond : SecondRoot events fault) (more : List Event) : SecondRoot (events ++ more) fault := by
  cases hSecond with
  | @mk before later event first second hEvents hTag hRoots =>
      exact .mk (by rw [hEvents, List.append_assoc]; rfl) hTag hRoots

theorem tagsOf_concat {event : Event} (hTag : event ≠ .aside) (events : List Event) :
    tagsOf (events ++ [event]) = tagsOf events ++ [event] := by
  simp [tagsOf, hTag]

theorem tagsOf_concat_aside (events : List Event) :
    tagsOf (events ++ [.aside]) = tagsOf events := by
  simp [tagsOf]

/-! ### Sequences of trees -/

namespace Linearizes

/-- Trees after other trees. -/
theorem append {first second : List Event} {trees others : List Element}
    (hFirst : Linearizes first trees) (hSecond : Linearizes second others) :
    Linearizes (first ++ second) (trees ++ others) := by
  induction hFirst with
  | nil => exact hSecond
  | empty tag _ ih => exact .empty tag ih
  | node tag hInner _ _ ih =>
      rw [List.append_assoc]
      exact .node tag hInner ih

/-- The tags of the first tree can be told from those of the others. -/
theorem exists_append {tags : List Event} {e : Element} {trees : List Element}
    (hTags : Linearizes tags (e :: trees)) :
    ∃ first rest, tags = first ++ rest ∧ Linearizes first [e] ∧ Linearizes rest trees := by
  cases hTags with
  | @empty rest _ tag hRest => exact ⟨[.empty tag], rest, rfl, .empty tag .nil, hRest⟩
  | @node inner rest children _ tag hInner hRest =>
      exact ⟨.start tag :: inner ++ [.finish tag.name], rest, by simp, .node tag hInner .nil, hRest⟩

theorem eq_nil {tags : List Event} (hTags : Linearizes tags []) : tags = [] := by
  cases hTags
  rfl

end Linearizes

/-! ### Open elements -/

namespace Leaves

/-- A start opens one more element. -/
theorem start {tags : List Event} {opened : List OpenElement} {roots : List Element}
    (hLeaves : Leaves tags opened roots) (tag : Tag) :
    Leaves (tags ++ [.start tag]) (⟨tag, []⟩ :: opened) roots :=
  .inside tag hLeaves .nil

/-- A tree becomes the last child of the innermost open element. -/
theorem child {tags piece : List Event} {parent : OpenElement} {outer : List OpenElement}
    {roots : List Element} {e : Element} (hLeaves : Leaves tags (parent :: outer) roots)
    (hPiece : Linearizes piece [e]) :
    Leaves (tags ++ piece) (⟨parent.tag, e :: parent.children⟩ :: outer) roots := by
  cases hLeaves with
  | inside tag hBefore hInner => simpa using Leaves.inside tag hBefore (hInner.append hPiece)

theorem linearizes {tags : List Event} {roots : List Element} (hLeaves : Leaves tags [] roots) :
    Linearizes tags roots := by
  cases hLeaves with
  | top hRoots => exact hRoots

/-- The innermost open element is a tree once its end is there. -/
theorem close {tags : List Event} {innermost : OpenElement} {outer : List OpenElement}
    {roots : List Element} (hLeaves : Leaves tags (innermost :: outer) roots) :
    ∃ before piece, tags = before ++ piece ∧ Leaves before outer roots ∧
      Linearizes (piece ++ [.finish innermost.tag.name]) [innermost.close] := by
  cases hLeaves with
  | @inside before inner _ _ children tag hBefore hInner =>
      refine ⟨before, .start tag :: inner, rfl, hBefore, ?_⟩
      rw [OpenElement.close, List.reverse_reverse]
      exact .node tag hInner .nil

end Leaves

end Markup

open Markup

/-! ### What a build does with trees -/

namespace Build

/-- Trees become the children of the innermost open element, the last one in front. -/
theorem foldlM_attach (tag : Tag) (earlier : List Element) (opened : List OpenElement)
    (root? : Option Element) (trees : List Element) :
    trees.foldlM attach ⟨⟨tag, earlier⟩ :: opened, root?⟩ =
      .ok ⟨⟨tag, trees.reverse ++ earlier⟩ :: opened, root?⟩ := by
  induction trees generalizing earlier with
  | nil => rfl
  | cons e trees ih =>
      rw [List.reverse_cons, List.append_assoc]
      exact ih (e :: earlier)

theorem foldlM_attach_start (build : Build) (tag : Tag) (trees : List Element) :
    trees.foldlM attach ⟨⟨tag, []⟩ :: build.opened, build.root?⟩ =
      .ok ⟨⟨tag, trees.reverse⟩ :: build.opened, build.root?⟩ := by
  rw [foldlM_attach, List.append_nil]

/-- An end attaches the element that it closes, with its children in order. -/
theorem step_finish (build : Build) (tag : Tag) (name : String) (children : List Element) :
    step ⟨⟨tag, children.reverse⟩ :: build.opened, build.root?⟩ (.finish name) =
      build.attach ⟨tag.name, tag.attributes, children⟩ := by
  simp only [step, OpenElement.close, List.reverse_reverse]

/-- What is no tag leaves the build alone. -/
theorem foldlM_tagsOf (events : List Event) (build : Build) :
    (tagsOf events).foldlM step build = events.foldlM step build := by
  induction events generalizing build with
  | nil => rfl
  | cons event events ih =>
      cases event with
      | aside => exact ih build
      | _ =>
          rw [tagsOf, List.filter_cons_of_pos (by simp), List.foldlM_cons, List.foldlM_cons]
          exact bind_congr ih

end Build

namespace Markup

/-- The tags of some trees put the trees in their places. -/
theorem Linearizes.foldlM {tags : List Event} {trees : List Element}
    (hTags : Linearizes tags trees) (build : Build) :
    tags.foldlM Build.step build = trees.foldlM Build.attach build := by
  induction hTags generalizing build with
  | nil => rfl
  | empty tag _ ih =>
      rw [List.foldlM_cons, List.foldlM_cons, Build.step]
      exact bind_congr ih
  | @node inner rest children trees tag _ _ ihInner ihRest =>
      have hInside : (.start tag :: inner).foldlM Build.step build =
          .ok ⟨⟨tag, children.reverse⟩ :: build.opened, build.root?⟩ :=
        (ihInner _).trans (build.foldlM_attach_start tag children)
      calc (.start tag :: inner ++ .finish tag.name :: rest).foldlM Build.step build
          = (.finish tag.name :: rest).foldlM Build.step
              ⟨⟨tag, children.reverse⟩ :: build.opened, build.root?⟩ := by
            rw [List.foldlM_append, hInside]
            rfl
        _ = build.attach ⟨tag.name, tag.attributes, children⟩ >>=
              rest.foldlM Build.step := by
            rw [List.foldlM_cons, build.step_finish]
        _ = build.attach ⟨tag.name, tag.attributes, children⟩ >>=
              trees.foldlM Build.attach := bind_congr ihRest

/-- A tree is put in its place when its last tag is there, and not before. -/
theorem Linearizes.exists_last {tags : List Event} {e : Element} (hTags : Linearizes tags [e])
    (build : Build) :
    ∃ before last inside, tags = before ++ [last] ∧
      before.foldlM Build.step build = .ok inside ∧ inside.step last = build.attach e := by
  cases hTags with
  | empty tag hRest =>
      rw [hRest.eq_nil]
      exact ⟨[], _, build, rfl, rfl, rfl⟩
  | @node inner _ children _ tag hInner hRest =>
      rw [hRest.eq_nil]
      exact ⟨.start tag :: inner, .finish tag.name, _, rfl,
        (hInner.foldlM _).trans (build.foldlM_attach_start tag children),
        build.step_finish tag tag.name children⟩

/-- A build of some tags has exactly the elements open that the tags leave open, and the
first tree as its root. -/
theorem Leaves.foldlM {tags : List Event} {opened : List OpenElement} {roots : List Element}
    (hLeaves : Leaves tags opened roots) (hRoots : roots.length ≤ 1) :
    tags.foldlM Build.step .empty = .ok ⟨opened, roots.head?⟩ := by
  induction hLeaves with
  | @top tags roots hTags =>
      rw [hTags.foldlM]
      match roots, hRoots with
      | [], _ => rfl
      | [_], _ => rfl
  | @inside before inner opened roots children tag _ hInner ih =>
      rw [List.foldlM_append, ih hRoots]
      exact (hInner.foldlM _).trans (Build.foldlM_attach_start ⟨opened, roots.head?⟩ tag children)

end Markup

/-! ### What has been built at each event -/

namespace Build

/-- The build is at the end of these tags. -/
def Follows (build : Build) (tags : List Event) : Prop :=
  Leaves tags build.opened build.root?.toList

/-- The names of the open elements, innermost first. -/
def names (build : Build) : List String :=
  build.opened.map (·.tag.name)

theorem follows_empty : empty.Follows [] :=
  .top .nil

/-- What comes of reading some events while others are still to come. -/
inductive Reached (events later : List Event) : Except ProgramIndex.Fault Build → Prop where
  | ok {build : Build} (hFollows : build.Follows (tagsOf events))
      (hNests : Nests build.names later) : Reached events later (.ok build)
  | error {fault : ProgramIndex.Fault} (hSecond : SecondRoot events fault) :
      Reached events later (.error fault)

/-- A tree that an event completes finds its place, unless it is the second one. -/
theorem reached_attach {build : Build} {tags piece before later : List Event} {event : Event}
    {e : Element} (hFollows : build.Follows tags) (hPiece : Linearizes piece [e])
    (hTag : event ≠ .aside) (hTags : tagsOf (before ++ [event]) = tags ++ piece)
    (hNests : Nests build.names later) :
    Reached (before ++ [event]) later (build.attach e) := by
  obtain ⟨opened, root?⟩ := build
  cases opened with
  | cons parent outer =>
      exact .ok (by rw [hTags]; exact Leaves.child hFollows hPiece) hNests
  | nil =>
      have hRoots := (Leaves.linearizes hFollows).append hPiece
      rw [← hTags] at hRoots
      cases root? with
      | none => exact .ok (.top hRoots) hNests
      | some first => exact .error (.mk rfl hTag hRoots)

/-- One event takes a build to the end of its tags. -/
theorem reached_step {build : Build} {before later : List Event} {event : Event}
    (hFollows : build.Follows (tagsOf before)) (hNests : Nests build.names (event :: later)) :
    Reached (before ++ [event]) later (build.step event) := by
  cases event with
  | start tag =>
      refine .ok ?_ hNests
      rw [tagsOf_concat (by simp)]
      exact Leaves.start hFollows tag
  | empty tag =>
      exact reached_attach hFollows (.empty tag .nil) (by simp) (tagsOf_concat (by simp) _) hNests
  | finish name =>
      obtain ⟨opened, root?⟩ := build
      cases opened with
      | nil => exact hNests.elim
      | cons innermost outer =>
          obtain ⟨rfl, hLater⟩ := hNests
          obtain ⟨earlier, piece, hTags, hOuter, hPiece⟩ := Leaves.close hFollows
          refine @reached_attach ⟨outer, root?⟩ _ _ _ _ _ _ hOuter hPiece (by simp) ?_ hLater
          rw [tagsOf_concat (by simp), hTags, List.append_assoc]
  | aside =>
      refine .ok ?_ hNests
      rw [tagsOf_concat_aside]
      exact hFollows

/-- A whole sequence of events takes a build to the end of its tags. The induction is over
the events still to come. -/
theorem reached_foldlM {build : Build} {before later : List Event}
    (hFollows : build.Follows (tagsOf before)) (hNests : Nests build.names later) :
    Reached (before ++ later) [] (later.foldlM step build) := by
  induction later generalizing build before with
  | nil =>
      rw [List.append_nil]
      exact .ok hFollows trivial
  | cons event later ih =>
      have hStep := reached_step hFollows hNests
      rw [List.foldlM_cons]
      cases hAttempt : build.step event with
      | ok grown =>
          rw [hAttempt] at hStep
          cases hStep with
          | ok hGrown hLater =>
              have hRest := ih hGrown hLater
              rw [List.append_assoc] at hRest
              exact hRest
      | error fault =>
          rw [hAttempt] at hStep
          cases hStep with
          | error hSecond =>
              rw [List.append_cons]
              exact .error (hSecond.append later)

end Build

/-! ### The trees of documents -/

namespace Markup

/-- A second tree is refused at the event that completes it. -/
theorem SecondRoot.exists_step {before : List Event} {event : Event} {first second : Element}
    (hTag : event ≠ .aside) (hRoots : Linearizes (tagsOf (before ++ [event])) [first, second]) :
    ∃ build, before.foldlM Build.step .empty = .ok build ∧
      build.step event = .error (.malformedEntry first.name (.secondRoot second.name)) := by
  obtain ⟨firstTags, secondTags, hTags, hFirst, hSecond⟩ := hRoots.exists_append
  obtain ⟨earlier, last, inside, rfl, hInside, hLast⟩ := hSecond.exists_last ⟨[], some first⟩
  rw [tagsOf_concat hTag, ← List.append_assoc] at hTags
  obtain ⟨hBefore, hEvent⟩ := List.append_inj' hTags rfl
  obtain rfl := List.singleton_inj.mp hEvent
  refine ⟨inside, ?_, hLast⟩
  rw [← Build.foldlM_tagsOf, hBefore, List.foldlM_append, hFirst.foldlM]
  exact hInside

/-- A second tree stops the build, whatever comes later. -/
theorem SecondRoot.foldlM {events : List Event} {fault : ProgramIndex.Fault}
    (hSecond : SecondRoot events fault) : events.foldlM Build.step .empty = .error fault := by
  cases hSecond with
  | @mk before later event first second hEvents hTag hRoots =>
      obtain ⟨build, hBefore, hEvent⟩ := SecondRoot.exists_step hTag hRoots
      rw [hEvents, List.foldlM_append, hBefore]
      change (event :: later).foldlM Build.step build = _
      rw [List.foldlM_cons, hEvent]
      rfl

end Markup

namespace Element

/-- The tags of one tree are built into this tree. -/
theorem ofEvents_of_linearizes {events : List Event} {e : Element}
    (hTree : Linearizes (tagsOf events) [e]) : ofEvents events = .ok e := by
  rw [ofEvents, ← Build.foldlM_tagsOf, hTree.foldlM]
  rfl

/-- Tags that are not those of one tree are refused with what is wrong with them. -/
theorem ofEvents_of_misplaced {events : List Event} {fault : ProgramIndex.Fault}
    (hMisplaced : Misplaced events fault) : ofEvents events = .error fault := by
  rw [ofEvents, ← Build.foldlM_tagsOf]
  cases hMisplaced with
  | secondRoot hSecond =>
      rw [Build.foldlM_tagsOf, hSecond.foldlM]
      rfl
  | openAtEnd hLeaves hRoots hOutermost =>
      rw [hLeaves.foldlM hRoots]
      simp only [bind, Except.bind, Build.finish, hOutermost]
  | noRoot hNone =>
      rw [hNone]
      rfl

/-- Every sequence of events either stands for a tree or has one of the faults. -/
theorem linearizes_or_misplaced {events : List Event} (hNests : Nests [] events) :
    (∃ e, Linearizes (tagsOf events) [e]) ∨ ∃ fault, Misplaced events fault := by
  have hReached : Build.Reached events [] (events.foldlM Build.step .empty) :=
    @Build.reached_foldlM .empty [] events Build.follows_empty hNests
  generalize events.foldlM Build.step .empty = attempt at hReached
  cases hReached with
  | error hSecond => exact .inr ⟨_, .secondRoot hSecond⟩
  | @ok build hFollows _ =>
      obtain ⟨opened, root?⟩ := build
      cases hOutermost : opened.getLast? with
      | some outermost =>
          exact .inr ⟨_, .openAtEnd hFollows (by cases root? <;> simp) hOutermost⟩
      | none =>
          obtain rfl := List.getLast?_eq_none_iff.mp hOutermost
          cases root? with
          | some root => exact .inl ⟨root, Leaves.linearizes hFollows⟩
          | none => exact .inr ⟨_, .noRoot (Leaves.linearizes hFollows).eq_nil⟩

/-- As every sequence of events is of one of these two sorts, a tree is built only from its
tags. -/
theorem ofEvents_eq_ok_iff {events : List Event} (hNests : Nests [] events) {e : Element} :
    ofEvents events = .ok e ↔ Linearizes (tagsOf events) [e] := by
  refine ⟨fun hTree => ?_, ofEvents_of_linearizes⟩
  obtain ⟨other, hOther⟩ | ⟨fault, hFault⟩ := linearizes_or_misplaced hNests
  · obtain rfl := Except.ok.inj (hTree.symm.trans (ofEvents_of_linearizes hOther))
    exact hOther
  · cases hTree.symm.trans (ofEvents_of_misplaced hFault)

theorem ofEvents_eq_error_iff {events : List Event} (hNests : Nests [] events)
    {fault : ProgramIndex.Fault} : ofEvents events = .error fault ↔ Misplaced events fault := by
  refine ⟨fun hFault => ?_, ofEvents_of_misplaced⟩
  obtain ⟨e, hTree⟩ | ⟨other, hOther⟩ := linearizes_or_misplaced hNests
  · cases hFault.symm.trans (ofEvents_of_linearizes hTree)
  · obtain rfl := Except.error.inj (hFault.symm.trans (ofEvents_of_misplaced hOther))
    exact hOther

end Element

namespace Markup

/-- A tag that is read as an end closes the innermost open element; the reader sees to that.
-/
theorem nests_tagEvent {opened inside : List String} {content : List Char} {event : Event}
    {later : List Event} (hEvent : tagEvent opened content = .ok (event, inside))
    (hLater : Nests inside later) : Nests opened (event :: later) := by
  unfold tagEvent at hEvent
  split at hEvent
  · split at hEvent
    · cases hEvent
    · dsimp only at hEvent
      split at hEvent
      · rename_i hName
        cases hEvent
        exact ⟨hName, hLater⟩
      · cases hEvent
  · split at hEvent
    · obtain ⟨tag, -, hPair⟩ := map_eq_ok_iff.mp hEvent
      cases hPair
      exact hLater
    · obtain ⟨tag, -, hPair⟩ := map_eq_ok_iff.mp hEvent
      cases hPair
      exact hLater

theorem aside_eq_ok {construct : Construct} {content : List Char} {event : Event}
    (hEvent : construct.aside content = .ok event) : event = .aside := by
  unfold Construct.aside at hEvent
  extract_lets spelled at hEvent
  split at hEvent
  · cases hEvent
  · split at hEvent
    · cases hEvent
    · cases hEvent
      rfl

/-- So does every event that is read, whatever markup it is. -/
theorem nests_readEvent {opened inside : List String} {text rest : List Char} {event : Event}
    {later : List Event} (hEvent : readEvent opened text = .ok (event, inside, rest))
    (hLater : Nests inside later) : Nests opened (event :: later) := by
  unfold readEvent at hEvent
  split at hEvent
  · cases hEvent
  · split at hEvent
    · cases hEvent
    · split at hEvent
      · obtain ⟨⟨found, names⟩, hTag, hPair⟩ := map_eq_ok_iff.mp hEvent
        cases hPair
        exact nests_tagEvent hTag hLater
      · obtain ⟨found, hAside, hPair⟩ := map_eq_ok_iff.mp hEvent
        cases hPair
        rw [aside_eq_ok hAside]
        exact hLater

/-- The events that are found in a text nest, up to its end or to the first fault in it. -/
theorem nests_scanInside (opened : List String) (text : List Char) :
    Nests opened (scanInside opened text).events := by
  fun_induction scanInside opened text with
  | case1 => trivial
  | case2 => trivial
  | case3 opened text head markup hMarkup event inside rest hRead later ih =>
      exact nests_readEvent hRead ih

/-- The events of every text nest, whether the text is well-formed or not. -/
theorem nests_scan (text : String) : Nests [] (scan text).events := by
  unfold scan
  split <;> exact nests_scanInside [] _

end Markup

namespace Element

/-- A text is read exactly if nothing is wrong with its markup and its tags are those of one
tree. -/
theorem parse_eq_ok_iff {text : String} {e : Element} :
    parse text = .ok e ↔
      (scan text).fault? = none ∧ Linearizes (tagsOf (scan text).events) [e] := by
  rw [parse]
  cases (scan text).fault? with
  | none =>
      rw [← ofEvents_eq_ok_iff (nests_scan text), eq_self, true_and]
  | some cause =>
      cases (scan text).events.foldlM Build.step .empty <;> simp

/-- Whatever markup there is, a second tree is refused before any of it that comes later. -/
theorem parse_of_secondRoot {text : String} {fault : ProgramIndex.Fault}
    (hSecond : SecondRoot (scan text).events fault) : parse text = .error fault := by
  rw [parse]
  cases (scan text).fault? with
  | none => exact ofEvents_of_misplaced (.secondRoot hSecond)
  | some cause => simp only [hSecond.foldlM]

/-- Events whose ends close the innermost open elements, as those of any text do. They stand
for a tree exactly if their tags are those of this one tree. Otherwise a second tree is
complete at some event, where it is refused whatever comes later, or an element is open at
the end, or there is no element. So a text is read exactly if nothing is wrong with its markup
and its tags are those of one tree. -/
theorem ofEvents_iff_linearizes {events : List Event} (hNests : Nests [] events) :
    (∀ e, ofEvents events = .ok e ↔ Linearizes (tagsOf events) [e]) ∧
    (∀ fault, ofEvents events = .error fault ↔ Misplaced events fault) ∧
    (∀ before event later first second, events = before ++ event :: later → event ≠ .aside →
      Linearizes (tagsOf (before ++ [event])) [first, second] →
        ∃ build, before.foldlM Build.step .empty = .ok build ∧
          build.step event = .error (.malformedEntry first.name (.secondRoot second.name))) ∧
    (∀ text, (scan text).events = events →
      ((scan text).fault? = none → parse text = ofEvents events) ∧
        ∀ fault, SecondRoot events fault → parse text = .error fault) ∧
    ∀ text, Nests [] (scan text).events ∧ ∀ e, parse text = .ok e ↔
      (scan text).fault? = none ∧ Linearizes (tagsOf (scan text).events) [e] := by
  refine ⟨fun e => ofEvents_eq_ok_iff hNests, fun fault => ofEvents_eq_error_iff hNests,
    fun before event later first second _ hTag hRoots => SecondRoot.exists_step hTag hRoots, ?_,
    fun text => ⟨nests_scan text, fun e => parse_eq_ok_iff⟩⟩
  rintro text rfl
  refine ⟨fun hSound => ?_, fun fault => parse_of_secondRoot⟩
  rw [parse, hSound]

/-- A tree with both forms of childless elements and with comments. Behind it a second
element of the root's own name is complete only after another one inside it. -/
theorem ofEvents_iff_linearizes_nested :
    ∃ (events more : List Event) (e : Element),
      events = [.aside, .start ⟨"a", [("k", "v")]⟩, .empty ⟨"b", []⟩, .aside, .start ⟨"a", []⟩,
        .finish "a", .finish "a", .aside] ∧
      more = [.start ⟨"a", []⟩, .empty ⟨"c", []⟩, .finish "a", .start ⟨"d", []⟩] ∧
      e = ⟨"a", [("k", "v")], [⟨"b", [], []⟩, ⟨"a", [], []⟩]⟩ ∧
      Nests [] events ∧ Linearizes (tagsOf events) [e] ∧ ofEvents events = .ok e ∧
      Nests [] (events ++ more) ∧
      Misplaced (events ++ more) (.malformedEntry "a" (.secondRoot "a")) ∧
      ofEvents (events ++ more) = .error (.malformedEntry "a" (.secondRoot "a")) :=
  ⟨_, _, _, rfl, rfl, rfl, by decide, ((ofEvents_iff_linearizes (by decide)).1 _).mp rfl, rfl,
    by decide, ((ofEvents_iff_linearizes (by decide)).2.1 _).mp rfl, rfl⟩

end Element

end ProgramIndex
