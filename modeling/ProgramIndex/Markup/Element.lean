/-!
Trees of named elements with attributes. Text between elements is not part of
a tree; none of the documents of this library carries any.
-/

namespace ProgramIndex

/-- An element with its attributes in document order and its child elements. -/
structure Element where
  name : String
  attributes : List (String × String)
  children : List Element
  deriving Repr, Inhabited

namespace Element

def named (name : String) : Element :=
  ⟨name, [], []⟩

/-- Give the attribute a value in a list of attributes. An attribute that is
there already keeps its place, a new one comes last. -/
def setIn (key value : String) : List (String × String) → List (String × String)
  | [] => [(key, value)]
  | (k, v) :: rest => if k = key then (k, value) :: rest else (k, v) :: setIn key value rest

def set (e : Element) (key value : String) : Element :=
  { e with attributes := setIn key value e.attributes }

/-- The value of the first attribute with the given key. -/
def get? (e : Element) (key : String) : Option String :=
  e.attributes.lookup key

/-- Giving one key a value leaves the values of the other keys as they are. -/
theorem lookup_setIn (key value other : String) (attributes : List (String × String)) :
    (setIn key value attributes).lookup other =
      if other = key then some value else attributes.lookup other := by
  induction attributes with
  | nil => grind [setIn]
  | cons entry rest ih => grind [setIn]

@[simp] theorem get?_set (e : Element) (key value other : String) :
    (e.set key value).get? other = if other = key then some value else e.get? other :=
  lookup_setIn key value other e.attributes

def push (e child : Element) : Element :=
  { e with children := e.children ++ [child] }

/-- The direct children with the given name, in order. -/
def findAll (e : Element) (name : String) : List Element :=
  e.children.filter fun child => child.name = name

def find? (e : Element) (name : String) : Option Element :=
  e.children.find? fun child => child.name = name

/-- The elements of a tree from the root on, each before its children and with
its distance from the root added to `depth`. -/
def preorder (depth : Nat) : Element → List (Nat × String × List (String × String))
  | ⟨name, attributes, children⟩ =>
      (depth, name, attributes) :: children.flatMap fun child => child.preorder (depth + 1)

/-- Induction over a tree: a property that passes from all children of an
element to the element holds of every tree. -/
theorem induct {motive : Element → Prop}
    (step : ∀ name attributes children, (∀ child ∈ children, motive child) →
      motive ⟨name, attributes, children⟩) : ∀ e, motive e
  | ⟨name, attributes, children⟩ =>
      step name attributes children fun child _ => induct step child

mutual

def decideEq : (a b : Element) → Decidable (a = b)
  | ⟨name, attributes, children⟩, ⟨name', attributes', children'⟩ =>
      if hHead : name = name' ∧ attributes = attributes' then
        match decideEqAll children children' with
        | isTrue hChildren => isTrue (by rw [hHead.1, hHead.2, hChildren])
        | isFalse hChildren => isFalse fun h => hChildren (Element.mk.inj h).2.2
      else isFalse fun h => hHead ⟨(Element.mk.inj h).1, (Element.mk.inj h).2.1⟩

def decideEqAll : (a b : List Element) → Decidable (a = b)
  | [], [] => isTrue rfl
  | [], _ :: _ => isFalse nofun
  | _ :: _, [] => isFalse nofun
  | a :: as, b :: bs =>
      match decideEq a b with
      | isTrue hHead =>
          match decideEqAll as bs with
          | isTrue hTail => isTrue (by rw [hHead, hTail])
          | isFalse hTail => isFalse fun h => hTail (List.cons.inj h).2
      | isFalse hHead => isFalse fun h => hHead (List.cons.inj h).1

end

instance : DecidableEq Element := decideEq

end Element

end ProgramIndex
