/-!
# Elements

A document is a tree of named elements. Attributes keep their order and may repeat a key. Text and
CDATA are kept apart, and an absent one differs from an empty one; the look-ups `nonemptyText` and
`nonemptyCdata` do not tell them apart.
-/

namespace Flowscript

/-- A named element with attributes, character data and child elements. -/
structure Element where
  name : String
  attributes : List (String × String) := []
  text : Option String := none
  cdata : Option String := none
  children : List Element := []
deriving Inhabited, Repr

/-- A value that is present and not empty. -/
def nonempty (value : Option String) : Option String :=
  value.filter (· ≠ "")

namespace Element

mutual

def decEq : (a b : Element) → Decidable (a = b)
  | ⟨n, as, t, c, es⟩, ⟨n', as', t', c', es'⟩ =>
    if h : n = n' ∧ as = as' ∧ t = t' ∧ c = c' then
      match decEqs es es' with
      | isTrue he => isTrue (by simp [h, he])
      | isFalse he => isFalse (by simp [he])
    else
      isFalse (by simp only [Element.mk.injEq]; grind)

def decEqs : (as bs : List Element) → Decidable (as = bs)
  | [], [] => isTrue rfl
  | [], _ :: _ => isFalse nofun
  | _ :: _, [] => isFalse nofun
  | a :: as, b :: bs =>
    match decEq a b, decEqs as bs with
    | isTrue h, isTrue h' => isTrue (by simp [h, h'])
    | isFalse h, _ => isFalse (by simp [h])
    | _, isFalse h => isFalse (by simp [h])

end

instance : DecidableEq Element :=
  decEq

/-- The value of the first attribute with this key. -/
def attr (e : Element) (key : String) : Option String :=
  e.attributes.lookup key

/-- The text, if there is any. -/
def nonemptyText (e : Element) : Option String :=
  nonempty e.text

/-- The CDATA, if there is any. -/
def nonemptyCdata (e : Element) : Option String :=
  nonempty e.cdata

/-- The first child with this name. -/
def child (e : Element) (name : String) : Option Element :=
  e.children.find? (·.name = name)

/-- All children with this name, in document order. -/
def childrenNamed (e : Element) (name : String) : List Element :=
  e.children.filter (·.name = name)

/-- The element that a chain of first children leads to. -/
def path (e : Element) : List String → Option Element
  | [] => some e
  | name :: names => (e.child name).bind (path · names)

/-- The text of the element at a path, if there is any. -/
def textAt (e : Element) (names : List String) : Option String :=
  (e.path names).bind nonemptyText

/-- An attribute of the element at a path. -/
def attrAt (e : Element) (names : List String) (key : String) : Option String :=
  (e.path names).bind (attr · key)

/-- The children with this name of the element at a path; none if the path leads nowhere. -/
def childrenAt (e : Element) (names : List String) (name : String) : List Element :=
  ((e.path names).map (childrenNamed · name)).getD []

/-- The element with one more attribute at the end. -/
def withAttr (e : Element) (key value : String) : Element :=
  { e with attributes := e.attributes ++ [(key, value)] }

/-- The element with one more child at the end. -/
def withChild (e c : Element) : Element :=
  { e with children := e.children ++ [c] }

end Element

end Flowscript
