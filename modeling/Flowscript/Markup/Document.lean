import Flowscript.Markup.Progress

/-!
# Documents

`parse` reads a document into its root element. The elements that are open wait on a stack,
innermost first; one that is complete becomes the last child of the next. The root is the first
element that is complete at top level; what follows it is read and dropped.

An event reader leaves the shape of the whole document to its caller, so what XML asks of it is
decided here: a byte order mark is passed over, a declaration is not needed, texts outside the root
are dropped and further elements at top level are allowed, but not an element that is still open at
the end, nor a document without any. Texts and CDATA sections of an element are joined, each kind
for itself.
-/

namespace Flowscript.Markup

/-- The elements that are open, innermost first, and the root if it is complete. -/
structure Builder where
  stack : List Element := []
  root : Option Element := none
deriving DecidableEq, Repr

namespace Builder

/-- Puts a complete element in its place: behind the children of the innermost open element, or at
the root if that is still free. -/
def attach (b : Builder) (e : Element) : Builder :=
  match b.stack with
  | parent :: outer => { b with stack := parent.withChild e :: outer }
  | [] => { b with root := b.root <|> some e }

/-- Changes the innermost open element, if there is one. -/
def modifyTop (b : Builder) (f : Element → Element) : Builder :=
  match b.stack with
  | top :: outer => { b with stack := f top :: outer }
  | [] => b

/-- Takes in one event that ends at byte `position`. -/
def accept (b : Builder) (position : Nat) : Event → Except Error Builder
  | .start tag => do
    let e ← tag.element.mapError (.malformed position)
    return { b with stack := e :: b.stack }
  | .empty tag => do
    let e ← tag.element.mapError (.malformed position)
    return b.attach e
  | .stop name =>
    match b.stack with
    | [] => .error (.mismatchedTag "" name)
    | e :: outer =>
      if e.name = name then
        .ok ({ b with stack := outer }.attach e)
      else
        .error (.mismatchedTag e.name name)
  | .text value => do
    let value ← (unescape value).mapError (.malformed position)
    return b.modifyTop fun e => { e with text := some (e.text.getD "" ++ String.ofList value) }
  | .cdata value =>
    .ok (b.modifyTop fun e => { e with cdata := some (e.cdata.getD "" ++ String.ofList value) })
  | .skipped => .ok b

/-- The root, if everything is closed. -/
def finish (b : Builder) : Except Error Element :=
  match b.stack, b.root with
  | open_ :: _, _ => .error (.unexpectedEnd open_.name)
  | [], some root => .ok root
  | [], none => .error .empty

/-- Takes in all events from the cursor on. -/
def run (b : Builder) (s : Cursor) : Except Error Element :=
  match _h : s.next with
  | .error e => .error e
  | .ok none => b.finish
  | .ok (some (event, s')) =>
    match b.accept s'.offset event with
    | .error e => .error e
    | .ok b => b.run s'
termination_by s.rest.length
decreasing_by exact Cursor.next_length _h

end Builder

/-- The text without a byte order mark in front. -/
def dropMark (cs : List Char) : List Char :=
  match cs with
  | '\ufeff' :: cs => cs
  | _ => cs

/-- Reads a document into its root element. -/
def parse (source : String) : Except Error Element :=
  Builder.run {} { rest := dropMark source.toList }

end Flowscript.Markup
