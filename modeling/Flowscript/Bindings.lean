import Flowscript.Index
import Flowscript.Workflow.Basic

/-!
# Bindings

Which frame, a variable of the script, holds the output of which node. A node is bound once and for
all. The frames are kept in a table, and beside it the ids in the order in which they were bound; the
two are changed together, by `bind` alone. Indexes of the edges tell a node where its inputs come
from. They are filled once, in one pass over the edges of the workflow.
-/

namespace Flowscript

/-- Why a node has no input, or cannot be bound. -/
inductive BindingError where
  | unbound (node predecessor : String)
  | alreadyBound (node existing : String)
deriving DecidableEq, Repr

def BindingError.message : BindingError → String
  | .unbound node predecessor =>
    "Node '" ++ node ++ "' reads from node '" ++ predecessor ++ "', which has no bound output"
  | .alreadyBound node existing => "Node '" ++ node ++ "' is already bound to '" ++ existing ++ "'"

/-- The stem of frame names, the ends of the edges from each id, the origins of the edges into each
id, these edges themselves, the frames of the nodes that are bound, and their ids in the order of the
bindings. -/
structure Bindings where
  stem : String
  ends : List (String × List String) := []
  origins : List (String × List String) := []
  entering : List (String × List Edge) := []
  held : List (String × String) := []
  order : List String := []
deriving DecidableEq, Repr

namespace Bindings

/-- The indexes with one more edge. -/
def addEdge (b : Bindings) (e : Edge) : Bindings :=
  { b with
    ends := record e.origin e.dest b.ends
    origins := record e.dest e.origin b.origins
    entering := record e.dest e b.entering }

/-- The edges of a workflow, and no bindings yet. -/
def ofWorkflow (w : Workflow) (stem : String) : Bindings :=
  w.edges.foldl addEdge { stem }

/-- The ends of the edges from this id, in the order of the edges. -/
def outgoing (b : Bindings) (id : String) : List String :=
  recorded b.ends id

/-- The origins of the edges into this id, in the order of the edges. -/
def incoming (b : Bindings) (id : String) : List String :=
  recorded b.origins id

/-- The edges into this id, in their order. -/
def incomingEdges (b : Bindings) (id : String) : List Edge :=
  recorded b.entering id

/-- The frame that a node writes to, bound or not. -/
def frameName (b : Bindings) (id : String) : String :=
  b.stem ++ id

/-- The frame that a node is bound to. -/
def frame? (b : Bindings) (id : String) : Option String :=
  b.held.lookup id

/-- The frame of the one predecessor of a node. A node with no predecessor or with several has
no single input. -/
def singleInput (b : Bindings) (id : String) : Except BindingError (Option String) :=
  match b.incoming id with
  | [predecessor] =>
    match b.frame? predecessor with
    | some frame => .ok (some frame)
    | none => .error (.unbound id predecessor)
  | _ => .ok none

/-- Binds a node to a frame, unless it is bound already. Returns whether that went well, and the
bindings afterwards. -/
def bind (b : Bindings) (id frame : String) : Except BindingError Unit × Bindings :=
  match b.frame? id with
  | some existing => (.error (.alreadyBound id existing), b)
  | none => (.ok (), { b with held := put id frame b.held, order := b.order ++ [id] })

/-- The bound nodes with their frames, in the order of the bindings. -/
def bound (b : Bindings) : List (String × String) :=
  b.order.filterMap fun id => (b.frame? id).map (id, ·)

/-- The bound frames in the order of the bindings. -/
def frames (b : Bindings) : List String :=
  b.order.filterMap b.frame?

end Bindings

end Flowscript
