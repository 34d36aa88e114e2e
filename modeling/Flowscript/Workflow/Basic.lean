import Flowscript.Element.Basic

/-!
# Workflows

A workflow is a list of nodes and a list of edges between their ids. Nothing is asked of either:
ids may repeat and edges may name ids that no node has.
-/

namespace Flowscript

/-- One tool of a workflow. `properties` holds its settings, the ones of its kind under
`Configuration`; `template` names the template that the node expands, if it does; `source` is the
element that the node was read from; a stand-in for an id that only edges mention is a
`placeholder`. -/
structure Node where
  id : String
  plugin : String
  properties : Element := { name := "Properties" }
  caption : Option String := none
  template : Option String := none
  source : Option Element := none
  placeholder : Bool := false
deriving DecidableEq, Repr

namespace Node

/-- The plugin of a node that names none. -/
def unknownPlugin : String :=
  "Unknown"

/-- The stand-in for an id that edges mention and no node has. -/
def standIn (id : String) : Node :=
  { id, plugin := unknownPlugin, placeholder := true }

/-- The settings of the node's kind, if there are any. -/
def configuration (n : Node) : Option Element :=
  n.properties.child "Configuration"

/-- The node with these settings in place of those it had. -/
def withConfiguration (n : Node) (c : Element) : Node :=
  let others := n.properties.children.filter (·.name ≠ "Configuration")
  { n with properties := { n.properties with children := others ++ [c] } }

end Node

/-- A connection from the output of one node to the input of another, with the names of the
anchors that it joins. -/
structure Edge where
  origin : String
  dest : String
  originAnchor : Option String := none
  destAnchor : Option String := none
deriving DecidableEq, Repr

/-- Nodes and edges, in the order of their declaration. -/
structure Workflow where
  nodes : List Node
  edges : List Edge
deriving DecidableEq, Repr

/-- The first node with this id. -/
def Workflow.node? (w : Workflow) (id : String) : Option Node :=
  w.nodes.find? (·.id = id)

end Flowscript
