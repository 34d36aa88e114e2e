import Flowscript.Element.Json
import Flowscript.Text
import Flowscript.Workflow.Basic

/-!
# The graph of a workflow

What a drawing of a workflow needs: a labelled entry for each node and a link for each edge, and
both as indented JSON.
-/

namespace Flowscript

/-- Captions longer than this are cut in labels. -/
def captionLimit : Nat :=
  50

/-- A caption cut to the limit, with three dots for what is missing. -/
def truncateCaption (caption : String) : String :=
  if captionLimit < caption.length then
    String.ofList (caption.toList.take captionLimit) ++ "..."
  else
    caption

/-- The last part of a plugin name between dots, or the whole name where that part is empty. -/
def Node.shortPlugin (n : Node) : String :=
  match Text.lastSegment (· == '.') n.plugin.toList with
  | [] => n.plugin
  | segment => String.ofList segment

/-- The label of a node: its id, its short plugin name, and its caption or else its plugin. -/
def Node.label (n : Node) : String :=
  if n.placeholder then
    "Missing Node"
  else
    let detail := ((nonempty n.caption).map truncateCaption).getD n.plugin
    n.id ++ " - " ++ n.shortPlugin ++ " - " ++ detail

/-- A node in a drawing. `raw` is the indented JSON of the element it was read from. -/
structure GraphNode where
  id : String
  label : String
  raw : Option String
deriving DecidableEq, Repr

/-- An edge in a drawing. -/
structure GraphLink where
  source : String
  target : String
deriving DecidableEq, Repr

/-- The nodes and edges of a drawing. -/
structure Graph where
  nodes : List GraphNode
  links : List GraphLink
deriving DecidableEq, Repr

def GraphNode.ofNode (n : Node) : GraphNode :=
  { id := n.id, label := n.label, raw := n.source.map fun e => e.toJson.pretty }

def GraphNode.toJson (n : GraphNode) : Json String :=
  .obj ([("id", .str n.id), ("label", .str n.label)] ++ (n.raw.map fun r => ("raw", .str r)).toList)

def GraphLink.ofEdge (e : Edge) : GraphLink :=
  { source := e.origin, target := e.dest }

def GraphLink.toJson (l : GraphLink) : Json String :=
  .obj [("source", .str l.source), ("target", .str l.target)]

namespace Graph

/-- The graph of a workflow. -/
def ofWorkflow (w : Workflow) : Graph :=
  { nodes := w.nodes.map GraphNode.ofNode, links := w.edges.map GraphLink.ofEdge }

def toJson (g : Graph) : Json String :=
  .obj [
    ("nodes", .arr (g.nodes.map GraphNode.toJson)),
    ("links", .arr (g.links.map GraphLink.toJson))]

/-- The graph as indented JSON text. -/
def text (g : Graph) : String :=
  g.toJson.pretty

end Graph

end Flowscript
