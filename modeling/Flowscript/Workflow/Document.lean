import Flowscript.Workflow.Basic

/-!
# Workflows from documents

`Workflow.ofDocument` builds a workflow from the root element of a document. Entries for nodes may
be nested in containers; they are taken in document order, a container before what it holds, and of
entries with the same id the first counts. Every end of an edge gets a node: where no entry declares
it, a stand-in. The ids that have a node are remembered all along.
-/

namespace Flowscript

/-- The node that an entry declares, if it has an id. -/
def Node.ofEntry? (entry : Element) : Option Node := do
  let id ← nonempty (entry.attr "ToolID")
  return {
    id
    plugin := (nonempty (entry.attrAt ["GuiSettings"] "Plugin")).getD unknownPlugin
    properties := (entry.child "Properties").getD { name := "Properties" }
    caption := entry.textAt ["Properties", "Annotation", "DefaultAnnotationText"]
    template := nonempty (entry.attrAt ["EngineSettings"] "Macro")
    source := some entry }

/-- The edge that an entry declares, if it has an id at both ends. -/
def Edge.ofEntry? (entry : Element) : Option Edge := do
  let origin ← entry.child "Origin"
  let dest ← entry.child "Destination"
  let originId ← nonempty (origin.attr "ToolID")
  let destId ← nonempty (dest.attr "ToolID")
  return {
    origin := originId
    dest := destId
    originAnchor := origin.attr "Connection"
    destAnchor := dest.attr "Connection" }

namespace Workflow

/-- Why a document is no workflow. -/
inductive Error where
  | unexpectedRoot (found : String)
deriving DecidableEq, Repr

/-- The name of the root element of a workflow. -/
def rootName : String :=
  "AlteryxDocument"

def Error.message : Error → String
  | .unexpectedRoot found =>
    "Expected a '" ++ rootName ++ "' root element, but found '" ++ found ++ "'"

/-- A workflow under construction: its nodes and edges so far, and the set of the ids that have a
node. -/
structure Draft where
  nodes : List Node := []
  edges : List Edge := []
  known : List String := []

namespace Draft

/-- Takes in a node, unless there is one with its id. -/
def addNode (d : Draft) (n : Node) : Draft :=
  if n.id ∈ d.known then d else { d with nodes := d.nodes ++ [n], known := n.id :: d.known }

/-- Takes in the node that an entry declares, if any. -/
def addEntry (d : Draft) (entry : Element) : Draft :=
  match Node.ofEntry? entry with
  | none => d
  | some n => d.addNode n

/-- Takes in an edge, behind stand-ins for those of its ends that have no node. -/
def addEdge (d : Draft) (e : Edge) : Draft :=
  let d := (d.addNode (.standIn e.origin)).addNode (.standIn e.dest)
  { d with edges := d.edges ++ [e] }

/-- Takes in the edge that an entry declares, if any. -/
def addConnection (d : Draft) (entry : Element) : Draft :=
  match Edge.ofEntry? entry with
  | none => d
  | some e => d.addEdge e

mutual

/-- Takes in the node entries that an element holds. -/
def collect (d : Draft) : Element → Draft
  | ⟨_, _, _, _, children⟩ => collectNodes d children

/-- Takes in the entries contained in a node entry. -/
def collectNested (d : Draft) : Element → Draft
  | ⟨_, _, _, _, children⟩ => collectContained d children

/-- Takes in the node entries among these elements, each followed by the entries that it contains. -/
def collectNodes (d : Draft) : List Element → Draft
  | [] => d
  | e :: es =>
    if e.name = "Node" then
      collectNodes (collectNested (d.addEntry e) e) es
    else
      collectNodes d es

/-- Takes in the node entries in the first list of contained nodes among these elements. -/
def collectContained (d : Draft) : List Element → Draft
  | [] => d
  | e :: es => if e.name = "ChildNodes" then collect d e else collectContained d es

end

/-- The draft of a document: first all of its node entries, then its connections. -/
def ofDocument (document : Element) : Draft :=
  let d : Draft :=
    match document.child "Nodes" with
    | none => {}
    | some collection => collect {} collection
  (document.childrenAt ["Connections"] "Connection").foldl addConnection d

end Draft

/-- The workflow that a document describes. -/
def ofDocument (document : Element) : Except Error Workflow :=
  if document.name = rootName then
    let d := Draft.ofDocument document
    .ok { nodes := d.nodes, edges := d.edges }
  else
    .error (.unexpectedRoot document.name)

end Workflow

end Flowscript
