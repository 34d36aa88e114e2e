import Flowscript.Proofs.Workflow.Document
import Mathlib.Data.List.Forall2

/-!
# What a document declares

The nodes of the workflow of a document are those that the walk through its entries comes to, of each id
the first (`declaredNodes_ids`, `declaredNodes_source`), and then a stand-in for every other end of an
edge (`standIns_eq`); its edges are those of the connections with both ends (`declaredEdges_joins`), and
`Edge.Joins` says what an edge takes over from its connection. `ofDocument_spec` puts these together.
-/

namespace Flowscript

namespace Element

variable {e : Element} {name key : String}

/-- The id that an element gives, if it gives one that is not empty. -/
def toolId? (e : Element) : Option String :=
  nonempty (e.attr "ToolID")

/-- The id that the first child with this name gives. -/
def toolIdOf? (e : Element) (name : String) : Option String :=
  (e.child name).bind toolId?

/-- An attribute at a path of one name is that of the first child with this name. -/
lemma attrAt_singleton : e.attrAt [name] key = (e.child name).bind (·.attr key) := by
  cases h : e.child name with
  | none => simp [attrAt, path, h]
  | some c => simp [attrAt, path, h]

end Element

/-! ## Nodes -/

/-- The id of the node that an entry declares is the one that the entry gives. -/
lemma Node.map_id_ofEntry? (entry : Element) : (Node.ofEntry? entry).map Node.id = entry.toolId? := by
  rw [Node.ofEntry?, Element.toolId?]
  cases nonempty (entry.attr "ToolID") with
  | none => rfl
  | some id => rfl

/-- A declared node remembers its entry, and it is no stand-in. -/
lemma Node.source_ofEntry? {entry : Element} {n : Node} (h : Node.ofEntry? entry = some n) :
    n.source = some entry ∧ n.placeholder = false := by
  obtain ⟨id, -, e⟩ := Option.bind_eq_some_iff.1 h
  cases e
  exact ⟨rfl, rfl⟩

namespace Workflow

variable {entries : List Element}

/-- The ids of the declared nodes are those that the entries give, each where it is first given. -/
lemma declaredNodes_ids (entries : List Element) :
    (declaredNodes entries).map Node.id = (entries.filterMap Element.toolId?).eraseDups := by
  rw [declaredNodes, keys_distinctBy, List.map_filterMap]
  simp [Node.map_id_ofEntry?]

/-- A declared node comes from the first entry with its id. -/
lemma declaredNodes_source {n : Node} (h : n ∈ declaredNodes entries) :
    n.source = entries.find? (fun e => e.toolId? = some n.id) ∧ n.placeholder = false := by
  have first := find?_distinctBy h
  rw [List.find?_filterMap] at first
  obtain ⟨entry, found, made⟩ := Option.bind_eq_some_iff.1 first
  obtain ⟨source, placeholder⟩ := Node.source_ofEntry? made
  refine ⟨?_, placeholder⟩
  rw [source, ← found]
  congr 1
  funext e
  rw [← Node.map_id_ofEntry?]
  cases Node.ofEntry? e with
  | none => rfl
  | some m => simp

/-! ## Edges -/

end Workflow

/-- The edge joins the ends that a connection names, at the anchors that it names. -/
structure Edge.Joins (entry : Element) (e : Edge) : Prop where
  origin : entry.toolIdOf? "Origin" = some e.origin
  dest : entry.toolIdOf? "Destination" = some e.dest
  originAnchor : entry.attrAt ["Origin"] "Connection" = e.originAnchor
  destAnchor : entry.attrAt ["Destination"] "Connection" = e.destAnchor

/-- Whether a connection names both of its ends. -/
def Element.hasEnds (entry : Element) : Bool :=
  (entry.toolIdOf? "Origin").isSome && (entry.toolIdOf? "Destination").isSome

/-- The edge that a connection makes, in terms of the ids that it names. -/
lemma Edge.ofEntry?_eq (entry : Element) : Edge.ofEntry? entry =
    (entry.toolIdOf? "Origin").bind fun origin =>
      (entry.toolIdOf? "Destination").map fun dest =>
        { origin
          dest
          originAnchor := entry.attrAt ["Origin"] "Connection"
          destAnchor := entry.attrAt ["Destination"] "Connection" } := by
  rw [Edge.ofEntry?, Element.toolIdOf?, Element.toolIdOf?, Element.attrAt_singleton,
    Element.attrAt_singleton]
  cases entry.child "Origin" with
  | none => rfl
  | some o =>
    cases entry.child "Destination" with
    | none => simp
    | some d =>
      simp only [Option.bind_eq_bind, Option.bind_some, Element.toolId?]
      cases nonempty (o.attr "ToolID") with
      | none => rfl
      | some origin =>
        cases nonempty (d.attr "ToolID") with
        | none => rfl
        | some dest => rfl

/-- A connection makes an edge just when it names both ends. -/
lemma Edge.ofEntry?_cases (entry : Element) :
    (entry.hasEnds = true ∧ ∃ e, Edge.ofEntry? entry = some e ∧ Edge.Joins entry e) ∨
      (entry.hasEnds = false ∧ Edge.ofEntry? entry = none) := by
  rw [Edge.ofEntry?_eq, Element.hasEnds]
  cases ho : entry.toolIdOf? "Origin" with
  | none => exact .inr ⟨rfl, rfl⟩
  | some origin =>
    cases hd : entry.toolIdOf? "Destination" with
    | none => exact .inr ⟨rfl, rfl⟩
    | some dest => exact .inl ⟨rfl, _, rfl, ho, hd, rfl, rfl⟩

namespace Workflow

/-- The edges are those of the connections with both ends, in their order. -/
lemma declaredEdges_joins (document : Element) :
    List.Forall₂ Edge.Joins
      ((document.childrenAt ["Connections"] "Connection").filter Element.hasEnds)
      (declaredEdges document) := by
  rw [declaredEdges]
  induction document.childrenAt ["Connections"] "Connection" with
  | nil => exact .nil
  | cons entry entries ih =>
    rcases Edge.ofEntry?_cases entry with ⟨ends, e, made, joins⟩ | ⟨ends, made⟩
    · rw [List.filter_cons_of_pos ends, List.filterMap_cons_some made]
      exact .cons joins ih
    · rw [List.filter_cons_of_neg (by simp [ends]), List.filterMap_cons_none made]
      exact ih

/-- The stand-ins are for the ends of edges that no node has, each where it is first mentioned. -/
lemma standIns_eq (declared : List Node) (edges : List Edge) :
    standIns declared edges =
      ((edges.flatMap fun e => [e.origin, e.dest]).filter
        (· ∉ declared.map Node.id)).eraseDups.map Node.standIn := by
  have keys : (distinctBy id (declared.map Node.id) (edges.flatMap fun e => [e.origin, e.dest])).map id =
      _ := keys_distinctBy _ _
  rw [List.map_id, List.map_id] at keys
  rw [standIns, keys]

/-- The workflow of a document has a node for the first entry with each id that the walk comes to, in
the order of the walk, an edge for each connection that names both ends, in their order, and behind the
nodes stand-ins for the ends of edges without an entry, in the order of their first mention. No id is
empty or stands twice, and both ends of every edge have a node. -/
theorem ofDocument_spec (document : Element) (root : document.name = "AlteryxDocument") :
    ∃ entries declared standIns edges,
      ofDocument document = .ok { nodes := declared ++ standIns, edges } ∧
      Walk (document.childrenAt ["Nodes"] "Node") entries ∧
      declared.map Node.id = (entries.filterMap Element.toolId?).eraseDups ∧
      (∀ n ∈ declared, n.source = entries.find? (fun e => e.toolId? = some n.id) ∧
        n.placeholder = false) ∧
      List.Forall₂ Edge.Joins
        ((document.childrenAt ["Connections"] "Connection").filter Element.hasEnds) edges ∧
      standIns = ((edges.flatMap fun e => [e.origin, e.dest]).filter
        (· ∉ declared.map Node.id)).eraseDups.map Node.standIn ∧
      Closed { nodes := declared ++ standIns, edges } := by
  obtain ⟨entries, walk, built⟩ := ofDocument_eq root
  exact ⟨entries, declaredNodes entries, _, declaredEdges document, built, walk,
    declaredNodes_ids entries, fun n => declaredNodes_source, declaredEdges_joins document,
    standIns_eq _ _, ofDocument_closed built⟩

/-- A container without an id that holds `a` and `b`, then `a` once more, holding `c`; and connections
from `x` to `a`, from `b` to nowhere, from `y` to `x`, and from `a` to `y`. -/
def crated : Element where
  name := "AlteryxDocument"
  children := [
    { name := "Nodes"
      children := [
        { name := "Node"
          children := [{ name := "ChildNodes", children := [node "a", node "b"] }] },
        { node "a" with children := [{ name := "ChildNodes", children := [node "c"] }] }] },
    { name := "Connections"
      children := [connection "x" "a", connection "b" "", connection "y" "x", connection "a" "y"] }]
where
  node (id : String) : Element := { name := "Node", attributes := [("ToolID", id)] }
  connection (origin dest : String) : Element :=
    { name := "Connection"
      children := [
        { name := "Origin", attributes := [("ToolID", origin)] },
        { name := "Destination", attributes := [("ToolID", dest)] }] }

/-- What a container without an id holds counts, and so does what a repeated entry holds. -/
theorem ofDocument_spec_crated :
    ∃ w, ofDocument crated = .ok w ∧ w.ids = ["a", "b", "c", "x", "y"] ∧
      w.edges.map (fun e => (e.origin, e.dest)) = [("x", "a"), ("y", "x"), ("a", "y")] ∧
      w.Closed := by
  have parts : ∀ w, ofDocument crated = .ok w → w.ids = ["a", "b", "c", "x", "y"] ∧
      w.edges.map (fun e => (e.origin, e.dest)) = [("x", "a"), ("y", "x"), ("a", "y")] := by
    rintro w ⟨⟩
    decide +kernel
  obtain ⟨_, _, _, _, built, -, -, -, -, -, closed⟩ := ofDocument_spec crated rfl
  exact ⟨_, built, (parts _ built).1, (parts _ built).2, closed⟩

end Workflow

end Flowscript
