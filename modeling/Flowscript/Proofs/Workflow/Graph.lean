import Flowscript.Proofs.Element
import Flowscript.Workflow.Graph

/-!
# The text of a graph

The JSON text of a graph determines the graph (`Graph.text_inj`), and with it all that the graph takes
from a workflow: ids, labels, the elements that nodes were read from, and the ends of edges
(`Graph.text_lossless`). The element of a node is written as a text inside the text; `Json.pretty_inj`
reads both layers back.
-/

namespace Flowscript

namespace GraphNode

/-- The texts of a node can be written, whether it has a source or not. -/
lemma toJson_proper (n : GraphNode) : n.toJson.Proper := by
  cases h : n.raw with
  | none => simp [toJson, h]
  | some r => simp [toJson, h]

/-- Nodes with the same JSON are the same. -/
lemma toJson_inj {n n' : GraphNode} (h : n.toJson = n'.toJson) : n = n' := by
  obtain ⟨id, label, raw⟩ := n
  obtain ⟨id', label', raw'⟩ := n'
  cases raw with
  | none =>
    cases raw' with
    | none =>
      cases h
      rfl
    | some r' => cases h
  | some r =>
    cases raw' with
    | none => cases h
    | some r' =>
      cases h
      rfl

/-- A node of a graph determines the element that the node was read from. -/
lemma source_eq {n n' : Node} (h : ofNode n = ofNode n') : n.source = n'.source := by
  refine Option.map_injective ?_ (congrArg GraphNode.raw h)
  intro e e' same
  exact Element.toJson_inj (Json.pretty_inj e.toJson_proper e'.toJson_proper same)

end GraphNode

namespace GraphLink

/-- The texts of a link can be written. -/
lemma toJson_proper (l : GraphLink) : l.toJson.Proper := by
  simp [toJson]

/-- Links with the same JSON are the same. -/
lemma toJson_inj {l l' : GraphLink} (h : l.toJson = l'.toJson) : l = l' := by
  obtain ⟨source, target⟩ := l
  cases h
  rfl

end GraphLink

namespace Graph

/-- A graph can be written, since its nodes and its links can. -/
lemma toJson_proper (g : Graph) : g.toJson.Proper := by
  simp [toJson, GraphNode.toJson_proper, GraphLink.toJson_proper]

/-- The text of a graph determines the graph. -/
lemma text_inj {g g' : Graph} (h : g.text = g'.text) : g = g' := by
  have same := Json.pretty_inj g.toJson_proper g'.toJson_proper h
  simp only [toJson, Json.obj.injEq, List.cons.injEq, Prod.mk.injEq, Json.arr.injEq, true_and,
    and_true] at same
  obtain ⟨nodes, links⟩ := g
  obtain ⟨nodes', links'⟩ := g'
  obtain rfl := (List.map_inj_right fun _ _ => GraphNode.toJson_inj).1 same.1
  obtain rfl := (List.map_inj_right fun _ _ => GraphLink.toJson_inj).1 same.2
  rfl

/-- Workflows whose graphs have the same text have the same ids, the same labels, the same elements
that nodes were read from, and the same ends of edges, all in the same order. -/
theorem text_lossless (w w' : Workflow) (h : (ofWorkflow w).text = (ofWorkflow w').text) :
    w.nodes.map Node.id = w'.nodes.map Node.id ∧
    w.nodes.map Node.label = w'.nodes.map Node.label ∧
    w.nodes.map Node.source = w'.nodes.map Node.source ∧
    w.edges.map (fun e => (e.origin, e.dest)) = w'.edges.map (fun e => (e.origin, e.dest)) := by
  have same := text_inj h
  have nodes : w.nodes.map GraphNode.ofNode = w'.nodes.map GraphNode.ofNode :=
    congrArg Graph.nodes same
  have links : w.edges.map GraphLink.ofEdge = w'.edges.map GraphLink.ofEdge :=
    congrArg Graph.links same
  exact ⟨map_eq_of_map_eq (fun _ _ _ => congrArg GraphNode.id) nodes,
    map_eq_of_map_eq (fun _ _ _ => congrArg GraphNode.label) nodes,
    map_eq_of_map_eq (fun _ _ _ => GraphNode.source_eq) nodes,
    map_eq_of_map_eq (fun _ _ _ same => congrArg (fun l => (l.source, l.target)) same) links⟩

/-- A node that was read from an element with a repeated key, with this text, and an edge into this
anchor. -/
def sourced (text anchor : Option String) : Workflow where
  nodes := [
    { id := "a"
      plugin := Node.unknownPlugin
      source := some { name := "Node", attributes := [("k", "1"), ("k", "2")], text } }]
  edges := [{ origin := "a", dest := "b", destAnchor := anchor }]

/-- The text does not show the anchor, but it shows an empty text where none would be. -/
theorem text_lossless_sourced :
    (ofWorkflow (sourced (some "") none)).text = (ofWorkflow (sourced (some "") (some "Left"))).text ∧
    (sourced (some "") none).nodes.map Node.source =
      (sourced (some "") (some "Left")).nodes.map Node.source ∧
    (ofWorkflow (sourced none none)).text ≠ (ofWorkflow (sourced (some "") none)).text := by
  have same : ofWorkflow (sourced (some "") none) = ofWorkflow (sourced (some "") (some "Left")) :=
    rfl
  have text := congrArg Graph.text same
  obtain ⟨-, -, source, -⟩ := text_lossless _ _ text
  refine ⟨text, source, fun eq => ?_⟩
  obtain ⟨-, -, source, -⟩ := text_lossless _ _ eq
  exact absurd source (by decide)

end Graph

end Flowscript
