import Flowscript.Proofs.Conversion.Account
import Flowscript.Proofs.Schedule.Blocked
import Flowscript.Proofs.Workflow.Document

/-!
# Cycles in documents

The workflow of a document is closed, so a run to the end leaves out a node only because of a cycle
(`Workflow.Closed.mem_unprocessed`). The notice about nodes that were left out is the only one with its
code (`Converter.unprocessedNodes_convert`). Together: a conversion of a document reports the cycles of
its graph, and every node that is not behind one is translated once (`cycles_reported`).
-/

namespace Flowscript

namespace Graph

/-- The ids of the nodes of a drawing. -/
def ids (g : Graph) : List String :=
  g.nodes.map GraphNode.id

/-- Some link leads from `a` to `b`. -/
def Linked (g : Graph) (a b : String) : Prop :=
  ∃ l ∈ g.links, l.source = a ∧ l.target = b

/-- The id lies on a cycle of links, or behind one. -/
def Stuck (g : Graph) (id : String) : Prop :=
  ∃ a, Relation.TransGen g.Linked a a ∧ Relation.ReflTransGen g.Linked a id

/-- The graph of a workflow has its nodes. -/
lemma ids_ofWorkflow (w : Workflow) : (ofWorkflow w).ids = w.ids := by
  rw [ids, ofWorkflow, List.map_map]
  rfl

/-- Nodes are linked in the graph if an edge leads from one to the other. -/
lemma linked_ofWorkflow (w : Workflow) : (ofWorkflow w).Linked = w.Leads := by
  funext a b
  apply propext
  constructor
  · rintro ⟨l, hl, rfl, rfl⟩
    obtain ⟨e, he, rfl⟩ := List.mem_map.1 hl
    exact ⟨e, he, rfl, rfl⟩
  · rintro ⟨e, he, rfl, rfl⟩
    exact ⟨_, List.mem_map_of_mem he, rfl, rfl⟩

end Graph

namespace Workflow.Closed

variable {w : Workflow} {budget : Budget} {a id : String}

/-- All that lies on a cycle has a node. -/
lemma mem_ids_of_cycle (cl : w.Closed) (cyc : Relation.TransGen w.Leads a a) : a ∈ w.ids := by
  obtain ⟨b, ⟨e, he, rfl, _⟩, _⟩ := Relation.TransGen.head'_iff.1 cyc
  exact (cl.ends e he).1

/-- In a closed workflow, a run to the end leaves out what is on a cycle or behind one. -/
lemma mem_unprocessed (cl : w.Closed) (h : (Schedule.ofWorkflow w budget).timedOut = false) :
    id ∈ (Schedule.ofWorkflow w budget).unprocessed ↔
      id ∈ w.ids ∧ (Graph.ofWorkflow w).Stuck id := by
  rw [Schedule.mem_unprocessed, Graph.Stuck, Graph.linked_ofWorkflow]
  refine and_congr_right fun hid => ⟨fun ho => ?_, ?_⟩
  · obtain ⟨a, ⟨⟨e, he, rfl⟩, missing⟩ | cyc, ch⟩ :=
      Schedule.exists_blocks_of_not_mem_order h hid ho
    -- Every origin has a node, so only the cycle is left.
    · exact absurd (cl.ends e he).1 missing
    · exact ⟨a, cyc, ch⟩
  · rintro ⟨a, cyc, ch⟩
    exact Schedule.not_mem_order_of_blocks (.inr cyc) ch

/-- A run that is not stopped reaches all nodes just when there is no cycle. -/
lemma unprocessed_eq_nil_iff (cl : w.Closed)
    (h : (Schedule.ofWorkflow w budget).timedOut = false) :
    (Schedule.ofWorkflow w budget).unprocessed = [] ↔
      ¬ ∃ a, Relation.TransGen (Graph.ofWorkflow w).Linked a a := by
  rw [Graph.linked_ofWorkflow]
  constructor
  · rintro none ⟨a, cyc⟩
    have stuck : (Graph.ofWorkflow w).Stuck a := by
      refine ⟨a, ?_, .refl⟩
      rwa [Graph.linked_ofWorkflow]
    have left := (cl.mem_unprocessed h).2 ⟨cl.mem_ids_of_cycle cyc, stuck⟩
    rw [none] at left
    cases left
  · intro acyclic
    apply List.eq_nil_iff_forall_not_mem.2
    intro id hid
    obtain ⟨_, a, cyc, _⟩ := (cl.mem_unprocessed h).1 hid
    rw [Graph.linked_ofWorkflow] at cyc
    exact acyclic ⟨a, cyc⟩

end Workflow.Closed

namespace Converter

variable {c : Converter} {w : Workflow} {budget : Budget}

/-- With the rules of the catalog, no node has a notice with the code for nodes that were left out. -/
lemma unprocessedNodes_convert (std : c.rules = Rules.standard) (w : Workflow) (budget : Budget) :
    (c.convert w budget).diagnostics.filter (·.code = .unprocessedNodes) =
      if (c.convert w budget).schedule.unprocessed = [] then []
      else [unprocessedNotice (c.convert w budget).schedule.unprocessed] := by
  have own : ((c.translate w budget).2.visits.flatMap (·.fragment.diagnostics)).filter
      (·.code = .unprocessedNodes) = [] := by
    apply List.filter_eq_nil_iff.2
    intro d hd
    obtain ⟨v, hv, hd⟩ := List.mem_flatMap.1 hd
    rw [decide_eq_true_eq]
    intro code
    refine ((visit_answers std hv).about d hd).code ?_
    rw [code]
    exact List.mem_cons_self
  rw [diagnostics_convert, List.filter_append, List.filter_append, own]
  cases (c.convert w budget).schedule.unprocessed with
  | nil =>
    split
    · rfl
    · rfl
  | cons id ids =>
    split
    · rfl
    · rfl

/-- There is a notice about nodes that were not reached if there are such nodes. -/
lemma exists_unprocessedNodes (std : c.rules = Rules.standard) (w : Workflow) (budget : Budget) :
    (∃ d ∈ (c.convert w budget).diagnostics, d.code = .unprocessedNodes) ↔
      (c.convert w budget).schedule.unprocessed ≠ [] := by
  have notices := unprocessedNodes_convert std w budget
  constructor
  · rintro ⟨d, hd, code⟩ none
    have mem : d ∈ (c.convert w budget).diagnostics.filter (·.code = .unprocessedNodes) :=
      List.mem_filter.2 ⟨hd, decide_eq_true code⟩
    rw [notices, if_pos none] at mem
    cases mem
  · intro some
    have mem : unprocessedNotice (c.convert w budget).schedule.unprocessed ∈
        (c.convert w budget).diagnostics.filter (·.code = .unprocessedNodes) := by
      rw [notices, if_neg some]
      exact List.mem_cons_self
    exact ⟨_, (List.mem_filter.1 mem).1, rfl⟩

end Converter

/-- A document with the root of a workflow has a graph with distinct, nonempty ids, and all links are
between them. If the budget does not run out, there is a notice about nodes left out just when there is
a cycle of links. It lists the nodes on cycles and behind them, in the order of the graph; all others
are translated once. -/
theorem cycles_reported (clock : Clock) (options : Options) (source : String) (document : Element)
    (parsed : Markup.parse source = .ok document) (root : document.name = "AlteryxDocument")
    (full : ∀ w, Workflow.ofDocument document = .ok w →
      (Schedule.ofWorkflow w (options.limit.budget clock)).timedOut = false) :
    ∃ w g, Workflow.ofDocument document = .ok w ∧
      convertDocument clock options source =
        { script := (Converter.convert { options } w (options.limit.budget clock)).script
          graph := some g
          diagnostics :=
            (Converter.convert { options } w (options.limit.budget clock)).diagnostics } ∧
      g.ids.Nodup ∧ (∀ id ∈ g.ids, id ≠ "") ∧
      (∀ l ∈ g.links, l.source ∈ g.ids ∧ l.target ∈ g.ids) ∧
      ((∃ d ∈ (convertDocument clock options source).diagnostics, d.code = .unprocessedNodes) ↔
        ∃ a, Relation.TransGen g.Linked a a) ∧
      (∃ ids, ids.Sublist g.ids ∧ (∀ id, id ∈ ids ↔ id ∈ g.ids ∧ g.Stuck id) ∧
        ((convertDocument clock options source).diagnostics.filter
          (·.code = .unprocessedNodes)).map Diagnostic.message =
          if ids = [] then [] else
            ["The following nodes could not be processed (cyclic or missing dependencies): " ++
              String.intercalate ", " ids]) ∧
      ∀ id ∈ g.ids, ¬ g.Stuck id →
        ((Converter.translate { options } w (options.limit.budget clock)).2.visits.map
          Visit.id).count id = 1 := by
  obtain ⟨w, built⟩ : ∃ w, Workflow.ofDocument document = .ok w := ⟨_, if_pos root⟩
  have cl := Workflow.ofDocument_closed built
  have stop := full w built
  have notices := Converter.unprocessedNodes_convert (c := { options }) rfl w
    (options.limit.budget clock)
  rw [Converter.schedule_convert] at notices
  refine ⟨w, Graph.ofWorkflow w, built, convertDocument_eq parsed built, ?_, ?_, ?_, ?_, ?_, ?_⟩
  · rw [Graph.ids_ofWorkflow]
    exact cl.nodup
  · rw [Graph.ids_ofWorkflow]
    exact cl.ne_empty
  · intro l hl
    obtain ⟨e, he, rfl⟩ := List.mem_map.1 hl
    rw [Graph.ids_ofWorkflow]
    exact cl.ends e he
  · rw [convertDocument_eq parsed built, Converter.exists_unprocessedNodes rfl,
      Converter.schedule_convert, ne_eq, cl.unprocessed_eq_nil_iff stop, not_not]
  · refine ⟨(Schedule.ofWorkflow w (options.limit.budget clock)).unprocessed, ?_, ?_, ?_⟩
    · rw [Graph.ids_ofWorkflow]
      exact Schedule.unprocessed_sublist w _
    · rw [Graph.ids_ofWorkflow]
      exact fun id => cl.mem_unprocessed stop
    · rw [convertDocument_eq parsed built, notices]
      split
      · rfl
      · rfl
  · intro id hid free
    rw [Graph.ids_ofWorkflow] at hid
    rw [Converter.visits_translate]
    refine List.count_eq_one_of_mem (Schedule.order_nodup w _) ?_
    by_contra ho
    exact free ((cl.mem_unprocessed stop).1 (Schedule.mem_unprocessed.2 ⟨hid, ho⟩)).2

/-- A node, and a connection from another one to itself. -/
def looped : Element where
  name := "AlteryxDocument"
  children := [
    { name := "Nodes", children := [{ name := "Node", attributes := [("ToolID", "f")] }] },
    { name := "Connections"
      children := [{
        name := "Connection"
        children := [
          { name := "Origin", attributes := [("ToolID", "x")] },
          { name := "Destination", attributes := [("ToolID", "x")] }] }] }]

/-- The text of `looped`. -/
def loopedText : String :=
  "<AlteryxDocument><Nodes><Node ToolID='f'/></Nodes><Connections><Connection>" ++
  "<Origin ToolID='x'/><Destination ToolID='x'/></Connection></Connections></AlteryxDocument>"

/-- The connection of a node that only the connection mentions to itself is reported. -/
theorem cycles_reported_looped :
    Markup.parse loopedText = .ok looped ∧
    ∃ g, (convertDocument .ticking { limit := .unlimited } loopedText).graph = some g ∧
      g.ids = ["f", "x"] ∧ Relation.TransGen g.Linked "x" "x" ∧
      ∃ d ∈ (convertDocument .ticking { limit := .unlimited } loopedText).diagnostics,
        d.code = .unprocessedNodes := by
  have parsed : Markup.parse loopedText = .ok looped := by decide +kernel
  have full : ∀ w, Workflow.ofDocument looped = .ok w →
      (Schedule.ofWorkflow w (Limit.unlimited.budget .ticking)).timedOut = false :=
    fun w _ => Schedule.timedOut_eq_false fun _ _ => rfl
  obtain ⟨w, g, built, result, -, -, -, cycle, -⟩ :=
    cycles_reported .ticking { limit := .unlimited } loopedText looped parsed rfl full
  obtain rfl : g = Graph.ofWorkflow w := by
    rw [convertDocument_eq parsed built] at result
    injection result with _ graph _
    exact (Option.some.inj graph).symm
  have ids : (Graph.ofWorkflow w).ids = ["f", "x"] := by
    cases built
    decide +kernel
  have loop : Relation.TransGen (Graph.ofWorkflow w).Linked "x" "x" := by
    cases built
    exact .single ⟨{ source := "x", target := "x" }, by decide +kernel, rfl, rfl⟩
  exact ⟨parsed, _, by rw [result], ids, loop, cycle.2 ⟨"x", loop⟩⟩

end Flowscript
