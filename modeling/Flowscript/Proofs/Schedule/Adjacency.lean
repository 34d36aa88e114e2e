import Flowscript.Proofs.Bindings
import Flowscript.Proofs.Schedule.Plan

/-!
# Plans and bindings see the same edges

A plan and the bindings each make a pass over the edges and fill tables of their own: a plan keeps
numbers, and only for declared ids; bindings keep lists, whether the ends are declared or not. Between
the two there is no difference that a run or a node could notice (`Plan.adjacency_agrees`): the ends of
the edges from an id are the same lists, and the number of a declared id is the length of the list that
its inputs are taken from. So what the schedule starts with has no inputs, and a node with a single
input is never among it.
-/

namespace Flowscript

namespace Bindings

variable {w : Workflow} {b : Bindings}

/-- Before anything is done, all edges into an id wait. -/
lemma Indexes.length_incoming (ix : Indexes w b) (a : String) :
    (b.incoming a).length = w.waiting [] a := by
  rw [ix.incoming, List.length_map, Workflow.waiting, List.countP_eq_length_filter]
  simp only [List.not_mem_nil, not_false_eq_true, and_true]

/-- An end stands in the list of an id once for each edge between the two. -/
lemma Indexes.count_outgoing (ix : Indexes w b) (a c : String) :
    (b.outgoing a).count c = w.edges.countP fun e => e.origin = a ∧ e.dest = c := by
  rw [ix.outgoing, List.count_eq_countP, List.countP_map, List.countP_filter]
  apply List.countP_congr
  intro e _
  simp [and_comm]

/-- An origin stands in the list of an id once for each edge between the two. -/
lemma Indexes.count_incoming (ix : Indexes w b) (a c : String) :
    (b.incoming c).count a = w.edges.countP fun e => e.origin = a ∧ e.dest = c := by
  rw [ix.incoming, List.count_eq_countP, List.countP_map, List.countP_filter]
  apply List.countP_congr
  intro e _
  simp

end Bindings

namespace Plan

variable {w : Workflow} {b : Bindings} {a : String}

/-- The ends of the edges from an id are the same in both. -/
lemma successorsOf_eq_outgoing (ix : b.Indexes w) (a : String) :
    (ofWorkflow w).successorsOf a = b.outgoing a := by
  rw [successorsOf_ofWorkflow, ix.outgoing, Workflow.successors]

/-- The number of a declared id is the number of its inputs. -/
lemma lookup_degrees_eq_length (ix : b.Indexes w) (a : String) :
    (ofWorkflow w).degrees.lookup a = if a ∈ w.ids then some (b.incoming a).length else none := by
  rw [lookup_degrees, ix.length_incoming]

/-- A plan starts with the declared ids that have no inputs. -/
lemma frontier_eq_filter (ix : b.Indexes w) :
    (ofWorkflow w).frontier = w.ids.eraseDups.filter (b.incoming · = []) := by
  rw [frontier_eq, ← declared_eq_eraseDups]
  apply List.filter_congr
  intro a ha
  rw [decide_eq_decide, Workflow.ready_iff, and_iff_right (mem_declared.1 ha),
    ← ix.length_incoming, List.length_eq_zero_iff]

/-- A node with a single edge into it is not among the ids that a plan starts with, whether its input
is bound or not. -/
lemma not_mem_frontier (ix : b.Indexes w) (single : b.singleInput a ≠ .ok none) :
    a ∉ (ofWorkflow w).frontier := by
  rw [frontier_eq_filter ix, List.mem_filter, decide_eq_true_eq]
  rintro ⟨-, none⟩
  apply single
  rw [Bindings.singleInput_eq_none, none]
  decide

/-- Whatever has been bound so far, the plan of a workflow and its bindings agree about the edges. For
every id, both have the same list of ends. The number of a declared id is the length of its list of
origins, which are those of the edges into it; an id that nobody declares has no number. Of two ids, the
second is an end of the first as often as the first is an origin of the second. The plan starts with the
declared ids without origins, in the order in which they are first declared, and with no id that is
resolved to a single input, be it bound or missing. -/
theorem adjacency_agrees (w : Workflow) (stem : String) (calls : List (String × String))
    {b : Bindings} (made : (Bindings.ofWorkflow w stem).after calls = b) :
    (∀ a, (ofWorkflow w).successorsOf a = b.outgoing a) ∧
    (∀ a ∈ w.ids, (ofWorkflow w).degrees.lookup a = some (b.incoming a).length) ∧
    (∀ a ∉ w.ids, (ofWorkflow w).degrees.lookup a = none) ∧
    (∀ a, b.incoming a = (b.incomingEdges a).map Edge.origin) ∧
    (∀ a c, (b.outgoing a).count c = (b.incoming c).count a) ∧
    (ofWorkflow w).frontier = w.ids.eraseDups.filter (b.incoming · = []) ∧
    ∀ a, b.singleInput a ≠ .ok none → a ∉ (ofWorkflow w).frontier := by
  have ix : b.Indexes w := made ▸ (Bindings.Sound.after w stem calls).toIndexes
  refine ⟨successorsOf_eq_outgoing ix, ?_, ?_, ix.incoming_eq, ?_, frontier_eq_filter ix,
    fun a => not_mem_frontier ix⟩
  · intro a declared
    rw [lookup_degrees_eq_length ix, if_pos declared]
  · intro a unknown
    rw [lookup_degrees_eq_length ix, if_neg unknown]
  · intro a c
    rw [ix.count_outgoing, ix.count_incoming]

/-- A repeated id, two edges from `a` to `b` with others between them, a loop, and ends that nobody
declares: `d` reads from `b` alone, and `e` from an id without a node. -/
def snarled : Workflow where
  nodes := ["a", "b", "a", "c", "f", "d", "e", "f"].map fun id => { id, plugin := Node.unknownPlugin }
  edges := [{ origin := "a", dest := "b" }, { origin := "z", dest := "c" }, { origin := "b", dest := "y" },
    { origin := "a", dest := "b", destAnchor := some "Left" }, { origin := "c", dest := "c" },
    { origin := "b", dest := "d" }, { origin := "z", dest := "e" }]

/-- Both edges from `a` to `b` count, `y` has an origin and no number, and of the two nodes with a
single input, neither the one that is bound nor the one that is missing stands at the start. -/
theorem adjacency_agrees_snarled :
    ∃ b, (Bindings.ofWorkflow snarled "df_").after [("b", "df_b"), ("b", "other")] = b ∧
      (ofWorkflow snarled).successorsOf "b" = ["y", "d"] ∧
      (ofWorkflow snarled).degrees.lookup "b" = some 2 ∧ b.incoming "b" = ["a", "a"] ∧
      (ofWorkflow snarled).degrees.lookup "y" = none ∧ b.incoming "y" = ["b"] ∧
      (b.outgoing "a").count "b" = 2 ∧
      (ofWorkflow snarled).frontier = ["a", "f"] ∧
      b.singleInput "d" = .ok (some "df_b") ∧ "d" ∉ (ofWorkflow snarled).frontier ∧
      b.singleInput "e" = .error (.unbound "e" "z") ∧ "e" ∉ (ofWorkflow snarled).frontier := by
  obtain ⟨ends, number, unknown, -, twice, start, single⟩ :=
    adjacency_agrees snarled "df_" [("b", "df_b"), ("b", "other")] rfl
  exact ⟨_, rfl, (ends "b").trans (by decide), (number "b" (by decide)).trans (by decide), by decide,
    unknown "y" (by decide), by decide, (twice "a" "b").trans (by decide), start.trans (by decide),
    by decide, single "d" (by decide), by decide, single "e" (by decide)⟩

end Plan

end Flowscript
