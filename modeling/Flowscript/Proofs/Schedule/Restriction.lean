import Flowscript.Proofs.Schedule.Order
import Mathlib.Data.Set.Basic

/-!
# Schedules of parts

A set of ids that holds the origin of every edge into it can be scheduled by itself. What happens in a
run outside of the set does not matter there: an id outside makes no id of the set ready. A run of the
part (`Workflow.Part`) therefore goes through the same steps as the run of the whole, less the visits
outside of the set (`Traversal.Within`), and its order is the order of the whole without the ids outside
(`Schedule.order_part`, `Schedule.order_restrict`).
-/

namespace Flowscript

/-- Leaving out repetitions and leaving out entries can be done in either order. -/
lemma dedup_filter {α : Type} [DecidableEq α] (p : α → Bool) (l : List α) :
    l.dedup.filter p = (l.filter p).dedup := by
  induction l with
  | nil => rfl
  | cons a l ih =>
    by_cases hp : p a = true
    · rw [List.filter_cons_of_pos hp]
      by_cases ha : a ∈ l
      · rw [List.dedup_cons_of_mem ha, List.dedup_cons_of_mem (List.mem_filter.2 ⟨ha, hp⟩), ih]
      · rw [List.dedup_cons_of_notMem ha, List.filter_cons_of_pos hp,
          List.dedup_cons_of_notMem (fun h => ha (List.mem_filter.1 h).1), ih]
    · rw [List.filter_cons_of_neg hp]
      by_cases ha : a ∈ l
      · rw [List.dedup_cons_of_mem ha, ih]
      · rw [List.dedup_cons_of_notMem ha, List.filter_cons_of_neg hp, ih]

namespace Workflow

/-- The nodes with ids in the set, and the edges that lead into it. -/
def restrict (w : Workflow) (S : Set String) [DecidablePred (· ∈ S)] : Workflow where
  nodes := w.nodes.filter (·.id ∈ S)
  edges := w.edges.filter (·.dest ∈ S)

/-- For a schedule, `w'` is the part of `w` in the set: it declares the ids of the set that `w` declares,
in their order, with the same edges into them; and these come from the set. -/
structure Part (S : Set String) [DecidablePred (· ∈ S)] (w w' : Workflow) : Prop where
  declared : (Plan.ofWorkflow w').declared = (Plan.ofWorkflow w).declared.filter (· ∈ S)
  edges : w'.edges.filter (·.dest ∈ w'.ids) = w.edges.filter (·.dest ∈ w'.ids)
  closed : ∀ e ∈ w.edges, e.dest ∈ S → e.origin ∈ S

/-- The successors in a list are the ends of the edges into it. -/
lemma filter_successors (w : Workflow) (a : String) (ids : List String) :
    (w.successors a).filter (· ∈ ids) =
      ((w.edges.filter (·.dest ∈ ids)).filter (·.origin = a)).map Edge.dest := by
  rw [successors, List.filter_map, List.filter_filter, List.filter_filter]
  congr 2
  funext e
  exact Bool.and_comm _ _

namespace Part

variable {S : Set String} [DecidablePred (· ∈ S)] {w w' : Workflow} {done : List String}
  {a b : String} {e : Edge}

/-- A part has the nodes of the workflow that are in the set. -/
lemma mem_ids (part : Part S w w') : a ∈ w'.ids ↔ a ∈ w.ids ∧ a ∈ S := by
  rw [← Plan.mem_declared, part.declared, List.mem_filter, Plan.mem_declared, decide_eq_true_eq]

/-- A part has all the edges of the workflow into its nodes. -/
lemma mem_edges (part : Part S w w') (hd : e.dest ∈ w'.ids) : e ∈ w'.edges ↔ e ∈ w.edges := by
  have mem : ∀ u : Workflow, e ∈ u.edges ↔ e ∈ u.edges.filter (·.dest ∈ w'.ids) := by
    intro u
    rw [List.mem_filter, decide_eq_true_eq, and_iff_left hd]
  rw [mem w', mem w, part.edges]

/-- In the part, those ids get ready that get ready in the whole, whatever is done outside. -/
lemma ready_iff (part : Part S w w') (done : List String) :
    w'.Ready (done.filter (· ∈ S)) a ↔ w.Ready done a ∧ a ∈ S := by
  constructor
  · rintro ⟨hid, origins⟩
    obtain ⟨hid', hS⟩ := part.mem_ids.1 hid
    refine ⟨⟨hid', ?_⟩, hS⟩
    rintro e he rfl
    exact (List.mem_filter.1 (origins e ((part.mem_edges hid).2 he) rfl)).1
  · rintro ⟨⟨hid', origins⟩, hS⟩
    have hid := part.mem_ids.2 ⟨hid', hS⟩
    refine ⟨hid, ?_⟩
    rintro e he rfl
    have he' := (part.mem_edges hid).1 he
    exact List.mem_filter.2 ⟨origins e he' rfl, decide_eq_true (part.closed e he' hS)⟩

/-- A visit in the set makes the same ids of the set ready, in the same order. -/
lemma released_eq (part : Part S w w') (done : List String) (a : String) :
    (w'.successors a).dedup.filter (w'.Ready (done.filter (· ∈ S))) =
      ((w.successors a).dedup.filter (w.Ready done)).filter (· ∈ S) := by
  have declared : ∀ l : List String, l.filter (w'.Ready (done.filter (· ∈ S))) =
      (l.filter (· ∈ w'.ids)).filter (w'.Ready (done.filter (· ∈ S))) := by
    intro l
    rw [List.filter_filter]
    apply List.filter_congr
    intro b _
    rw [Bool.eq_iff_iff, Bool.and_eq_true, decide_eq_true_eq, decide_eq_true_eq]
    exact ⟨fun rdy => ⟨rdy, rdy.1⟩, And.left⟩
  calc (w'.successors a).dedup.filter (w'.Ready (done.filter (· ∈ S)))
      = ((w'.successors a).filter (· ∈ w'.ids)).dedup.filter (w'.Ready (done.filter (· ∈ S))) := by
        rw [declared, dedup_filter]
    _ = ((w.successors a).filter (· ∈ w'.ids)).dedup.filter (w'.Ready (done.filter (· ∈ S))) := by
        rw [filter_successors, filter_successors, part.edges]
    _ = (w.successors a).dedup.filter (w'.Ready (done.filter (· ∈ S))) := by
        rw [← dedup_filter, ← declared]
    _ = ((w.successors a).dedup.filter (w.Ready done)).filter (· ∈ S) := by
        rw [List.filter_filter]
        apply List.filter_congr
        intro b _
        rw [Bool.eq_iff_iff, Bool.and_eq_true, decide_eq_true_eq, decide_eq_true_eq,
          decide_eq_true_eq, part.ready_iff, and_comm]

/-- A visit outside of the set makes no id of the set ready. -/
lemma released_eq_nil (part : Part S w w') (ha : a ∉ S) :
    ((w.successors a).dedup.filter (w.Ready done)).filter (· ∈ S) = [] := by
  rw [List.filter_eq_nil_iff]
  intro b hb hS
  obtain ⟨e, he, rfl, rfl⟩ := mem_successors.1 (List.mem_dedup.1 (List.mem_filter.1 hb).1)
  exact ha (part.closed e he (of_decide_eq_true hS))

/-- The part starts with the ids of the set that the whole starts with. -/
lemma frontier_eq (part : Part S w w') :
    (Plan.ofWorkflow w').frontier = (Plan.ofWorkflow w).frontier.filter (· ∈ S) := by
  rw [Plan.frontier_eq, Plan.frontier_eq, part.declared, List.filter_filter, List.filter_filter]
  apply List.filter_congr
  intro a _
  have ready : w'.Ready [] a ↔ w.Ready [] a ∧ a ∈ S := part.ready_iff []
  rw [Bool.eq_iff_iff, Bool.and_eq_true, Bool.and_eq_true, decide_eq_true_eq, decide_eq_true_eq,
    decide_eq_true_eq, ready]
  exact ⟨fun h => ⟨h.2, h.1.1⟩, fun h => ⟨⟨h.2, h.1⟩, h.1⟩⟩

/-- A set that edges lead into only from within is scheduled like a workflow of its own. -/
lemma restrict (closed : ∀ e ∈ w.edges, e.dest ∈ S → e.origin ∈ S) : Part S w (w.restrict S) where
  declared := by
    have ids : (w.restrict S).ids = w.ids.filter (· ∈ S) := by
      rw [ids, ids, List.filter_map]
      rfl
    rw [Plan.declared_ofWorkflow, Plan.declared_ofWorkflow, ids]
    exact distinctBy_filter (· ∈ S) [] w.ids
  edges := by
    have inside : ∀ {a}, a ∈ (w.restrict S).ids → a ∈ S := by
      intro a ha
      obtain ⟨n, hn, rfl⟩ := List.mem_map.1 ha
      exact of_decide_eq_true (List.mem_filter.1 hn).2
    rw [Workflow.restrict, List.filter_filter]
    apply List.filter_congr
    intro e _
    rw [Bool.and_eq_left_iff_imp, decide_eq_true_eq, decide_eq_true_eq]
    exact inside
  closed := closed

end Part

end Workflow

namespace Traversal

/-- The state `t'` is what `t` is within the set. -/
structure Within (S : Set String) [DecidablePred (· ∈ S)] (t t' : Traversal) : Prop where
  order : t'.order = t.order.filter (· ∈ S)
  queue : t'.queue = t.queue.filter (· ∈ S)

namespace Within

variable {S : Set String} [DecidablePred (· ∈ S)] {w w' : Workflow} {t t' : Traversal} {id : String}
  {rest : List String}

/-- A check changes nothing that the two runs share, whatever it finds. -/
lemma note (wth : Within S t t') (exhausted exhausted' : Bool) :
    Within S (t.note exhausted) (t'.note exhausted') :=
  ⟨wth.order, wth.queue⟩

/-- If the next node is in the set, it is the next node of the part too. -/
lemma queue_cons (wth : Within S t t') (hq : t.queue = id :: rest) (hid : id ∈ S) :
    t'.queue = id :: rest.filter (· ∈ S) := by
  rw [wth.queue, hq, List.filter_cons, if_pos (decide_eq_true hid)]

/-- If a node in the set is visited, both orders grow by it. -/
lemma order_concat (wth : Within S t t') (hid : id ∈ S) :
    t'.order ++ [id] = (t.order ++ [id]).filter (· ∈ S) := by
  rw [wth.order, List.filter_append, List.filter_cons, if_pos (decide_eq_true hid), List.filter_nil]

/-- A visit in the set is a visit in the part. -/
lemma visit (wth : Within S t t') (part : Workflow.Part S w w') (snd : Sound w t) (snd' : Sound w' t')
    (hq : t.queue = id :: rest) (hid : id ∈ S) :
    Within S (t.visit (.ofWorkflow w) id rest)
      (t'.visit (.ofWorkflow w') id (rest.filter (· ∈ S))) where
  order := by
    rw [order_visit, order_visit, wth.order_concat hid]
  queue := by
    rw [snd.queue_visit hq, snd'.queue_visit (wth.queue_cons hq hid), List.filter_append,
      wth.order_concat hid, part.released_eq]

/-- A visit outside of the set is nothing to the part. -/
lemma visit_outside (wth : Within S t t') (part : Workflow.Part S w w') (snd : Sound w t)
    (hq : t.queue = id :: rest) (hid : id ∉ S) :
    Within S (t.visit (.ofWorkflow w) id rest) t' where
  order := by
    rw [order_visit, wth.order, List.filter_append, List.filter_cons, if_neg (by simpa using hid),
      List.filter_nil, List.append_nil]
  queue := by
    rw [snd.queue_visit hq, List.filter_append, part.released_eq_nil hid, List.append_nil, wth.queue, hq,
      List.filter_cons, if_neg (by simpa using hid)]

end Within

/-- What a run without limits reaches in the whole, a run of the part reaches within the set. -/
lemma Reached.within {S : Set String} [DecidablePred (· ∈ S)] {w w' : Workflow} {t : Traversal}
    (rch : Reached w .unlimited t) (part : Workflow.Part S w w') :
    ∃ t', Reached w' .unlimited t' ∧ Within S t t' := by
  induction rch with
  | start => exact ⟨_, .start, rfl, part.frontier_eq⟩
  | @visit t id rest rch hq _ ih =>
    obtain ⟨t', rch', wth⟩ := ih
    by_cases hid : id ∈ S
    · exact ⟨_, .visit rch' (wth.queue_cons hq hid) rfl,
        (wth.note false false).visit part (rch.sound.note false) (rch'.sound.note false) hq hid⟩
    · exact ⟨t', rch', Within.visit_outside ⟨wth.order, wth.queue⟩ part (rch.sound.note false) hq hid⟩

end Traversal

namespace Schedule

variable {S : Set String} [DecidablePred (· ∈ S)] {w w' : Workflow} {b b' : Budget}

/-- The part is visited in the order in which the whole visits it. -/
lemma order_part (part : Workflow.Part S w w') :
    (topological w').order = (topological w).order.filter (· ∈ S) := by
  obtain ⟨t, hlt, e⟩ := exists_halted w .unlimited
  cases hlt with
  | stopped _ _ stop => cases stop
  | drained rch hq =>
    obtain ⟨t', rch', wth⟩ := rch.within part
    have hq' : t'.queue = [] := by rw [wth.queue, hq, List.filter_nil]
    rw [topological, topological, e, ofWorkflow_eq rch' hq']
    exact wth.order

/-- The part leaves out what the whole leaves out of it. -/
lemma unprocessed_part (part : Workflow.Part S w w')
    (order : (ofWorkflow w' b').order = (ofWorkflow w b).order.filter (· ∈ S)) :
    (ofWorkflow w' b').unprocessed = (ofWorkflow w b).unprocessed.filter (· ∈ S) := by
  rw [unprocessed_eq, unprocessed_eq, order, part.declared, List.filter_filter, List.filter_filter]
  apply List.filter_congr
  intro a _
  rw [Bool.eq_iff_iff, Bool.and_eq_true, Bool.and_eq_true]
  simp only [decide_eq_true_eq, List.mem_filter]
  tauto

/-- A set of ids that holds the origins of all edges into it is scheduled by itself as it is in the
whole: the order and the ids left over are those of the whole, without what is outside of the set. So
whatever is added to a workflow, if no edge leads from there to what was there, the ids that were there
keep their order. -/
theorem order_restrict (w : Workflow) (S : Set String) [DecidablePred (· ∈ S)]
    (closed : ∀ e ∈ w.edges, e.dest ∈ S → e.origin ∈ S) (b b' : Budget)
    (full : (ofWorkflow w b).timedOut = false)
    (full' : (ofWorkflow (w.restrict S) b').timedOut = false) :
    (ofWorkflow (w.restrict S) b').order = (ofWorkflow w b).order.filter (· ∈ S) ∧
    (ofWorkflow (w.restrict S) b').unprocessed = (ofWorkflow w b).unprocessed.filter (· ∈ S) ∧
    ∀ (grown : Workflow) (new : Set String) [DecidablePred (· ∈ new)], grown.restrict newᶜ = w →
      (∀ e ∈ grown.edges, e.origin ∈ new → e.dest ∈ new) →
      (topological w).order.Sublist (topological grown).order := by
  have never : ∀ u : Workflow, (ofWorkflow u .unlimited).timedOut = false :=
    fun _ => timedOut_eq_false fun _ _ => rfl
  have part := Workflow.Part.restrict closed
  have order : (ofWorkflow (w.restrict S) b').order = (ofWorkflow w b).order.filter (· ∈ S) := by
    rw [order_eq full' (never _), order_eq full (never _)]
    exact order_part part
  refine ⟨order, unprocessed_part part order, ?_⟩
  rintro grown new _ rfl back
  have apart : ∀ e ∈ grown.edges, e.dest ∈ newᶜ → e.origin ∈ newᶜ :=
    fun e he hd ho => hd (back e he ho)
  rw [order_part (Workflow.Part.restrict apart)]
  exact List.filter_sublist

/-- Two strands that meet, and two loops. -/
def braided : Workflow where
  nodes := ["z", "a", "l", "x", "c", "b", "m", "y"].map fun id => { id, plugin := Node.unknownPlugin }
  edges := [{ origin := "a", dest := "b" }, { origin := "x", dest := "z" },
    { origin := "m", dest := "m" }, { origin := "b", dest := "y" }, { origin := "b", dest := "c" },
    { origin := "l", dest := "l" }, { origin := "x", dest := "y" }]

/-- One strand by itself, with one of the loops: the other strand stands between its ids in the whole. -/
theorem order_restrict_braided :
    (topological braided).order = ["a", "x", "b", "z", "y", "c"] ∧
    (topological braided).unprocessed = ["l", "m"] ∧
    (topological (braided.restrict {id | id ∈ ["a", "b", "c", "l"]})).order = ["a", "b", "c"] ∧
    (topological (braided.restrict {id | id ∈ ["a", "b", "c", "l"]})).unprocessed = ["l"] := by
  have order : (topological braided).order = ["a", "x", "b", "z", "y", "c"] := by decide +kernel
  have left : (topological braided).unprocessed = ["l", "m"] := by decide +kernel
  obtain ⟨order', left', -⟩ := order_restrict braided {id | id ∈ ["a", "b", "c", "l"]} (by decide)
    .unlimited .unlimited (timedOut_eq_false fun _ _ => rfl) (timedOut_eq_false fun _ _ => rfl)
  refine ⟨order, left, order'.trans ?_, left'.trans ?_⟩
  · rw [show (ofWorkflow braided .unlimited).order = _ from order]
    decide
  · rw [show (ofWorkflow braided .unlimited).unprocessed = _ from left]
    decide

end Schedule

end Flowscript
