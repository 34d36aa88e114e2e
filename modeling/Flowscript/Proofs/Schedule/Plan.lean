import Flowscript.Proofs.Distinct
import Flowscript.Proofs.Index
import Flowscript.Schedule.Plan
import Mathlib.Data.List.Dedup

/-!
# What a plan knows of its workflow

The tables of `Plan.ofWorkflow`, told in terms of nodes and edges: `Plan.mem_declared` and
`Plan.declared_pairwise` for the declared ids, `Plan.lookup_degrees` for the edges into each of them
and `Plan.successorsOf_ofWorkflow` for the edges out of each id. `Plan.frontier_eq` says what a run
starts with.

On the side of the workflow, `Workflow.waiting` counts the edges into an id that come from ids not
yet done, and an id is `Workflow.Ready` when it is declared and no edge into it waits.
-/

namespace Flowscript

namespace Workflow

/-- The ids of the nodes, in the order of their declaration. -/
def ids (w : Workflow) : List String :=
  w.nodes.map Node.id

/-- Some edge leads from `a` to `b`. -/
def Leads (w : Workflow) (a b : String) : Prop :=
  ∃ e ∈ w.edges, e.origin = a ∧ e.dest = b

/-- The ends of the edges from this id, in the order of the edges. -/
def successors (w : Workflow) (id : String) : List String :=
  (w.edges.filter (·.origin = id)).map Edge.dest

/-- The number of edges into this id from ids outside `done`. -/
def waiting (w : Workflow) (done : List String) (id : String) : Nat :=
  w.edges.countP fun e => e.dest = id ∧ e.origin ∉ done

/-- The id is declared, and all edges into it come from `done`. -/
def Ready (w : Workflow) (done : List String) (id : String) : Prop :=
  id ∈ w.ids ∧ ∀ e ∈ w.edges, e.dest = id → e.origin ∈ done

instance (w : Workflow) (done : List String) (id : String) : Decidable (w.Ready done id) :=
  inferInstanceAs (Decidable (_ ∧ _))

variable {w : Workflow} {done : List String} {a b id : String}

/-- The successors of a node are the nodes that edges lead to. -/
lemma mem_successors : b ∈ w.successors a ↔ w.Leads a b := by
  simp only [successors, Leads, List.mem_map, List.mem_filter, decide_eq_true_eq, and_assoc]

/-- No edge waits when all edges come from `done`. -/
lemma waiting_eq_zero :
    w.waiting done id = 0 ↔ ∀ e ∈ w.edges, e.dest = id → e.origin ∈ done := by
  simp only [waiting, List.countP_eq_zero, decide_eq_true_eq, not_and, not_not]

/-- A node is ready if it waits for no edge. -/
lemma ready_iff : w.Ready done id ↔ id ∈ w.ids ∧ w.waiting done id = 0 := by
  rw [Ready, waiting_eq_zero]

/-- What is ready stays ready as more gets done. -/
lemma Ready.mono {done' : List String} (h : w.Ready done id) (sub : done ⊆ done') :
    w.Ready done' id :=
  ⟨h.1, fun e he hd => sub (h.2 e he hd)⟩

/-- What is ready reads only from what is done. -/
lemma Ready.origin_mem (h : w.Ready done b) (hl : w.Leads a b) : a ∈ done := by
  obtain ⟨e, he, rfl, hd⟩ := hl
  exact h.2 e he hd

/-- When one more id gets done, what gets ready is among its successors. -/
lemma ready_concat :
    w.Ready (done ++ [a]) b ↔ w.Ready done b ∨ b ∈ w.successors a ∧ w.Ready (done ++ [a]) b := by
  constructor
  · intro h
    by_cases hl : w.Leads a b
    · exact .inr ⟨mem_successors.2 hl, h⟩
    · refine .inl ⟨h.1, fun e he hd => ?_⟩
      rcases List.mem_append.1 (h.2 e he hd) with hm | hm
      · exact hm
      · exact absurd ⟨e, he, List.mem_singleton.1 hm, hd⟩ hl
  · rintro (h | ⟨_, h⟩)
    · exact h.mono (List.subset_append_left _ _)
    · exact h

/-- When one more id gets done, the edges from it no longer wait. -/
lemma waiting_eq_add_count (ha : a ∉ done) :
    w.waiting done b = w.waiting (done ++ [a]) b + (w.successors a).count b := by
  obtain ⟨nodes, edges⟩ := w
  simp only [waiting, successors]
  induction edges with
  | nil => rfl
  | cons e es ih =>
    simp only [List.countP_cons, List.filter_cons, ih]
    by_cases ho : e.origin = a <;> by_cases hd : e.dest = b
    · have out : e.origin ∉ done := ho ▸ ha
      simp [ho, hd, ha]
      omega
    · simp [ho, hd]
    · by_cases hm : e.origin ∈ done
      · simp [ho, hd, hm]
      · simp [ho, hd, hm]
        omega
    · simp [ho, hd]

end Workflow

/-! ## The tables of a plan -/

namespace Plan

variable {w : Workflow} {a : String}

/-- In one pass over the edges, each table is filled by itself. -/
lemma foldl_addEdge (edges : List Edge) (p : Plan) :
    edges.foldl addEdge p =
      { p with
        degrees := edges.foldl (fun degrees e => adjust (· + 1) e.dest degrees) p.degrees
        successors := edges.foldl (fun index e => record e.origin e.dest index) p.successors } := by
  induction edges generalizing p with
  | nil => rfl
  | cons e es ih => exact ih (p.addEdge e)

/-- Counting the edges one by one, the number at an id grows by the edges into it. -/
lemma lookup_foldl_adjust (edges : List Edge) (degrees : List (String × Nat)) :
    (edges.foldl (fun degrees e => adjust (· + 1) e.dest degrees) degrees).lookup a =
      (degrees.lookup a).map (· + edges.countP (·.dest = a)) := by
  induction edges generalizing degrees with
  | nil => simp
  | cons e es ih =>
    rw [List.foldl_cons, ih, lookup_adjust, List.countP_cons]
    by_cases hd : a = e.dest
    · rw [if_pos hd, Option.map_map]
      congr 1
      funext n
      simp only [Function.comp_apply, hd, decide_true, if_true]
      omega
    · simp [hd, Ne.symm hd]

/-- Edges declare nothing. -/
lemma declared_ofWorkflow (w : Workflow) : (ofWorkflow w).declared = distinctBy id [] w.ids := by
  rw [ofWorkflow, foldl_addEdge]
  rfl

/-- The declared ids are the ids of the nodes, each where it stands first. -/
lemma declared_eq_eraseDups (w : Workflow) : (ofWorkflow w).declared = w.ids.eraseDups := by
  have keys := @keys_distinctBy String id [] w.ids
  rw [declared_ofWorkflow]
  simpa using keys

/-- The declared ids are the ids of the nodes. -/
lemma mem_declared : a ∈ (ofWorkflow w).declared ↔ a ∈ w.ids := by
  rw [declared_ofWorkflow]
  simpa using @mem_keys_distinctBy String id [] a w.ids

/-- The declared ids stand in the order in which the nodes first mention them. -/
lemma declared_pairwise (w : Workflow) :
    (ofWorkflow w).declared.Pairwise fun a b => w.ids.idxOf a < w.ids.idxOf b := by
  rw [declared_ofWorkflow]
  simpa using @keys_distinctBy_pairwise String id [] w.ids

/-- Before any edge, each node has degree zero. -/
lemma lookup_degrees_ofIds (ids : List String) :
    (ofIds ids).degrees.lookup a = if a ∈ ids then some 0 else none := by
  rw [ofIds]
  induction ids with
  | nil => rfl
  | cons i is ih => by_cases e : a = i <;> grind

/-- The number at an id counts the edges into it, none of which has been retired. -/
lemma lookup_degrees (w : Workflow) (a : String) :
    (ofWorkflow w).degrees.lookup a = if a ∈ w.ids then some (w.waiting [] a) else none := by
  have mem : a ∈ distinctBy id [] (w.nodes.map Node.id) ↔ a ∈ w.ids := by
    rw [← mem_declared, declared_ofWorkflow, Workflow.ids]
  rw [ofWorkflow, foldl_addEdge, lookup_foldl_adjust, lookup_degrees_ofIds]
  simp only [mem]
  split <;> simp [Workflow.waiting]

/-- The list at an id holds the ends of the edges from it. -/
lemma successorsOf_ofWorkflow (w : Workflow) (a : String) :
    (ofWorkflow w).successorsOf a = w.successors a := by
  rw [ofWorkflow, foldl_addEdge]
  exact recorded_foldl_record Edge.origin Edge.dest w.edges [] a

/-- No node is declared twice. -/
lemma declared_nodup (w : Workflow) : (ofWorkflow w).declared.Nodup := by
  rw [declared_ofWorkflow]
  simpa using @keys_distinctBy_nodup String id [] w.ids

/-- A plan starts with the declared ids that are ready before anything is done. -/
lemma frontier_eq (w : Workflow) :
    (ofWorkflow w).frontier = (ofWorkflow w).declared.filter (w.Ready []) := by
  rw [frontier]
  apply List.filter_congr
  intro a ha
  have hid := mem_declared.1 ha
  rw [decide_eq_decide, Workflow.ready_iff, lookup_degrees, if_pos hid, Option.some.injEq,
    and_iff_right hid]

end Plan

end Flowscript
