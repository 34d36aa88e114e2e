import Flowscript.Proofs.Schedule.Reached

/-!
# The order of a schedule

Whatever the workflow and the budget, each id of the order was ready when its turn came
(`ready_of_order_eq`), so an edge leads from an earlier id to a later one (`precedes`), and no id
comes twice (`order_nodup`). `walk_eq` says that a visitor sees the ids of the order and nothing
else. `order_safe` puts these together with the ids that were left out. A budget that stops a run cuts
the order short (`order_isPrefix`); runs that are not stopped have the same order (`order_eq`).
-/

namespace Flowscript.Schedule

variable {w : Workflow} {budget : Budget} {a b id : String} {xs ys : List String}

/-- A schedule is read off the end of a run. -/
lemma exists_halted (w : Workflow) (budget : Budget) :
    ∃ t, Traversal.Halted w budget t ∧ ofWorkflow w budget = ofTraversal (.ofWorkflow w) t :=
  ⟨_, Traversal.Reached.start.run (fun _ _ => ()) (), rfl⟩

/-- A schedule is read off any state of the run in which nothing is left in the queue. -/
lemma ofWorkflow_eq {t : Traversal} (rch : Traversal.Reached w budget t) (hq : t.queue = []) :
    ofWorkflow w budget = ofTraversal (.ofWorkflow w) t := by
  have last := rch.run_eq
  rw [Traversal.run_nil hq] at last
  exact congrArg (ofTraversal (.ofWorkflow w)) last

/-- A visitor sees the ids of the order, one after the other, and has no part in the schedule. -/
lemma walk_eq {σ : Type} (w : Workflow) (budget : Budget) (visitor : σ → String → σ) (s : σ) :
    walk w budget visitor s =
      (ofWorkflow w budget, (ofWorkflow w budget).order.foldl visitor s) := by
  have same := Traversal.run_fst (.start (.ofWorkflow w)) (.ofWorkflow w) budget visitor s
  obtain ⟨ids, order, kept⟩ :=
    Traversal.run_snd (.start (.ofWorkflow w)) (.ofWorkflow w) budget visitor s
  have order' : (ofWorkflow w budget).order = ids := by
    rw [same] at order
    exact order
  rw [order', ← kept]
  exact Prod.ext (congrArg (ofTraversal (.ofWorkflow w)) same) rfl

/-- A budget that answers without a look at the world gives the schedule under it. -/
lemma walkM_pure {m : Type → Type} [Monad m] [LawfulMonad m] {σ : Type} (w : Workflow)
    (budget : Budget) (visitor : σ → String → σ) (s : σ) :
    walkM w (fun checks visited => pure (budget checks visited)) visitor s =
      (pure (walk w budget visitor s) : m (Schedule × σ)) := by
  rw [walkM, Traversal.runM_pure, pure_bind]
  rfl

/-- No id is visited twice. -/
lemma order_nodup (w : Workflow) (budget : Budget) : (ofWorkflow w budget).order.Nodup := by
  obtain ⟨t, hlt, e⟩ := exists_halted w budget
  rw [e]
  exact hlt.sound.nodup.of_append_left

/-- When an id is visited, it is ready. -/
lemma ready_of_order_eq (e : (ofWorkflow w budget).order = xs ++ id :: ys) : w.Ready xs id := by
  obtain ⟨t, hlt, e'⟩ := exists_halted w budget
  rw [e'] at e
  exact hlt.sound.before e

/-- Only nodes of the workflow are visited. -/
lemma mem_ids_of_mem_order (h : id ∈ (ofWorkflow w budget).order) : id ∈ w.ids := by
  obtain ⟨xs, ys, e⟩ := List.append_of_mem h
  exact (ready_of_order_eq e).1

/-- What leads to a visited id was visited before it. -/
lemma precedes (hl : w.Leads a b) (hb : b ∈ (ofWorkflow w budget).order) :
    a ∈ (ofWorkflow w budget).order ∧
      (ofWorkflow w budget).order.idxOf a < (ofWorkflow w budget).order.idxOf b := by
  obtain ⟨xs, ys, e⟩ := List.append_of_mem hb
  have ha : a ∈ xs := (ready_of_order_eq e).origin_mem hl
  have nodup := order_nodup w budget
  rw [e] at nodup ⊢
  have hb : b ∉ xs := fun h => List.disjoint_of_nodup_append nodup h List.mem_cons_self
  refine ⟨List.mem_append_left _ ha, ?_⟩
  rw [List.idxOf_append_of_mem ha, List.idxOf_append_of_notMem hb, List.idxOf_cons_self]
  exact List.idxOf_lt_length_of_mem ha

/-- The ids that are left over are those that do not stand in the order: the set of visited ids is in
step with it. -/
lemma unprocessed_eq (w : Workflow) (budget : Budget) :
    (ofWorkflow w budget).unprocessed =
      (Plan.ofWorkflow w).declared.filter (· ∉ (ofWorkflow w budget).order) := by
  obtain ⟨t, hlt, e⟩ := exists_halted w budget
  rw [e]
  apply List.filter_congr
  intro id _
  rw [decide_eq_decide, hlt.sound.visited]
  rfl

/-- The flag of a schedule says whether the budget said stop. -/
lemma timedOut_eq_any (w : Workflow) (budget : Budget) :
    (ofWorkflow w budget).timedOut = (ofWorkflow w budget).checks.any Check.exhausted := by
  obtain ⟨t, hlt, e⟩ := exists_halted w budget
  rw [e]
  exact hlt.timedOut_eq

/-- The declared ids that were not visited are left over. -/
lemma mem_unprocessed :
    id ∈ (ofWorkflow w budget).unprocessed ↔ id ∈ w.ids ∧ id ∉ (ofWorkflow w budget).order := by
  rw [unprocessed_eq, List.mem_filter, Plan.mem_declared, decide_eq_true_eq]

/-- The ids that are left over stand in the order of their declaration. -/
lemma unprocessed_pairwise (w : Workflow) (budget : Budget) :
    (ofWorkflow w budget).unprocessed.Pairwise fun a b => w.ids.idxOf a < w.ids.idxOf b := by
  obtain ⟨t, -, e⟩ := exists_halted w budget
  rw [e]
  exact (Plan.declared_pairwise w).filter _

/-- The nodes that were not visited keep their order. -/
lemma unprocessed_sublist (w : Workflow) (budget : Budget) :
    (ofWorkflow w budget).unprocessed.Sublist w.ids := by
  obtain ⟨t, -, e⟩ := exists_halted w budget
  have declared : (Plan.ofWorkflow w).declared.Sublist w.ids := by
    rw [Plan.declared_ofWorkflow]
    exact distinctBy_sublist [] w.ids
  rw [e]
  exact List.filter_sublist.trans declared

/-- Unless the budget stops it, a run visits all that gets ready. -/
lemma mem_order_of_ready (h : (ofWorkflow w budget).timedOut = false)
    (rdy : w.Ready (ofWorkflow w budget).order id) : id ∈ (ofWorkflow w budget).order := by
  obtain ⟨t, hlt, e⟩ := exists_halted w budget
  rw [e] at h rdy ⊢
  have hm := hlt.sound.mem.2 rdy
  rw [hlt.queue_eq_nil h, List.append_nil] at hm
  exact hm

/-- A budget that never says stop does not stop a run. -/
lemma timedOut_eq_false (never : ∀ checks visited, budget checks visited = false) :
    (ofWorkflow w budget).timedOut = false := by
  obtain ⟨t, hlt, e⟩ := exists_halted w budget
  rw [e]
  cases hlt with
  | drained rch _ => exact rch.not_exhausted.2
  | stopped _ _ hb => exact absurd hb (by simp [never])

/-- A budget cuts the order short and does not change it. -/
lemma order_isPrefix {full : Budget} (h : (ofWorkflow w full).timedOut = false) (budget : Budget) :
    (ofWorkflow w budget).order <+: (ofWorkflow w full).order :=
  Traversal.order_run_isPrefix (.start (.ofWorkflow w)) [] (.ofWorkflow w) budget h

/-- All runs to the end have the same order. -/
lemma order_eq {full : Budget} (h : (ofWorkflow w budget).timedOut = false)
    (h' : (ofWorkflow w full).timedOut = false) :
    (ofWorkflow w budget).order = (ofWorkflow w full).order := by
  have cut := order_isPrefix h' budget
  have cut' := order_isPrefix h full
  exact cut.eq_of_length (Nat.le_antisymm cut.length_le cut'.length_le)

/-- A run that the budget stops leaves something out: the id whose turn it would have been. -/
lemma unprocessed_ne_nil (h : (ofWorkflow w budget).timedOut = true) :
    (ofWorkflow w budget).unprocessed ≠ [] := by
  obtain ⟨t, hlt, e⟩ := exists_halted w budget
  rw [e] at h
  cases hlt with
  | drained rch _ => exact absurd h (Bool.eq_false_iff.1 rch.not_exhausted.2)
  | stopped rch hq _ =>
    obtain ⟨ready, new⟩ := rch.sound.head hq
    apply List.ne_nil_of_mem
    rw [mem_unprocessed, e]
    exact ⟨ready.1, new⟩

/-- A visitor is handed exactly the ids of the order. No id comes twice, the order and the ids left
over share the declared ids among them, those left over stand once each in the order of their
declaration, and every edge into the order comes from an earlier id of the order. -/
theorem order_safe (w : Workflow) (budget : Budget) :
    (∀ {σ : Type} (visitor : σ → String → σ) (s : σ), walk w budget visitor s =
      (ofWorkflow w budget, (ofWorkflow w budget).order.foldl visitor s)) ∧
    (ofWorkflow w budget).order.Nodup ∧
    (∀ id, id ∈ w.ids ↔
      id ∈ (ofWorkflow w budget).order ∨ id ∈ (ofWorkflow w budget).unprocessed) ∧
    (ofWorkflow w budget).order.Disjoint (ofWorkflow w budget).unprocessed ∧
    (ofWorkflow w budget).unprocessed.Pairwise (fun a b => w.ids.idxOf a < w.ids.idxOf b) ∧
    ∀ e ∈ w.edges, e.dest ∈ (ofWorkflow w budget).order →
      e.origin ∈ (ofWorkflow w budget).order ∧
        (ofWorkflow w budget).order.idxOf e.origin < (ofWorkflow w budget).order.idxOf e.dest := by
  refine ⟨walk_eq w budget, order_nodup w budget, ?_, ?_, unprocessed_pairwise w budget, ?_⟩
  · intro id
    rw [mem_unprocessed]
    constructor
    · intro hd
      by_cases ho : id ∈ (ofWorkflow w budget).order
      · exact .inl ho
      · exact .inr ⟨hd, ho⟩
    · rintro (ho | ⟨hd, _⟩)
      · exact mem_ids_of_mem_order ho
      · exact hd
  · intro id ho hu
    exact (mem_unprocessed.1 hu).2 ho
  · intro e he hd
    exact precedes ⟨e, he, rfl, rfl⟩ hd

/-- A workflow with a repeated id, parallel edges, a self-loop, and ends that nobody declares. -/
def tangled : Workflow where
  nodes := ["a", "b", "a", "c", "d", "e", "f"].map fun id => { id, plugin := Node.unknownPlugin }
  edges := [{ origin := "a", dest := "b" }, { origin := "a", dest := "b" },
    { origin := "c", dest := "c" }, { origin := "c", dest := "d" }, { origin := "z", dest := "e" },
    { origin := "b", dest := "f" }, { origin := "b", dest := "y" }]

/-- Stopped after two visits, the run has come to the end of two parallel edges. -/
theorem order_safe_tangled :
    (ofWorkflow tangled (.steps 2)).order = ["a", "b"] ∧
    (ofWorkflow tangled (.steps 2)).unprocessed = ["c", "d", "e", "f"] ∧
    (ofWorkflow tangled (.steps 2)).order.idxOf "a" <
      (ofWorkflow tangled (.steps 2)).order.idxOf "b" := by
  have order : (ofWorkflow tangled (.steps 2)).order = ["a", "b"] := by decide +kernel
  have dest : "b" ∈ (ofWorkflow tangled (.steps 2)).order := by rw [order]; decide
  obtain ⟨_, _, _, _, _, edges⟩ := order_safe tangled (.steps 2)
  exact ⟨order, by decide +kernel, (edges { origin := "a", dest := "b" } (by decide) dest).2⟩

end Flowscript.Schedule
