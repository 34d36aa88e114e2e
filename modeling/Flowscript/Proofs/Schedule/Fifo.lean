import Flowscript.Proofs.Schedule.Order
import Mathlib.Data.Nat.SuccPred
import Mathlib.Order.SuccPred.Archimedean

/-!
# First in, first out

A run to the end starts with the ids that no edge leads into. Each other id follows in its turn: it is
released by one edge, the last to be retired of those into it, and of two ids the one released first
comes first. `Workflow.Released` says which edge that is, without a run: its origin stands last in the
order among all origins of edges into the id, and it is the last edge from there. `Workflow.Fifo` says
that an order follows this rule.

`Traversal.Fair` is the invariant: the ids visited and those in the queue, taken together, follow the
rule. Its step, `Fair.visit`, rests on `Sound.queue_visit`: a visit puts ids into the queue in the order
of their last edges (`Workflow.dedup_successors_pairwise`), and all of them are released later than what
is there already. No other order of the visited ids follows the rule (`Fifo.eq_of_perm`).
-/

namespace Flowscript

namespace Workflow

/-- The declared ids that no edge leads into, in the order of their declaration. -/
def sources (w : Workflow) : List String :=
  (distinctBy id [] w.ids).filter fun id => ∀ e ∈ w.edges, e.dest ≠ id

/-- Edge number `k` leads from `a` to `b`. -/
def EdgeAt (w : Workflow) (a b : String) (k : Nat) : Prop :=
  ∃ e, w.edges[k]? = some e ∧ e.origin = a ∧ e.dest = b

/-- The edge that releases `b` has number `j` and comes from position `i`: of the positions that edges
into `b` come from, `i` is the last, and of the numbers of the edges from there, `j` is. -/
structure Released (w : Workflow) (order : List String) (b : String) (i j : Nat) : Prop where
  origin : IsGreatest {k | ∃ a, w.Leads a b ∧ order.idxOf a = k} i
  edge : IsGreatest {k | ∃ a, w.EdgeAt a b k ∧ order.idxOf a = i} j

/-- The edge that releases `b` goes before the one that releases `c`: it comes from an earlier
position, or from the same and has a smaller number. -/
def ReleasedBefore (w : Workflow) (order : List String) (b c : String) : Prop :=
  ∀ {i j i' j'}, w.Released order b i j → w.Released order c i' j' → i < i' ∨ i = i' ∧ j < j'

/-- The ids without edges into them come first, in the order of their declaration. All others are
released, and they come in the order of the edges that release them. -/
structure Fifo (w : Workflow) (order : List String) : Prop where
  sources : w.sources <+: order
  released : ∀ b ∈ order, b ∉ w.sources → ∃ i j, w.Released order b i j
  turns : ∀ {b c i j i' j'}, b ∈ order → c ∈ order → b ≠ c →
    w.Released order b i j → w.Released order c i' j' →
    (order.idxOf b < order.idxOf c ↔ i < i' ∨ i = i' ∧ j < j')

variable {w : Workflow} {order xs ys : List String} {a b c : String} {i j k : Nat}

/-- An edge at some place leads from one node to the other. -/
lemma EdgeAt.leads (h : w.EdgeAt a b k) : w.Leads a b := by
  obtain ⟨e, hk, ho, hd⟩ := h
  exact ⟨e, List.mem_of_getElem? hk, ho, hd⟩

/-- An edge has its place among the edges. -/
lemma Leads.edgeAt (hl : w.Leads a b) : ∃ k, w.EdgeAt a b k := by
  obtain ⟨e, he, ho, hd⟩ := hl
  obtain ⟨k, hk⟩ := List.mem_iff_getElem?.1 he
  exact ⟨k, e, hk, ho, hd⟩

/-- The sources are the nodes that are ready before any visit. -/
lemma mem_sources : a ∈ w.sources ↔ w.Ready [] a := by
  rw [sources, List.mem_filter, ← Plan.declared_ofWorkflow, Plan.mem_declared, decide_eq_true_eq]
  simp only [Ready, List.not_mem_nil, imp_false, ne_eq]

/-- An id that some edge leads into is released, whatever the order. -/
lemma exists_released (order : List String) (hl : w.Leads a b) :
    ∃ i j, w.Released order b i j := by
  obtain ⟨i, hi⟩ : ∃ i, IsGreatest {k | ∃ a, w.Leads a b ∧ order.idxOf a = k} i := by
    refine BddAbove.exists_isGreatest_of_nonempty ⟨order.length, ?_⟩ ⟨_, a, hl, rfl⟩
    rintro _ ⟨a, _, rfl⟩
    exact List.idxOf_le_length
  obtain ⟨j, hj⟩ : ∃ j, IsGreatest {k | ∃ a, w.EdgeAt a b k ∧ order.idxOf a = i} j := by
    obtain ⟨a, hl, ho⟩ := hi.1
    obtain ⟨k, hk⟩ := hl.edgeAt
    refine BddAbove.exists_isGreatest_of_nonempty ⟨w.edges.length, ?_⟩ ⟨k, a, hk, ho⟩
    rintro k ⟨_, ⟨e, hk, _⟩, _⟩
    exact (List.getElem?_eq_some_iff.1 hk).1.le
  exact ⟨i, j, hi, hj⟩

namespace Released

/-- A node that was released has an edge into it. -/
lemma exists_leads (rel : w.Released order b i j) : ∃ a, w.Leads a b := by
  obtain ⟨a, hl, _⟩ := rel.origin.1
  exact ⟨a, hl⟩

/-- If all origins stand in the first part of an order, the rest of the order does not matter. -/
lemma append_congr (rel : w.Released (xs ++ ys) b i j) (done : ∀ a, w.Leads a b → a ∈ xs)
    (ys' : List String) : w.Released (xs ++ ys') b i j := by
  have same : ∀ a, w.Leads a b → (xs ++ ys).idxOf a = (xs ++ ys').idxOf a := by
    intro a hl
    rw [List.idxOf_append_of_mem (done a hl), List.idxOf_append_of_mem (done a hl)]
  have origins : {k | ∃ a, w.Leads a b ∧ (xs ++ ys).idxOf a = k} =
      {k | ∃ a, w.Leads a b ∧ (xs ++ ys').idxOf a = k} := by
    ext k
    exact exists_congr fun a => and_congr_right fun hl => by rw [same a hl]
  have edges : {k | ∃ a, w.EdgeAt a b k ∧ (xs ++ ys).idxOf a = i} =
      {k | ∃ a, w.EdgeAt a b k ∧ (xs ++ ys').idxOf a = i} := by
    ext k
    exact exists_congr fun a => and_congr_right fun hk => by rw [same a hk.leads]
  exact ⟨origins ▸ rel.origin, edges ▸ rel.edge⟩

/-- An id is released from the first part of an order just when all origins stand there. -/
lemma lt_length_iff (rel : w.Released (xs ++ ys) b i j) :
    i < xs.length ↔ ∀ a, w.Leads a b → a ∈ xs := by
  constructor
  · intro lt a hl
    by_contra ha
    have le := rel.origin.2 ⟨a, hl, rfl⟩
    rw [List.idxOf_append_of_notMem ha] at le
    omega
  · intro done
    obtain ⟨a, hl, rfl⟩ := rel.origin.1
    rw [List.idxOf_append_of_mem (done a hl)]
    exact List.idxOf_lt_length_of_mem (done a hl)

end Released

/-- The ends of the edges from an id, without repetitions, stand in the order of their last edges: of
two of them, the second has an edge behind all edges to the first. -/
lemma dedup_successors_pairwise (w : Workflow) (a : String) :
    (w.successors a).dedup.Pairwise fun b c =>
      ∃ k, w.EdgeAt a c k ∧ ∀ k', w.EdgeAt a b k' → k' < k := by
  obtain ⟨nodes, edges⟩ := w
  induction edges with
  | nil => exact .nil
  | cons e es ih =>
    -- Behind `e`, the numbers in `e :: es` are those in `es` plus one.
    have shift : (successors ⟨nodes, es⟩ a).dedup.Pairwise fun b c =>
        ∃ k, EdgeAt ⟨nodes, e :: es⟩ a c k ∧ ∀ k', EdgeAt ⟨nodes, e :: es⟩ a b k' → k' < k := by
      refine ih.imp ?_
      rintro b c ⟨k, hk, last⟩
      refine ⟨k + 1, hk, fun k' hk' => ?_⟩
      cases k' with
      | zero => exact Nat.succ_pos k
      | succ k' => exact Nat.succ_lt_succ (last k' hk')
    by_cases ho : e.origin = a
    · have head : successors ⟨nodes, e :: es⟩ a = e.dest :: successors ⟨nodes, es⟩ a := by
        simp [successors, ho]
      rw [head]
      by_cases hm : e.dest ∈ successors ⟨nodes, es⟩ a
      · rw [List.dedup_cons_of_mem hm]
        exact shift
      · rw [List.dedup_cons_of_notMem hm]
        refine .cons ?_ shift
        intro c hc
        obtain ⟨k, hk⟩ := (mem_successors.1 (List.mem_dedup.1 hc)).edgeAt
        refine ⟨k + 1, hk, fun k' hk' => ?_⟩
        cases k' with
        | zero => exact Nat.succ_pos k
        | succ k' =>
          have again : EdgeAt ⟨nodes, es⟩ a e.dest k' := hk'
          exact absurd (mem_successors.2 again.leads) hm
    · have head : successors ⟨nodes, e :: es⟩ a = successors ⟨nodes, es⟩ a := by
        simp [successors, ho]
      rw [head]
      exact shift

end Workflow

/-- What holds between earlier and later entries holds between entries with these positions. -/
lemma rel_of_idxOf_lt {l : List String} {R : String → String → Prop} {b c : String}
    (pw : l.Pairwise R) (hc : c ∈ l) (lt : l.idxOf b < l.idxOf c) : R b c := by
  have hb : l.idxOf b < l.length := lt.trans (List.idxOf_lt_length_of_mem hc)
  have rel := List.pairwise_iff_getElem.1 pw _ _ hb (List.idxOf_lt_length_of_mem hc) lt
  rwa [List.getElem_idxOf, List.getElem_idxOf] at rel

namespace Traversal

variable {w : Workflow} {budget : Budget} {t : Traversal} {b d id : String} {rest : List String}
  {i j : Nat}

/-- The ids visited and those in the queue start with the ids without edges into them, and the others
come in the order of the edges that release them. -/
structure Fair (w : Workflow) (t : Traversal) : Prop where
  sources : w.sources <+: t.order ++ t.queue
  turns : (t.order ++ t.queue).Pairwise (w.ReleasedBefore t.order)

/-- A run begins with the sources. -/
lemma frontier_eq_sources (w : Workflow) : (Plan.ofWorkflow w).frontier = w.sources := by
  rw [Plan.frontier_eq, Workflow.sources, ← Plan.declared_ofWorkflow]
  apply List.filter_congr
  intro id hid
  rw [decide_eq_decide, Workflow.Ready, and_iff_right (Plan.mem_declared.1 hid)]
  simp only [List.not_mem_nil, imp_false, ne_eq]

/-- At the start, the queue holds the ids without edges into them. -/
lemma Fair.start (w : Workflow) : Fair w (start (.ofWorkflow w)) := by
  have all : (Traversal.start (.ofWorkflow w)).order ++ (Traversal.start (.ofWorkflow w)).queue =
      w.sources := by
    rw [← frontier_eq_sources]
    rfl
  refine ⟨all ▸ List.prefix_rfl, all ▸ List.pairwise_of_forall_mem_list ?_⟩
  intro b hb c _ i j i' j' rel _
  obtain ⟨a, hl⟩ := rel.exists_leads
  exact absurd ((Workflow.mem_sources.1 hb).origin_mem hl) List.not_mem_nil

/-- An id that a visit makes ready is released from the position of the visited id. -/
lemma Sound.released_visit (snd : Sound w t) (hq : t.queue = id :: rest)
    (hd : d ∈ (w.successors id).dedup.filter (w.Ready (t.order ++ [id])))
    (rel : w.Released (t.order ++ [id]) d i j) : i = t.order.length ∧ w.EdgeAt id d j := by
  obtain ⟨-, new⟩ := snd.head hq
  rw [List.mem_filter, List.mem_dedup, decide_eq_true_eq] at hd
  have last : (t.order ++ [id]).idxOf id = t.order.length := by
    rw [List.idxOf_append_of_notMem new, List.idxOf_cons_self]
    rfl
  have pos : i = t.order.length := by
    have ge := rel.origin.2 ⟨id, Workflow.mem_successors.1 hd.1, last⟩
    rw [← List.append_nil (t.order ++ [id])] at rel
    have lt := rel.lt_length_iff.2 fun a hl => hd.2.origin_mem hl
    rw [List.length_append, List.length_singleton] at lt
    omega
  refine ⟨pos, ?_⟩
  obtain ⟨a, hj, ha⟩ := rel.edge.1
  rcases List.mem_append.1 (hd.2.origin_mem hj.leads) with hm | hm
  · rw [List.idxOf_append_of_mem hm, pos] at ha
    exact absurd (List.idxOf_lt_length_of_mem hm) (by omega)
  · rwa [List.mem_singleton.1 hm] at hj

/-- A visit keeps the state fair. -/
lemma Fair.visit (fair : Fair w t) (snd : Sound w t) (hq : t.queue = id :: rest) :
    Fair w (t.visit (.ofWorkflow w) id rest) := by
  have all := snd.order_append_queue_visit hq
  obtain ⟨-, new⟩ := snd.head hq
  -- What was ready before has its origins among the visited ids, so nothing changes about its release.
  have done : ∀ {b}, b ∈ t.order ++ t.queue → ∀ a, w.Leads a b → a ∈ t.order :=
    fun hb a hl => (snd.mem.1 hb).origin_mem hl
  have old : ∀ {b i j}, b ∈ t.order ++ t.queue → w.Released (t.order ++ [id]) b i j →
      w.Released t.order b i j := by
    intro b i j hb rel
    have rel' := rel.append_congr (done hb) []
    rwa [List.append_nil] at rel'
  refine ⟨?_, ?_⟩
  · rw [all]
    exact fair.sources.trans (List.prefix_append _ _)
  · rw [all, order_visit]
    refine List.pairwise_append.2 ⟨?_, ?_, ?_⟩
    · refine fair.turns.imp_of_mem ?_
      intro b c hb hc before i j i' j' rel rel'
      exact before (old hb rel) (old hc rel')
    · refine ((w.dedup_successors_pairwise id).filter _).imp_of_mem ?_
      rintro b c hb hc ⟨k, hk, last⟩ i j i' j' rel rel'
      obtain ⟨pos, edge⟩ := snd.released_visit hq hb rel
      obtain ⟨pos', edge'⟩ := snd.released_visit hq hc rel'
      have le : k ≤ j' := rel'.edge.2 ⟨id, hk, by
        rw [List.idxOf_append_of_notMem new, List.idxOf_cons_self, pos']
        rfl⟩
      exact .inr ⟨pos.trans pos'.symm, (last j edge).trans_le le⟩
    · intro b hb c hc i j i' j' rel rel'
      have lt := rel.lt_length_iff.2 (done hb)
      obtain ⟨pos', -⟩ := snd.released_visit hq hc rel'
      exact .inl (by omega)

/-- Asking the budget changes nothing about the turns. -/
lemma Fair.note (fair : Fair w t) (exhausted : Bool) : Fair w (t.note exhausted) :=
  ⟨fair.sources, fair.turns⟩

/-- Stopping changes nothing about the turns. -/
lemma Fair.stop (fair : Fair w t) : Fair w t.stop :=
  ⟨fair.sources, fair.turns⟩

/-- All states of a run are fair. -/
lemma Reached.fair (rch : Reached w budget t) : Fair w t := by
  induction rch with
  | start => exact .start w
  | visit rch hq _ ih => exact (ih.note false).visit (rch.sound.note false) hq

/-- When a run ends, the nodes were visited in a fair order. -/
lemma Halted.fair (hlt : Halted w budget t) : Fair w t := by
  cases hlt with
  | drained rch _ => exact rch.fair
  | stopped rch _ _ => exact rch.fair.stop

end Traversal

/-- Behind the same ids, an entry goes before all other entries that come later. -/
lemma idxOf_append_cons_lt {xs ys : List String} {b c : String} (hb : b ∉ xs) (hc : c ∉ xs)
    (ne : b ≠ c) : (xs ++ b :: ys).idxOf b < (xs ++ b :: ys).idxOf c := by
  rw [List.idxOf_append_of_notMem hb, List.idxOf_append_of_notMem hc, List.idxOf_cons_self,
    List.idxOf_cons_ne _ ne]
  omega

namespace Workflow.Fifo

variable {w : Workflow} {xs ys ys' : List String} {b c : String}

/-- Orders of the same ids that follow the rule go on with the same id, if they start with the same ids
and one of them goes on with an id that is ready. -/
lemma head_eq (fifo : w.Fifo (xs ++ b :: ys)) (fifo' : w.Fifo (xs ++ c :: ys')) (hb : b ∉ xs)
    (hc : c ∉ xs) (perm : (c :: ys').Perm (b :: ys)) (sub : w.sources ⊆ xs)
    (ready : w.Ready xs b) : c = b := by
  by_contra ne
  have mem : ∀ {d}, d ∈ b :: ys → d ∈ xs ++ b :: ys ∧ d ∈ xs ++ c :: ys' :=
    fun hd => ⟨List.mem_append_right _ hd, List.mem_append_right _ (perm.mem_iff.2 hd)⟩
  obtain ⟨memb, memb'⟩ := mem List.mem_cons_self
  obtain ⟨memc, memc'⟩ := mem (perm.mem_iff.1 List.mem_cons_self)
  obtain ⟨i, j, rel⟩ := fifo.released b memb fun h => hb (sub h)
  obtain ⟨i', j', rel'⟩ := fifo'.released c memc' fun h => hc (sub h)
  -- The origins for `b` stand in `xs`, so `b` has the same turn in both orders. In the second one, `c`
  -- goes before it; so the origins for `c` stand in `xs` as well, and `c` has the same turn in both.
  have done : ∀ a, w.Leads a b → a ∈ xs := fun a hl => ready.origin_mem hl
  have turn' := (fifo'.turns memc' memb' ne rel' (rel.append_congr done _)).1
    (idxOf_append_cons_lt hc hb ne)
  have lt := rel.lt_length_iff.2 done
  have done' : ∀ a, w.Leads a c → a ∈ xs := rel'.lt_length_iff.1 (by omega)
  have turn := (fifo.turns memb memc (Ne.symm ne) rel (rel'.append_congr done' _)).1
    (idxOf_append_cons_lt hb hc (Ne.symm ne))
  omega

/-- Orders of the same ids that follow the rule and start with the same ids are equal, if one of them
takes each id only when it is ready. -/
lemma eq_of_perm (fifo : w.Fifo (xs ++ ys)) (fifo' : w.Fifo (xs ++ ys'))
    (nodup : (xs ++ ys).Nodup) (perm : ys'.Perm ys) (sub : w.sources ⊆ xs)
    (ready : ∀ zs b zs', xs ++ ys = zs ++ b :: zs' → w.Ready zs b) : ys' = ys := by
  induction ys generalizing xs ys' with
  | nil => exact List.perm_nil.1 perm
  | cons b ys ih =>
    cases ys' with
    | nil => exact absurd perm.length_eq (by simp)
    | cons c ys' =>
      have new : ∀ d ∈ b :: ys, d ∉ xs := fun d hd h => List.disjoint_of_nodup_append nodup h hd
      have eq : c = b := head_eq fifo fifo' (new b List.mem_cons_self)
        (new c (perm.mem_iff.1 List.mem_cons_self)) perm sub (ready xs b ys rfl)
      subst eq
      rw [List.append_cons] at fifo fifo' nodup ready
      rw [ih fifo fifo' nodup ((List.perm_cons c).1 perm) (List.subset_append_of_subset_left _ sub)
        ready]

end Workflow.Fifo

namespace Schedule

variable {w : Workflow} {budget : Budget}

/-- A run to the end follows the rule. -/
lemma fifo (h : (ofWorkflow w budget).timedOut = false) : w.Fifo (ofWorkflow w budget).order := by
  obtain ⟨t, hlt, e⟩ := exists_halted w budget
  have nodup := order_nodup w budget
  have ids : ∀ id ∈ (ofWorkflow w budget).order, id ∈ w.ids := fun _ => mem_ids_of_mem_order
  rw [e] at h nodup ids ⊢
  obtain ⟨sources, turns⟩ := hlt.fair
  rw [hlt.queue_eq_nil h, List.append_nil] at sources turns
  refine ⟨sources, ?_, ?_⟩
  · intro b hb out
    by_contra none
    refine out (Workflow.mem_sources.2 ⟨ids b hb, fun e he hd => ?_⟩)
    exact absurd (Workflow.exists_released _ ⟨e, he, rfl, hd⟩) none
  · intro b c i j i' j' hb hc ne rel rel'
    constructor
    · intro lt
      exact rel_of_idxOf_lt turns hc lt rel rel'
    · intro lex
      by_contra le
      have ne' : t.order.idxOf b ≠ t.order.idxOf c := fun e => ne ((List.idxOf_inj hb).1 e)
      have lex' := rel_of_idxOf_lt turns hb (Nat.lt_of_le_of_ne (Nat.le_of_not_lt le) ne'.symm) rel' rel
      omega

/-- The order of a run to the end starts with the ids that no edge leads into, in the order of their
declaration, and the others follow in the order of the edges that release them. It is the only order of
these ids that does so. -/
theorem order_fifo (w : Workflow) (budget : Budget)
    (h : (ofWorkflow w budget).timedOut = false) :
    (Plan.ofWorkflow w).frontier = w.sources ∧ w.Fifo (ofWorkflow w budget).order ∧
    ∀ order, order.Perm (ofWorkflow w budget).order → w.Fifo order →
      order = (ofWorkflow w budget).order := by
  refine ⟨Traversal.frontier_eq_sources w, fifo h, ?_⟩
  intro order perm fifo'
  obtain ⟨ys, e⟩ := (fifo h).sources
  obtain ⟨ys', rfl⟩ := fifo'.sources
  rw [← e, List.perm_append_left_iff] at perm
  rw [← e, List.append_cancel_left_eq]
  refine Workflow.Fifo.eq_of_perm (e ▸ fifo h) fifo' (e ▸ order_nodup w budget) perm
    (List.Subset.refl _) ?_
  intro zs b zs' eq
  exact ready_of_order_eq (e.symm.trans eq)

/-- Two sources, and two ids behind them: `x` has parallel edges, one of them before and one behind the
edge that releases `y`. -/
def woven : Workflow where
  nodes := ["x", "a", "y", "b"].map fun id => { id, plugin := Node.unknownPlugin }
  edges := [{ origin := "b", dest := "x" }, { origin := "a", dest := "y" },
    { origin := "b", dest := "y" }, { origin := "b", dest := "x" }]

/-- Although `x` is declared first and has the first edge, `y` is released before it, and the order with
the two exchanged does not follow the rule. -/
theorem order_fifo_woven :
    (topological woven).timedOut = false ∧ woven.sources <+: ["a", "b", "y", "x"] ∧
    woven.ReleasedBefore ["a", "b", "y", "x"] "y" "x" ∧ ¬ woven.Fifo ["a", "b", "x", "y"] := by
  have full : (topological woven).timedOut = false := timedOut_eq_false fun _ _ => rfl
  have order : (topological woven).order = ["a", "b", "y", "x"] := by decide +kernel
  obtain ⟨-, fifo, unique⟩ := order_fifo woven .unlimited full
  rw [show (ofWorkflow woven .unlimited).order = _ from order] at fifo unique
  refine ⟨full, fifo.sources, ?_, ?_⟩
  · intro i j i' j' rel rel'
    exact (fifo.turns (by decide) (by decide) (by decide) rel rel').1 (by decide)
  · intro other
    exact absurd (unique ["a", "b", "x", "y"] (by decide) other) (by decide)

end Schedule

end Flowscript
