import Flowscript.Proofs.Schedule.Order
import Mathlib.Data.Set.Finite.List
import Mathlib.Logic.Relation
import Mathlib.Order.Bounds.Defs
import Mathlib.Order.WellFounded

/-!
# The ids that a full run leaves out

A run that the budget does not stop visits all ids that ever get ready. What it leaves out is
blocked: behind an id that nobody declares, or behind a cycle. One direction needs only the order of
the schedule (`not_mem_order_of_blocks`). For the other, each id that is left out has a predecessor
that is left out too (`exists_blocked_origin`), and among finitely many ids the way back must end in
a cycle (`exists_blocks_of_not_mem_order`).
-/

namespace Flowscript

/-- Sets of declared ids that hold each declared id all of whose origins they hold. -/
def Workflow.ReadyClosed (w : Workflow) : Set (Set String) :=
  {S | S ⊆ {id | id ∈ w.ids} ∧
    ∀ id ∈ w.ids, (∀ e ∈ w.edges, e.dest = id → e.origin ∈ S) → id ∈ S}

/-- The id is the origin of some edge and nobody declares it, or it lies on a cycle of edges. -/
def Workflow.Blocks (w : Workflow) (a : String) : Prop :=
  ((∃ e ∈ w.edges, e.origin = a) ∧ a ∉ w.ids) ∨ Relation.TransGen w.Leads a a

/-- Where each member of a finite set has a predecessor in it, some member lies on a cycle. -/
lemma exists_cycle {α : Type} {r : α → α → Prop} {S : Set α} (fin : S.Finite) (ne : S.Nonempty)
    (back : ∀ b ∈ S, ∃ a ∈ S, r a b) : ∃ a ∈ S, Relation.TransGen r a a := by
  by_contra none
  have : Finite S := fin.to_subtype
  have wf : WellFounded fun a b : S => Relation.TransGen r a.1 b.1 := by
    have : Std.Irrefl fun a b : S => Relation.TransGen r a.1 b.1 :=
      ⟨fun a cyc => none ⟨a, a.2, cyc⟩⟩
    have : IsTrans S fun a b => Relation.TransGen r a.1 b.1 := ⟨fun _ _ _ ab bc => ab.trans bc⟩
    exact Finite.wellFounded_of_trans_of_irrefl _
  obtain ⟨⟨b, hb⟩, -, first⟩ := wf.has_min Set.univ ⟨⟨_, ne.some_mem⟩, trivial⟩
  obtain ⟨a, ha, hr⟩ := back b hb
  exact first ⟨a, ha⟩ trivial (.single hr)

namespace Schedule

variable {w : Workflow} {budget : Budget} {a b id : String}

/-- Along edges into the order, positions grow. -/
lemma idxOf_lt_of_transGen (ch : Relation.TransGen w.Leads a b)
    (hb : b ∈ (ofWorkflow w budget).order) :
    a ∈ (ofWorkflow w budget).order ∧
      (ofWorkflow w budget).order.idxOf a < (ofWorkflow w budget).order.idxOf b := by
  induction ch with
  | single hl => exact precedes hl hb
  | tail _ hl ih =>
    obtain ⟨hm, lt⟩ := precedes hl hb
    obtain ⟨ha, lt'⟩ := ih hm
    exact ⟨ha, lt'.trans lt⟩

/-- What is behind a missing id or a cycle is not visited. -/
lemma not_mem_order_of_blocks (blk : w.Blocks a) (ch : Relation.ReflTransGen w.Leads a id) :
    id ∉ (ofWorkflow w budget).order := by
  induction ch with
  | refl =>
    intro hm
    rcases blk with ⟨_, hd⟩ | cyc
    · exact hd (mem_ids_of_mem_order hm)
    · exact Nat.lt_irrefl _ (idxOf_lt_of_transGen cyc hm).2
  | tail _ hl ih => exact fun hm => ih (precedes hl hm).1

/-- A declared id that a full run leaves out waits for an id that is not visited either. -/
lemma exists_blocked_origin (h : (ofWorkflow w budget).timedOut = false) (hd : id ∈ w.ids)
    (ho : id ∉ (ofWorkflow w budget).order) :
    ∃ a, w.Leads a id ∧ a ∉ (ofWorkflow w budget).order := by
  by_contra none
  refine ho (mem_order_of_ready h ⟨hd, fun e he hid => ?_⟩)
  by_contra hm
  exact none ⟨e.origin, ⟨e, he, rfl, hid⟩, hm⟩

/-- The way back from an id that a full run leaves out comes to a missing id or to a cycle. -/
lemma exists_blocks_of_not_mem_order (h : (ofWorkflow w budget).timedOut = false) (hd : id ∈ w.ids)
    (ho : id ∉ (ofWorkflow w budget).order) :
    ∃ a, w.Blocks a ∧ Relation.ReflTransGen w.Leads a id := by
  by_contra none
  have free : ∀ a, Relation.ReflTransGen w.Leads a id → ¬ w.Blocks a :=
    fun a ch blk => none ⟨a, blk, ch⟩
  -- Each id on the way back that was left out waits for another one, so there is a cycle of them.
  obtain ⟨a, ⟨_, _, ch⟩, cyc⟩ := exists_cycle (r := w.Leads)
    (S := {a | a ∈ w.ids ∧ a ∉ (ofWorkflow w budget).order ∧ Relation.ReflTransGen w.Leads a id})
    (w.ids.finite_toSet.subset fun a ha => ha.1) ⟨id, hd, ho, .refl⟩ (by
      rintro b ⟨bd, bo, bch⟩
      obtain ⟨a, hl, ao⟩ := exists_blocked_origin h bd bo
      have ach : Relation.ReflTransGen w.Leads a id := .head hl bch
      have ad : a ∈ w.ids := by
        by_contra hn
        obtain ⟨e, he, eo, _⟩ := hl
        exact free a ach (.inl ⟨⟨e, he, eo⟩, hn⟩)
      exact ⟨a, ⟨ad, ao, ach⟩, hl⟩)
  exact free a ch (.inr cyc)

/-- Sets closed under getting ready hold all visited ids. -/
lemma mem_of_mem_order {S : Set String} (cl : S ∈ w.ReadyClosed)
    (hm : id ∈ (ofWorkflow w budget).order) : id ∈ S := by
  -- The origins of the edges into `id` stand before it.
  induction hn : (ofWorkflow w budget).order.idxOf id using Nat.strong_induction_on
    generalizing id with
  | _ n ih =>
    refine cl.2 id (mem_ids_of_mem_order hm) fun e he hd => ?_
    obtain ⟨ho, lt⟩ := precedes ⟨e, he, rfl, hd⟩ hm
    exact ih _ (hn ▸ lt) ho rfl

/-- A declared id is left over by a full run just when a chain of edges leads to it from an id that
nobody declares or from a cycle. The visited ids are the least set of declared ids that holds each
declared id all of whose origins it holds; if all origins are declared and there is no cycle, nothing
is left over. -/
theorem unprocessed_iff_blocked (w : Workflow) (budget : Budget)
    (h : (ofWorkflow w budget).timedOut = false) :
    (∀ id ∈ w.ids, id ∈ (ofWorkflow w budget).unprocessed ↔
      ∃ a, w.Blocks a ∧ Relation.ReflTransGen w.Leads a id) ∧
    IsLeast w.ReadyClosed {id | id ∈ (ofWorkflow w budget).order} ∧
    ((∀ e ∈ w.edges, e.origin ∈ w.ids) → (∀ a, ¬ Relation.TransGen w.Leads a a) →
      (ofWorkflow w budget).unprocessed = []) := by
  have blocked : ∀ id ∈ w.ids, id ∈ (ofWorkflow w budget).unprocessed ↔
      ∃ a, w.Blocks a ∧ Relation.ReflTransGen w.Leads a id := by
    intro id hd
    rw [mem_unprocessed]
    constructor
    · rintro ⟨_, ho⟩
      exact exists_blocks_of_not_mem_order h hd ho
    · rintro ⟨a, blk, ch⟩
      exact ⟨hd, not_mem_order_of_blocks blk ch⟩
  refine ⟨blocked, ⟨⟨?_, ?_⟩, ?_⟩, ?_⟩
  · intro id hm
    exact mem_ids_of_mem_order hm
  · intro id hd ho
    exact mem_order_of_ready h ⟨hd, ho⟩
  · intro S cl id hm
    exact mem_of_mem_order cl hm
  · intro declared acyclic
    apply List.eq_nil_iff_forall_not_mem.2
    intro id hu
    obtain ⟨a, ⟨⟨e, he, rfl⟩, hn⟩ | cyc, _⟩ := (blocked id (mem_unprocessed.1 hu).1).1 hu
    · exact hn (declared e he)
    · exact acyclic a cyc

/-- Behind the self-loop, an id is left over by a run without any limit. -/
theorem unprocessed_iff_blocked_tangled :
    (topological tangled).timedOut = false ∧ "d" ∈ (topological tangled).unprocessed ∧
    ∃ a, tangled.Blocks a ∧ Relation.ReflTransGen tangled.Leads a "d" := by
  have full : (topological tangled).timedOut = false := timedOut_eq_false fun _ _ => rfl
  have left : "d" ∈ (topological tangled).unprocessed := by decide +kernel
  obtain ⟨blocked, _⟩ := unprocessed_iff_blocked tangled .unlimited full
  exact ⟨full, left, (blocked "d" (by decide)).1 left⟩

end Schedule

end Flowscript
