import Flowscript.Proofs.Schedule.Plan
import Flowscript.Schedule.Run

/-!
# The states of a run

`Traversal.Reached` holds of the states between two visits of a run, `Traversal.Halted` of the states
in which a run ends; `Reached.run` leads from the one to the other. What a run does is told once, by
`Sound`: the numbers kept for the declared ids count the edges that wait, the ids visited or in the
queue are those that are ready, each id was ready when it was visited, and the set of visited ids is
in step with their order. `Reached.sound` is the induction over the visits; its step, `Sound.visit`,
rests on `queue_foldl_retire`, which says which ids enter the queue and in which order. That a run was
stopped is told by its flag and by its last check alike (`Halted.timedOut_eq`).
-/

namespace Flowscript

/-- An entry of a list with one more at its end is that one, or it stands before it. -/
lemma concat_eq_append_cons {α : Type} {l xs ys : List α} {a b : α}
    (e : l ++ [b] = xs ++ a :: ys) :
    (xs = l ∧ a = b) ∨ ∃ zs, l = xs ++ a :: zs := by
  rcases List.eq_nil_or_concat ys with rfl | ⟨zs, c, rfl⟩
  · obtain ⟨rfl, last⟩ := List.append_inj' e rfl
    exact .inl ⟨rfl, (List.singleton_inj.1 last).symm⟩
  · have e' : l ++ [b] = (xs ++ a :: zs) ++ [c] := by simpa using e
    exact .inr ⟨zs, (List.append_inj' e' rfl).1⟩

namespace Traversal

variable {w : Workflow} {budget : Budget} {t : Traversal} {a id : String} {rest : List String}

/-! ## Retiring edges -/

/-- Retiring an edge takes one off the number of its end. -/
lemma lookup_degrees_retire (t : Traversal) (dest a : String) :
    (t.retire dest).degrees.lookup a =
      if a = dest then (t.degrees.lookup a).map (· - 1) else t.degrees.lookup a := by
  unfold retire
  split
  · exact lookup_adjust (· - 1) dest a t.degrees
  · next h =>
    split
    · next e =>
      subst e
      cases hl : t.degrees.lookup a with
      | none => rfl
      | some n =>
        cases n with
        | zero => rfl
        | succ n => exact absurd hl (h n)
    · rfl

/-- An id enters the queue as its last edge is retired. -/
lemma queue_retire (t : Traversal) (dest : String) :
    (t.retire dest).queue = t.queue ++ if t.degrees.lookup dest = some 1 then [dest] else [] := by
  unfold retire
  split
  · next n h =>
    by_cases hn : n = 0
    · simp [h, hn]
    · simp [h, hn]
  · next h =>
    rw [if_neg (h 0), List.append_nil]

/-- Retiring edges takes as many off the number of an id as there are edges into it. -/
lemma lookup_degrees_foldl_retire (dests : List String) (t : Traversal) (a : String) :
    (dests.foldl retire t).degrees.lookup a =
      (t.degrees.lookup a).map (· - dests.count a) := by
  induction dests generalizing t with
  | nil => simp
  | cons d ds ih =>
    rw [List.foldl_cons, ih, lookup_degrees_retire, List.count_cons]
    by_cases e : a = d
    · subst e
      rw [if_pos rfl, Option.map_map]
      congr 1
      funext n
      simp only [Function.comp_apply, beq_self_eq_true, if_true]
      omega
    · simp [e, Ne.symm e]

/-- As edges are retired, the ids whose numbers they use up enter the queue, each with the last of
its edges. -/
lemma queue_foldl_retire {dests : List String} {t : Traversal}
    (le : ∀ d n, t.degrees.lookup d = some n → dests.count d ≤ n) :
    (dests.foldl retire t).queue =
      t.queue ++ dests.dedup.filter fun d => t.degrees.lookup d = some (dests.count d) := by
  induction dests generalizing t with
  | nil => simp
  | cons d ds ih =>
    have le' : ∀ a n, (t.retire d).degrees.lookup a = some n → ds.count a ≤ n := by
      intro a n h
      rw [lookup_degrees_retire] at h
      by_cases e : a = d
      · subst e
        rw [if_pos rfl, Option.map_eq_some_iff] at h
        obtain ⟨m, hm, rfl⟩ := h
        have := le a m hm
        rw [List.count_cons_self] at this
        omega
      · rw [if_neg e] at h
        have := le a n h
        rwa [List.count_cons_of_ne (Ne.symm e)] at this
    -- An id that is still to come is used up by `d :: ds` just when `ds` uses it up after `d`.
    have later : ∀ a ∈ ds, (t.retire d).degrees.lookup a = some (ds.count a) ↔
        t.degrees.lookup a = some ((d :: ds).count a) := by
      intro a ha
      have pos : 0 < ds.count a := List.count_pos_iff.2 ha
      rw [lookup_degrees_retire]
      by_cases e : a = d
      · subst e
        rw [if_pos rfl, List.count_cons_self]
        cases t.degrees.lookup a with
        | none => simp
        | some n =>
          simp only [Option.map_some, Option.some.injEq]
          omega
      · rw [if_neg e, List.count_cons_of_ne (Ne.symm e)]
    have filter : ds.dedup.filter (fun a => (t.retire d).degrees.lookup a = some (ds.count a)) =
        ds.dedup.filter fun a => t.degrees.lookup a = some ((d :: ds).count a) := by
      apply List.filter_congr
      intro a ha
      rw [decide_eq_decide]
      exact later a (List.mem_dedup.1 ha)
    rw [List.foldl_cons, ih le', queue_retire, filter, List.append_assoc]
    congr 1
    by_cases hd : d ∈ ds
    · have two : 2 ≤ (d :: ds).count d := by
        rw [List.count_cons_self]
        exact Nat.succ_le_succ (List.count_pos_iff.2 hd)
      have ne : t.degrees.lookup d ≠ some 1 := fun h => absurd (le d 1 h) (by omega)
      rw [if_neg ne, List.dedup_cons_of_mem hd, List.nil_append]
    · have one : (d :: ds).count d = 1 := by
        rw [List.count_cons_self, List.count_eq_zero.2 hd]
      rw [List.dedup_cons_of_notMem hd, List.filter_cons, one]
      by_cases h : t.degrees.lookup d = some 1
      · simp [h]
      · simp [h]

/-- Taking an id from the queue leaves the numbers as they are. -/
@[simp]
lemma degrees_take (t : Traversal) (id : String) (rest : List String) :
    (t.take id rest).degrees = t.degrees :=
  rfl

/-- The state with other checks in place of those that were made. -/
def withChecks (t : Traversal) (checks : List Check) : Traversal :=
  { t with checks }

/-- Retiring an edge touches the numbers and the queue alone. -/
lemma retire_eq (t : Traversal) (dest : String) :
    ∃ degrees queue, t.retire dest = { t with degrees, queue } := by
  unfold retire
  split
  · exact ⟨_, _, rfl⟩
  · exact ⟨t.degrees, t.queue, rfl⟩

/-- Retiring edges touches the numbers and the queue alone. -/
lemma foldl_retire_eq (dests : List String) (t : Traversal) :
    ∃ degrees queue, dests.foldl retire t = { t with degrees, queue } := by
  induction dests generalizing t with
  | nil => exact ⟨t.degrees, t.queue, rfl⟩
  | cons d ds ih =>
    obtain ⟨degrees, queue, e⟩ := t.retire_eq d
    obtain ⟨degrees', queue', e'⟩ := ih (t.retire d)
    exact ⟨degrees', queue', by rw [List.foldl_cons, e', e]⟩

/-- Retiring an edge has nothing to do with what the budget was asked. -/
lemma retire_withChecks (t : Traversal) (checks : List Check) (dest : String) :
    (t.withChecks checks).retire dest = (t.retire dest).withChecks checks := by
  cases h : t.degrees.lookup dest with
  | none => simp [retire, withChecks, h]
  | some n =>
    cases n with
    | zero => simp [retire, withChecks, h]
    | succ n => simp [retire, withChecks, h]

/-- Retiring edges has nothing to do with what the budget was asked. -/
lemma foldl_retire_withChecks (dests : List String) (t : Traversal) (checks : List Check) :
    dests.foldl retire (t.withChecks checks) = (dests.foldl retire t).withChecks checks := by
  induction dests generalizing t with
  | nil => rfl
  | cons d ds ih => rw [List.foldl_cons, retire_withChecks, ih, List.foldl_cons]

/-- A visit puts its id into the set and at the end of the order. -/
lemma visit_eq (t : Traversal) (p : Plan) (id : String) (rest : List String) :
    ∃ degrees queue, t.visit p id rest =
      { t with degrees, queue, visited := t.visited.insert id, order := t.order ++ [id] } := by
  obtain ⟨degrees, queue, e⟩ := foldl_retire_eq (p.successorsOf id) (t.take id rest)
  exact ⟨degrees, queue, by rw [visit, e, take]⟩

/-- A visit has nothing to do with what the budget was asked. -/
lemma visit_withChecks (t : Traversal) (checks : List Check) (p : Plan) (id : String)
    (rest : List String) :
    (t.withChecks checks).visit p id rest = (t.visit p id rest).withChecks checks := by
  have retired := foldl_retire_withChecks (p.successorsOf id) (t.take id rest) checks
  have taken : (t.withChecks checks).take id rest = (t.take id rest).withChecks checks := rfl
  rw [visit, visit, taken, retired]
  rfl

/-! ## What holds between two visits -/

/-- The numbers count the edges that wait, the ids visited or in the queue are those that are ready,
each id was ready when it was visited, and the set of visited ids holds those of the order. -/
structure Sound (w : Workflow) (t : Traversal) : Prop where
  degrees : ∀ a, t.degrees.lookup a = if a ∈ w.ids then some (w.waiting t.order a) else none
  nodup : (t.order ++ t.queue).Nodup
  mem : ∀ {a}, a ∈ t.order ++ t.queue ↔ w.Ready t.order a
  before : ∀ {xs a ys}, t.order = xs ++ a :: ys → w.Ready xs a
  visited : ∀ {a}, a ∈ t.visited ↔ a ∈ t.order

/-- At the start, the ids without edges into them are ready. -/
lemma Sound.start (w : Workflow) : Sound w (start (.ofWorkflow w)) where
  degrees := Plan.lookup_degrees w
  nodup := (Plan.declared_nodup w).filter _
  mem := by
    intro a
    simp only [Traversal.start, List.nil_append, Plan.frontier_eq, List.mem_filter, Plan.mem_declared,
      decide_eq_true_eq]
    exact and_iff_right_of_imp And.left
  before := by
    intro xs a ys e
    exact absurd e (by simp [Traversal.start])
  visited := Iff.rfl

/-- An id at the head of the queue is ready, and it has not been visited. -/
lemma Sound.head (snd : Sound w t) (hq : t.queue = id :: rest) :
    w.Ready t.order id ∧ id ∉ t.order := by
  have nodup := snd.nodup
  rw [hq, List.nodup_append] at nodup
  refine ⟨snd.mem.1 ?_, fun hm => nodup.2.2 id hm id List.mem_cons_self rfl⟩
  rw [hq]
  exact List.mem_append_right _ List.mem_cons_self

/-- A visit puts those ids into the queue for which the visited one was the last to wait for. They
stand in the order of their last edges from it. -/
lemma Sound.queue_visit (snd : Sound w t) (hq : t.queue = id :: rest) :
    (t.visit (.ofWorkflow w) id rest).queue =
      rest ++ (w.successors id).dedup.filter (w.Ready (t.order ++ [id])) := by
  obtain ⟨-, new⟩ := snd.head hq
  have eq : ∀ d, t.degrees.lookup d =
      if d ∈ w.ids then some (w.waiting (t.order ++ [id]) d + (w.successors id).count d)
      else none := by
    intro d
    rw [snd.degrees, Workflow.waiting_eq_add_count new]
  have le : ∀ d n, t.degrees.lookup d = some n → (w.successors id).count d ≤ n := by
    intro d n h
    rw [eq] at h
    split at h
    · cases h
      exact Nat.le_add_left _ _
    · cases h
  rw [visit, Plan.successorsOf_ofWorkflow]
  refine (queue_foldl_retire (t := t.take id rest) le).trans ?_
  congr 1
  apply List.filter_congr
  intro d _
  rw [decide_eq_decide, degrees_take, eq, Workflow.ready_iff]
  split
  · next hd => simp [hd]
  · next hd => simp [hd]

/-- A visit puts its id at the end of the order. -/
lemma order_visit (t : Traversal) (p : Plan) (id : String) (rest : List String) :
    (t.visit p id rest).order = t.order ++ [id] :=
  rfl

/-- Taken together, the ids visited and those in the queue only grow at the end. -/
lemma Sound.order_append_queue_visit (snd : Sound w t) (hq : t.queue = id :: rest) :
    (t.visit (.ofWorkflow w) id rest).order ++ (t.visit (.ofWorkflow w) id rest).queue =
      (t.order ++ t.queue) ++ (w.successors id).dedup.filter (w.Ready (t.order ++ [id])) := by
  rw [order_visit, snd.queue_visit hq, hq]
  simp only [List.append_assoc, List.cons_append, List.nil_append]

/-- A visit keeps the state sound. -/
lemma Sound.visit (snd : Sound w t) (hq : t.queue = id :: rest) :
    Sound w (t.visit (.ofWorkflow w) id rest) := by
  obtain ⟨ready, new⟩ := snd.head hq
  have all := snd.order_append_queue_visit hq
  -- An id that enters the queue now was not ready before: the visited one leads to it.
  have fresh : ∀ d ∈ w.successors id, ¬ w.Ready t.order d := fun d hd h =>
    new (h.origin_mem (Workflow.mem_successors.1 hd))
  refine ⟨?_, ?_, ?_, ?_, ?_⟩
  · intro a
    rw [Traversal.visit, Plan.successorsOf_ofWorkflow]
    refine (lookup_degrees_foldl_retire _ _ a).trans ?_
    rw [degrees_take, snd.degrees, Workflow.waiting_eq_add_count new]
    split
    · simp
    · rfl
  · rw [all]
    refine List.nodup_append.2 ⟨snd.nodup, (List.nodup_dedup _).filter _, ?_⟩
    rintro a ha _ hd rfl
    exact fresh a (List.mem_dedup.1 (List.mem_filter.1 hd).1) (snd.mem.1 ha)
  · intro a
    rw [all, order_visit, List.mem_append, snd.mem, List.mem_filter, List.mem_dedup,
      decide_eq_true_eq]
    exact Workflow.ready_concat.symm
  · intro xs a ys e
    rcases concat_eq_append_cons e with ⟨rfl, rfl⟩ | ⟨zs, e'⟩
    · exact ready
    · exact snd.before e'
  · intro a
    obtain ⟨degrees, queue, e⟩ := t.visit_eq (.ofWorkflow w) id rest
    rw [e, List.mem_insert_iff, List.mem_append, List.mem_singleton, snd.visited, or_comm]

/-- Asking the budget changes nothing else. -/
lemma Sound.note (snd : Sound w t) (exhausted : Bool) : Sound w (t.note exhausted) :=
  ⟨snd.degrees, snd.nodup, snd.mem, snd.before, snd.visited⟩

/-- Stopping leaves everything where it is. -/
lemma Sound.stop (snd : Sound w t) : Sound w t.stop :=
  ⟨snd.degrees, snd.nodup, snd.mem, snd.before, snd.visited⟩

/-! ## Runs -/

section Loop

variable {σ : Type} {p : Plan} {visitor : σ → String → σ} {s : σ}

/-- With an empty queue, a run is at its end. -/
lemma runM_nil {m : Type → Type} [Monad m] {ask : List Check → Nat → m Bool} (hq : t.queue = []) :
    t.runM p ask visitor s = pure (t, s) := by
  rw [runM]
  split
  · rfl
  · next h => cases hq.symm.trans h

/-- With ids in the queue, a run asks the budget and visits the first of them. -/
lemma runM_cons {m : Type → Type} [Monad m] {ask : List Check → Nat → m Bool}
    (hq : t.queue = id :: rest) :
    t.runM p ask visitor s =
      ask t.checks t.order.length >>= fun exhausted =>
        if exhausted then pure (t.stop, s)
        else ((t.note false).visit p id rest).runM p ask visitor (visitor s id) := by
  rw [runM]
  split
  · next h => cases hq.symm.trans h
  · next h =>
    cases hq.symm.trans h
    rfl

/-- With nothing in the queue, a run ends where it is. -/
lemma run_nil (hq : t.queue = []) : t.run p budget visitor s = (t, s) :=
  runM_nil (m := Id) hq

/-- With a node in the queue, a run stops there, or visits the node and goes on. -/
lemma run_cons (hq : t.queue = id :: rest) :
    t.run p budget visitor s =
      if budget t.checks t.order.length then (t.stop, s)
      else ((t.note false).visit p id rest).run p budget visitor (visitor s id) :=
  runM_cons (m := Id) hq

/-- Induction over a run: what holds where it ends, and before a visit if it holds after it, holds
from the start. -/
lemma run_induction {motive : Traversal → σ → Prop} (p : Plan) (budget : Budget)
    (visitor : σ → String → σ)
    (drained : ∀ t s, t.queue = [] → motive t s)
    (stopped : ∀ t s id rest, t.queue = id :: rest → budget t.checks t.order.length = true →
      motive t s)
    (visit : ∀ t s id rest, t.queue = id :: rest → budget t.checks t.order.length = false →
      motive ((t.note false).visit p id rest) (visitor s id) → motive t s)
    (t : Traversal) (s : σ) : motive t s := by
  induction t, s using runM.induct p visitor with
  | case1 t s hq => exact drained t s hq
  | case2 t s id rest hq ih =>
    cases hb : budget t.checks t.order.length with
    | true => exact stopped t s id rest hq hb
    | false => exact visit t s id rest hq hb ih

/-- A budget that answers without a look at the world gives the run under it. -/
lemma runM_pure {m : Type → Type} [Monad m] [LawfulMonad m] (t : Traversal) (p : Plan)
    (budget : Budget) (visitor : σ → String → σ) (s : σ) :
    t.runM p (fun checks visited => pure (budget checks visited)) visitor s =
      (pure (t.run p budget visitor s) : m (Traversal × σ)) := by
  induction t, s using run_induction p budget visitor with
  | drained t s hq => rw [runM_nil hq, run_nil hq]
  | stopped t s id rest hq hb =>
    rw [runM_cons hq, pure_bind, run_cons hq, if_pos hb, if_pos hb]
  | visit t s id rest hq hb ih =>
    have go := Bool.eq_false_iff.1 hb
    rw [runM_cons hq, pure_bind, run_cons hq, if_neg go, if_neg go, ih]

end Loop

/-- The states between two visits of a run. -/
inductive Reached (w : Workflow) (budget : Budget) : Traversal → Prop where
  | start :
    Reached w budget (start (.ofWorkflow w))
  | visit {t : Traversal} {id : String} {rest : List String} :
    Reached w budget t →
    t.queue = id :: rest →
    budget t.checks t.order.length = false →
    Reached w budget ((t.note false).visit (.ofWorkflow w) id rest)

/-- The states in which a run ends: nothing is left in the queue, or the budget says stop. -/
inductive Halted (w : Workflow) (budget : Budget) : Traversal → Prop where
  | drained {t : Traversal} :
    Reached w budget t →
    t.queue = [] →
    Halted w budget t
  | stopped {t : Traversal} {id : String} {rest : List String} :
    Reached w budget t →
    t.queue = id :: rest →
    budget t.checks t.order.length = true →
    Halted w budget t.stop

/-- A run goes on to its end. -/
lemma Reached.run {σ : Type} (rch : Reached w budget t) (visitor : σ → String → σ) (s : σ) :
    Halted w budget (t.run (.ofWorkflow w) budget visitor s).1 := by
  induction t, s using run_induction (.ofWorkflow w) budget visitor with
  | drained t s hq =>
    rw [run_nil hq]
    exact .drained rch hq
  | stopped t s id rest hq hb =>
    rw [run_cons hq, if_pos hb]
    exact .stopped rch hq hb
  | visit t s id rest hq hb ih =>
    rw [run_cons hq, if_neg (Bool.eq_false_iff.1 hb)]
    exact ih (.visit rch hq hb)

/-- All states of a run are sound. -/
lemma Reached.sound (rch : Reached w budget t) : Sound w t := by
  induction rch with
  | start => exact .start w
  | visit _ hq _ ih => exact (ih.note false).visit hq

/-- As long as a run goes on, the budget has not said stop. -/
lemma Reached.not_exhausted (rch : Reached w budget t) :
    t.checks.any Check.exhausted = false ∧ t.timedOut = false := by
  induction rch with
  | start => exact ⟨rfl, rfl⟩
  | @visit t id rest _ _ _ ih =>
    obtain ⟨degrees, queue, e⟩ := (t.note false).visit_eq (.ofWorkflow w) id rest
    rw [e]
    refine ⟨?_, ih.2⟩
    rw [Traversal.note, List.any_append, ih.1]
    rfl

/-- The states in which a run ends are sound. -/
lemma Halted.sound (hlt : Halted w budget t) : Sound w t := by
  cases hlt with
  | drained rch _ => exact rch.sound
  | stopped rch _ _ => exact rch.sound.stop

/-- The flag is set just when the budget has said stop. -/
lemma Halted.timedOut_eq (hlt : Halted w budget t) :
    t.timedOut = t.checks.any Check.exhausted := by
  cases hlt with
  | drained rch _ => rw [rch.not_exhausted.1, rch.not_exhausted.2]
  | stopped rch _ _ => simp [Traversal.stop, Traversal.note]

/-- A run that was not stopped has emptied the queue. -/
lemma Halted.queue_eq_nil (hlt : Halted w budget t) (h : t.timedOut = false) : t.queue = [] := by
  cases hlt with
  | drained _ hq => exact hq
  | stopped _ _ _ => cases h

/-! ## Visitors -/

section Visitor

variable {σ : Type} {p : Plan} {visitor : σ → String → σ} {s : σ}

/-- From a state that it reaches, a run goes on as from the start. -/
lemma Reached.run_eq (rch : Reached w budget t) :
    ((Traversal.start (.ofWorkflow w)).run (.ofWorkflow w) budget (fun _ _ => ()) ()).1 =
      (t.run (.ofWorkflow w) budget (fun _ _ => ()) ()).1 := by
  induction rch with
  | start => rfl
  | visit _ hq hb ih => rw [ih, run_cons hq, if_neg (Bool.eq_false_iff.1 hb)]

/-- A visitor has no part in the run. -/
lemma run_fst (t : Traversal) (p : Plan) (budget : Budget) (visitor : σ → String → σ) (s : σ) :
    (t.run p budget visitor s).1 = (t.run p budget (fun _ _ => ()) ()).1 := by
  induction t, s using run_induction p budget visitor with
  | drained t s hq => rw [run_nil hq, run_nil hq]
  | stopped t s id rest hq hb => rw [run_cons hq, run_cons hq, if_pos hb, if_pos hb]
  | visit t s id rest hq hb ih =>
    have go := Bool.eq_false_iff.1 hb
    rw [run_cons hq, run_cons hq, if_neg go, if_neg go, ih]

/-- A visitor sees the ids that the run appends to the order, one after the other. -/
lemma run_snd (t : Traversal) (p : Plan) (budget : Budget) (visitor : σ → String → σ) (s : σ) :
    ∃ ids, (t.run p budget visitor s).1.order = t.order ++ ids ∧
      (t.run p budget visitor s).2 = ids.foldl visitor s := by
  induction t, s using run_induction p budget visitor with
  | drained t s hq =>
    rw [run_nil hq]
    exact ⟨[], (List.append_nil _).symm, rfl⟩
  | stopped t s id rest hq hb =>
    rw [run_cons hq, if_pos hb]
    exact ⟨[], (List.append_nil _).symm, rfl⟩
  | visit t s id rest hq hb ih =>
    obtain ⟨ids, order, kept⟩ := ih
    rw [run_cons hq, if_neg (Bool.eq_false_iff.1 hb)]
    refine ⟨id :: ids, ?_, kept⟩
    rw [order]
    exact List.append_assoc t.order [id] ids

/-- Whatever two budgets have been asked before, of two runs from one place the one that is stopped has
come less far than the one that is not. -/
lemma order_run_isPrefix {full : Budget} (t : Traversal) (checks : List Check) (p : Plan)
    (budget : Budget) (h : ((t.withChecks checks).run p full visitor s).1.timedOut = false) :
    (t.run p budget visitor s).1.order <+: ((t.withChecks checks).run p full visitor s).1.order := by
  induction t, s using run_induction p budget visitor generalizing checks with
  | drained t s hq =>
    obtain ⟨ids, order, -⟩ := run_snd (t.withChecks checks) p full visitor s
    rw [run_nil hq]
    exact ⟨ids, order.symm⟩
  | stopped t s id rest hq hb =>
    obtain ⟨ids, order, -⟩ := run_snd (t.withChecks checks) p full visitor s
    rw [run_cons hq, if_pos hb]
    exact ⟨ids, order.symm⟩
  | visit t s id rest hq hb ih =>
    have hq' : (t.withChecks checks).queue = id :: rest := hq
    rw [run_cons hq, if_neg (Bool.eq_false_iff.1 hb)]
    rw [run_cons hq'] at h ⊢
    split at h
    · cases h
    · next go =>
      have same : ((t.withChecks checks).note false).visit p id rest =
          ((t.note false).visit p id rest).withChecks
            (checks ++ [{ steps := t.order.length, exhausted := false }]) :=
        visit_withChecks (t.note false) _ p id rest
      rw [same] at h
      rw [if_neg go, same]
      exact ih _ h

end Visitor

end Traversal

end Flowscript
