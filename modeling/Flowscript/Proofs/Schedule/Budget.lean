import Flowscript.Proofs.Schedule.Order

/-!
# What a budget does to a run

A run asks its budget once before each visit and tells it how many visits there have been
(`Reached.checks_eq`). Where a budget stops a run can therefore be said without the run:
`Budget.StopsAt` holds of the number of visits after which the answer is first to stop. A run under a
budget is a run to the end, cut there (`Budget.Cuts`, `Schedule.cuts`). Two workflows with the same
order and the same ids have the same schedule under every budget (`Schedule.ofWorkflow_congr`).
-/

namespace Flowscript

namespace Budget

/-- What a budget has been asked in the course of this many visits. -/
def passed (visits : Nat) : List Check :=
  (List.range visits).map fun steps => { steps, exhausted := false }

/-- The budget says stop after `k` visits, and not before. -/
def StopsAt (budget : Budget) (k : Nat) : Prop :=
  budget (passed k) k = true ∧ ∀ j < k, budget (passed j) j = false

/-- What a budget makes of the order of a run to the end: the ids that are visited, and the checks. -/
inductive Cuts (budget : Budget) (full : List String) : List String → List Check → Prop where
  | stopped {k : Nat} :
    k < full.length →
    budget.StopsAt k →
    Cuts budget full (full.take k) (passed k ++ [{ steps := k, exhausted := true }])
  | finished :
    (∀ k < full.length, budget (passed k) k = false) →
    Cuts budget full full (passed full.length)

variable {budget : Budget} {full order order' : List String} {checks checks' : List Check}
  {check : Check} {j k : Nat}

/-- One more check comes behind the others, with one more step done. -/
lemma passed_succ (k : Nat) : passed (k + 1) = passed k ++ [{ steps := k, exhausted := false }] := by
  rw [passed, List.range_succ, List.map_append]
  rfl

/-- There is a check before each step. -/
lemma length_passed (k : Nat) : (passed k).length = k := by
  rw [passed, List.length_map, List.length_range]

/-- The first checks are those before the first steps. -/
lemma take_passed (le : j ≤ k) : (passed k).take j = passed j := by
  rw [passed, ← List.map_take, List.take_range, Nat.min_eq_left le]
  rfl

/-- A check that was passed tells the number of steps before it. -/
lemma getElem?_passed (h : (passed k)[j]? = some check) :
    j < k ∧ check = { steps := j, exhausted := false } := by
  have lt : j < k := by
    rw [← length_passed k]
    exact (List.getElem?_eq_some_iff.1 h).1
  rw [passed, List.getElem?_map, List.getElem?_range lt] at h
  exact ⟨lt, (Option.some.inj h).symm⟩

/-- No check that was passed found the budget exhausted. -/
lemma any_exhausted_passed (k : Nat) : (passed k).any Check.exhausted = false := by
  rw [passed, List.any_map, List.any_eq_false]
  intro _ _
  exact Bool.false_ne_true

/-- A budget says stop for the first time only once. -/
lemma StopsAt.unique (stop : budget.StopsAt j) (stop' : budget.StopsAt k) : j = k := by
  rcases Nat.lt_trichotomy j k with lt | eq | gt
  · exact absurd stop.1 (Bool.eq_false_iff.1 (stop'.2 j lt))
  · exact eq
  · exact absurd stop'.1 (Bool.eq_false_iff.1 (stop.2 k gt))

/-- A budget that lets a number of visits pass stops after exactly that many. -/
lemma StopsAt.steps (m : Nat) : (steps m).StopsAt m :=
  ⟨decide_eq_true (Nat.le_refl m), fun _ lt => decide_eq_false (Nat.not_le.2 lt)⟩

namespace Cuts

/-- A budget makes only one thing of an order. -/
lemma unique (cut : budget.Cuts full order checks) (cut' : budget.Cuts full order' checks') :
    order = order' ∧ checks = checks' := by
  cases cut with
  | stopped lt stop =>
    cases cut' with
    | stopped _ stop' =>
      rw [stop.unique stop']
      exact ⟨rfl, rfl⟩
    | finished go => exact absurd stop.1 (Bool.eq_false_iff.1 (go _ lt))
  | finished go =>
    cases cut' with
    | stopped lt stop => exact absurd stop.1 (Bool.eq_false_iff.1 (go _ lt))
    | finished _ => exact ⟨rfl, rfl⟩

/-- A budget that does not say stop leaves an order as it is. -/
lemma of_not_stopsAt (cut : budget.Cuts full order checks) (go : ∀ k < full.length, ¬ budget.StopsAt k) :
    order = full ∧ checks = passed full.length := by
  cases cut with
  | stopped lt stop => exact absurd stop (go _ lt)
  | finished _ => exact ⟨rfl, rfl⟩

/-- The checks are made one visit after the other, and they hold what the budget answers. -/
lemma check_eq (cut : budget.Cuts full order checks) (h : checks[k]? = some check) :
    check = { steps := k, exhausted := budget (checks.take k) k } := by
  cases cut with
  | @stopped n _ stop =>
    rcases Nat.lt_or_ge k (passed n).length with lt | ge
    · rw [List.getElem?_append_left lt] at h
      obtain ⟨lt', rfl⟩ := getElem?_passed h
      rw [List.take_append_of_le_length (Nat.le_of_lt lt), take_passed (Nat.le_of_lt lt'), stop.2 k lt']
    · rw [List.getElem?_append_right ge, List.getElem?_singleton] at h
      split at h
      · next last =>
        have eq : k = n := by
          rw [length_passed] at ge last
          omega
        rw [eq, List.take_append_of_le_length (Nat.le_of_eq (length_passed n).symm),
          take_passed (Nat.le_refl n), stop.1]
        exact (Option.some.inj h).symm
      · cases h
  | finished go =>
    obtain ⟨lt, rfl⟩ := getElem?_passed h
    rw [take_passed (Nat.le_of_lt lt), go k lt]

/-- A check finds the budget exhausted if it stops a run before the end. -/
lemma any_exhausted_iff (cut : budget.Cuts full order checks) :
    checks.any Check.exhausted = true ↔ ∃ k < full.length, budget.StopsAt k := by
  cases cut with
  | @stopped k lt stop => simpa using ⟨k, lt, stop⟩
  | finished go =>
    rw [any_exhausted_passed]
    refine iff_of_false Bool.false_ne_true ?_
    rintro ⟨k, lt, stop⟩
    exact absurd stop.1 (Bool.eq_false_iff.1 (go k lt))

end Cuts

end Budget

namespace Traversal.Reached

variable {w : Workflow} {budget : Budget} {t : Traversal}

/-- Between two visits, the budget has been asked once for each visit made. -/
lemma checks_eq (rch : Reached w budget t) : t.checks = Budget.passed t.order.length := by
  induction rch with
  | start => rfl
  | @visit t id rest rch hq hb ih =>
    obtain ⟨degrees, queue, e⟩ := (t.note false).visit_eq (.ofWorkflow w) id rest
    rw [e, List.length_append, List.length_singleton]
    exact (congrArg (· ++ _) ih).trans (Budget.passed_succ t.order.length).symm

/-- The budget has let every visit pass that was made. -/
lemma allowed (rch : Reached w budget t) {k : Nat} (lt : k < t.order.length) :
    budget (Budget.passed k) k = false := by
  induction rch with
  | start => cases lt
  | @visit t id rest rch hq hb ih =>
    have lt' : k < t.order.length + 1 := by
      rw [order_visit, List.length_append] at lt
      exact lt
    rcases Nat.lt_succ_iff_lt_or_eq.1 lt' with lt | rfl
    · exact ih lt
    · rw [← rch.checks_eq, hb]

end Traversal.Reached

namespace Schedule

variable {w w' : Workflow} {budget full : Budget}

/-- A run under a budget is what the budget makes of a run to the end. -/
lemma cuts (h : (ofWorkflow w full).timedOut = false) (budget : Budget) :
    budget.Cuts (ofWorkflow w full).order (ofWorkflow w budget).order
      (ofWorkflow w budget).checks := by
  have cut := order_isPrefix h budget
  obtain ⟨t, hlt, e⟩ := exists_halted w budget
  cases hlt with
  | drained rch _ =>
    have go : (ofWorkflow w budget).timedOut = false := by
      rw [e]
      exact rch.not_exhausted.2
    have order : t.order = (ofWorkflow w full).order := by
      rw [← order_eq go h, e]
      rfl
    have checks : (ofWorkflow w budget).checks = Budget.passed (ofWorkflow w full).order.length := by
      rw [e, ← order]
      exact rch.checks_eq
    rw [checks, order_eq go h]
    exact .finished fun k lt => rch.allowed (order ▸ lt)
  | @stopped t id rest rch hq hb =>
    have order : (ofWorkflow w budget).order = t.order := by
      rw [e]
      rfl
    have checks : (ofWorkflow w budget).checks =
        Budget.passed t.order.length ++ [{ steps := t.order.length, exhausted := true }] := by
      rw [e, ← rch.checks_eq]
      rfl
    rw [order] at cut ⊢
    rw [checks]
    obtain ⟨ready, new⟩ := rch.sound.head hq
    -- The run to the end goes on: it visits the id whose turn it would have been.
    have lt : t.order.length < (ofWorkflow w full).order.length := by
      refine Nat.lt_of_le_of_ne cut.length_le fun same => new ?_
      have eq : t.order = (ofWorkflow w full).order := cut.eq_of_length same
      rw [eq] at ready ⊢
      exact mem_order_of_ready h ready
    have stop : budget.StopsAt t.order.length :=
      ⟨rch.checks_eq ▸ hb, fun k => rch.allowed⟩
    have stopped := Budget.Cuts.stopped lt stop
    rwa [← List.prefix_iff_eq_take.1 cut] at stopped

/-- A run is stopped if its budget says stop before the last visit of a run to the end. -/
lemma timedOut_iff (h : (ofWorkflow w full).timedOut = false) (budget : Budget) :
    (ofWorkflow w budget).timedOut = true ↔
      ∃ k < (ofWorkflow w full).order.length, budget.StopsAt k := by
  rw [timedOut_eq_any]
  exact (cuts h budget).any_exhausted_iff

/-- Workflows with the same order and the same ids have the same schedule under every budget. -/
lemma ofWorkflow_congr (order : (topological w).order = (topological w').order)
    (declared : (Plan.ofWorkflow w).declared = (Plan.ofWorkflow w').declared) (budget : Budget) :
    ofWorkflow w budget = ofWorkflow w' budget := by
  have full : ∀ w : Workflow, (ofWorkflow w .unlimited).timedOut = false :=
    fun _ => timedOut_eq_false fun _ _ => rfl
  have cut := cuts (full w) budget
  rw [← topological, order] at cut
  obtain ⟨sameOrder, sameChecks⟩ := cut.unique (cuts (full w') budget)
  apply Schedule.ext
  · exact sameOrder
  · rw [unprocessed_eq, unprocessed_eq, declared, sameOrder]
  · rw [timedOut_eq_any, timedOut_eq_any, sameChecks]
  · exact sameChecks

/-- Each check is made with the number of visits before it, which is the number of checks before it, and
holds what the budget answers. If the budget says stop for the first time when `k` ids of a run to the
end have been visited and others are left, these `k` ids are the order, the run is stopped, it leaves
something out, and there are `k + 1` checks. Otherwise it is a run to the end, with one check for each
visit. So a budget of `m` steps gives the first `m` ids, and stops the run if there are more. -/
theorem budget_cuts_order (w : Workflow) (budget full : Budget)
    (h : (ofWorkflow w full).timedOut = false) :
    (∀ (k : Nat) (check : Check), (ofWorkflow w budget).checks[k]? = some check →
      check = { steps := k, exhausted := budget ((ofWorkflow w budget).checks.take k) k }) ∧
    (∀ k < (ofWorkflow w full).order.length, budget.StopsAt k →
      (ofWorkflow w budget).order = (ofWorkflow w full).order.take k ∧
      (ofWorkflow w budget).timedOut = true ∧ (ofWorkflow w budget).unprocessed ≠ [] ∧
      (ofWorkflow w budget).checks.length = k + 1) ∧
    ((∀ k < (ofWorkflow w full).order.length, ¬ budget.StopsAt k) →
      (ofWorkflow w budget).order = (ofWorkflow w full).order ∧
      (ofWorkflow w budget).timedOut = false ∧
      (ofWorkflow w budget).checks.length = (ofWorkflow w full).order.length) ∧
    ∀ m, (ofWorkflow w (.steps m)).order =
        (ofWorkflow w full).order.take (min m (ofWorkflow w full).order.length) ∧
      ((ofWorkflow w (.steps m)).timedOut = true ↔ m < (ofWorkflow w full).order.length) := by
  refine ⟨fun k check => (cuts h budget).check_eq, ?_, ?_, ?_⟩
  · intro k lt stop
    obtain ⟨order, checks⟩ := (cuts h budget).unique (.stopped lt stop)
    have timedOut := (timedOut_iff h budget).2 ⟨k, lt, stop⟩
    refine ⟨order, timedOut, unprocessed_ne_nil timedOut, ?_⟩
    rw [checks, List.length_append, Budget.length_passed]
    rfl
  · intro go
    obtain ⟨order, checks⟩ := (cuts h budget).of_not_stopsAt go
    refine ⟨order, ?_, ?_⟩
    · rw [← Bool.not_eq_true, timedOut_iff h]
      rintro ⟨k, lt, stop⟩
      exact go k lt stop
    · rw [checks, Budget.length_passed]
  · intro m
    have only : ∀ {k}, (Budget.steps m).StopsAt k → k = m := fun stop => stop.unique (.steps m)
    rcases Nat.lt_or_ge m (ofWorkflow w full).order.length with lt | ge
    · rw [Nat.min_eq_left (Nat.le_of_lt lt)]
      obtain ⟨order, -⟩ := (cuts h (.steps m)).unique (.stopped lt (.steps m))
      exact ⟨order, iff_of_true ((timedOut_iff h _).2 ⟨m, lt, .steps m⟩) lt⟩
    · rw [Nat.min_eq_right ge, List.take_length, timedOut_iff h]
      obtain ⟨order, -⟩ := (cuts h (.steps m)).of_not_stopsAt fun k lt stop =>
        absurd lt (Nat.not_lt.2 (only stop ▸ ge))
      refine ⟨order, iff_of_false ?_ (Nat.not_lt.2 ge)⟩
      rintro ⟨k, lt, stop⟩
      exact absurd lt (Nat.not_lt.2 (only stop ▸ ge))

/-- Three ids can be visited. Stopped at its third check, a run visits the first two of them; a budget of
three steps does not stop it. -/
theorem budget_cuts_order_tangled :
    (topological tangled).order = ["a", "b", "f"] ∧
    Budget.StopsAt (.scripted [false, false, true]) 2 ∧
    (ofWorkflow tangled (.scripted [false, false, true])).order = ["a", "b"] ∧
    (ofWorkflow tangled (.scripted [false, false, true])).checks.length = 3 ∧
    (ofWorkflow tangled (.steps 3)).order = ["a", "b", "f"] ∧
    ¬ (ofWorkflow tangled (.steps 3)).timedOut = true := by
  have order : (topological tangled).order = ["a", "b", "f"] := by decide +kernel
  have stop : Budget.StopsAt (.scripted [false, false, true]) 2 := by
    refine ⟨rfl, ?_⟩
    decide
  obtain ⟨-, stopped, -, steps⟩ := budget_cuts_order tangled (.scripted [false, false, true])
    .unlimited (timedOut_eq_false fun _ _ => rfl)
  rw [show (ofWorkflow tangled .unlimited).order = _ from order] at stopped steps
  obtain ⟨first, -, -, checks⟩ := stopped 2 (by decide) stop
  obtain ⟨all, timedOut⟩ := steps 3
  exact ⟨order, stop, first, checks, all, fun h => absurd (timedOut.1 h) (by decide)⟩

end Schedule

end Flowscript
