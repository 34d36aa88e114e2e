import Flowscript.Schedule.Budget
import Flowscript.Schedule.Plan

/-!
# Runs

A run visits the nodes of a workflow so that each comes after all nodes it reads from. Nodes that
are ready wait in a queue, first in, first out: those without inputs in the order of their
declaration, then each as the last edge into it is retired. Nodes on a cycle, behind one, or behind
an id that nobody declares are never ready; a run leaves them out.
-/

namespace Flowscript

/-- A run under way: how many edges into each id still wait, the ids that are ready, the set of the ids
visited, their order, whether the budget has said stop, and what it was asked. -/
structure Traversal where
  degrees : List (String × Nat)
  queue : List String
  visited : List String := []
  order : List String := []
  timedOut : Bool := false
  checks : List Check := []
deriving DecidableEq, Repr

namespace Traversal

/-- The start of a run. -/
def start (p : Plan) : Traversal :=
  { degrees := p.degrees, queue := p.frontier }

/-- Retires one edge into `dest`. With the last of them, the id is ready. -/
def retire (t : Traversal) (dest : String) : Traversal :=
  match t.degrees.lookup dest with
  | some (n + 1) =>
    { t with
      degrees := adjust (· - 1) dest t.degrees
      queue := if n = 0 then t.queue ++ [dest] else t.queue }
  | _ => t

/-- Takes `id` from the queue, with `rest` still in it, and counts it among the visited ids. -/
def take (t : Traversal) (id : String) (rest : List String) : Traversal :=
  { t with queue := rest, visited := t.visited.insert id }

/-- Visits `id`, with `rest` still in the queue: retires the edges from it, one by one. -/
def visit (t : Traversal) (p : Plan) (id : String) (rest : List String) : Traversal :=
  { (p.successorsOf id).foldl retire (t.take id rest) with order := t.order ++ [id] }

/-- Writes down an answer of the budget. -/
def note (t : Traversal) (exhausted : Bool) : Traversal :=
  { t with checks := t.checks ++ [{ steps := t.order.length, exhausted }] }

/-- Stops, as the budget says. -/
def stop (t : Traversal) : Traversal :=
  { t.note true with timedOut := true }

/-! ## A run ends

Each visit takes one id from the queue, and an id enters the queue only as its last edge is
retired. -/

/-- The ids in the queue and those with edges to wait for. -/
def pending (t : Traversal) : Nat :=
  t.queue.length + t.degrees.countP (0 < ·.2)

/-- A lower degree does not make more of them positive. -/
theorem countP_adjust_le (id : String) (table : List (String × Nat)) :
    (adjust (· - 1) id table).countP (0 < ·.2) ≤ table.countP (0 < ·.2) := by
  induction table with
  | nil => simp [adjust]
  | cons e es ih =>
    simp only [adjust, List.map_cons, List.countP_cons] at ih ⊢
    grind

/-- A degree that falls from one to zero is positive no longer. -/
theorem countP_adjust_lt {id : String} {table : List (String × Nat)}
    (h : table.lookup id = some 1) :
    (adjust (· - 1) id table).countP (0 < ·.2) < table.countP (0 < ·.2) := by
  induction table with
  | nil => simp at h
  | cons e es ih =>
    have le := countP_adjust_le id es
    simp only [adjust, List.map_cons, List.countP_cons] at ih le h ⊢
    grind

/-- Retiring an edge does not make more work. -/
theorem pending_retire_le (t : Traversal) (dest : String) :
    (t.retire dest).pending ≤ t.pending := by
  unfold retire
  split
  · next n h =>
    have le := countP_adjust_le dest t.degrees
    by_cases hn : n = 0
    · have lt := countP_adjust_lt (hn ▸ h)
      simp only [pending, hn, if_true, List.length_append, List.length_singleton]
      omega
    · simp only [pending, hn, if_false]
      omega
  · exact Nat.le_refl _

/-- Nor does retiring several. -/
theorem pending_foldl_retire_le (t : Traversal) (dests : List String) :
    (dests.foldl retire t).pending ≤ t.pending := by
  induction dests generalizing t with
  | nil => exact Nat.le_refl _
  | cons d ds ih => exact Nat.le_trans (ih _) (pending_retire_le t d)

/-- A visit takes its node out of the work that is left. -/
theorem pending_visit_lt {t : Traversal} {id : String} {rest : List String} (p : Plan)
    (h : t.queue = id :: rest) : (t.visit p id rest).pending < t.pending := by
  have le := pending_foldl_retire_le (t.take id rest) (p.successorsOf id)
  simp only [pending, visit, take, h, List.length_cons] at le ⊢
  omega

/-- Goes on until the queue is empty or the budget says stop. The budget is asked once before each
visit, and never about an empty queue; to answer, it may look at the world. Each id goes to the
visitor, which hands what it keeps on from visit to visit. -/
def runM {m : Type → Type} [Monad m] {σ : Type} (t : Traversal) (p : Plan)
    (ask : List Check → Nat → m Bool) (visitor : σ → String → σ) (s : σ) : m (Traversal × σ) :=
  match _h : t.queue with
  | [] => return (t, s)
  | id :: rest => do
    if ← ask t.checks t.order.length then
      return (t.stop, s)
    else
      runM ((t.note false).visit p id rest) p ask visitor (visitor s id)
termination_by t.pending
decreasing_by exact pending_visit_lt p _h

/-- A run under a budget that looks at nothing else. -/
def run {σ : Type} (t : Traversal) (p : Plan) (budget : Budget) (visitor : σ → String → σ) (s : σ) :
    Traversal × σ :=
  Id.run (t.runM p budget visitor s)

end Traversal

/-- What a run has done: the ids visited in their order, the declared ids that were left out, in
the order of their declaration, whether the budget stopped it, and what the budget was asked. -/
@[ext]
structure Schedule where
  order : List String
  unprocessed : List String
  timedOut : Bool
  checks : List Check
deriving DecidableEq, Repr

namespace Schedule

/-- The outcome of a run that has come to its end. -/
def ofTraversal (p : Plan) (t : Traversal) : Schedule :=
  { order := t.order
    unprocessed := p.declared.filter (· ∉ t.visited)
    timedOut := t.timedOut
    checks := t.checks }

/-- The schedule of a workflow, with a budget that may look at the world, and what the visitor has
kept in the end. -/
def walkM {m : Type → Type} [Monad m] {σ : Type} (w : Workflow) (ask : List Check → Nat → m Bool)
    (visitor : σ → String → σ) (s : σ) : m (Schedule × σ) := do
  let p := Plan.ofWorkflow w
  let (t, s) ← (Traversal.start p).runM p ask visitor s
  return (ofTraversal p t, s)

/-- The schedule of a workflow under a budget, and what the visitor has kept in the end. -/
def walk {σ : Type} (w : Workflow) (budget : Budget) (visitor : σ → String → σ) (s : σ) :
    Schedule × σ :=
  Id.run (walkM w budget visitor s)

/-- The schedule of a workflow under a budget. -/
def ofWorkflow (w : Workflow) (budget : Budget) : Schedule :=
  (walk w budget (fun _ _ => ()) ()).1

/-- The schedule of a workflow without any limit. -/
def topological (w : Workflow) : Schedule :=
  ofWorkflow w .unlimited

end Schedule

end Flowscript
