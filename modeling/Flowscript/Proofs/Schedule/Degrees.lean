import Flowscript.Proofs.Schedule.Order

/-!
# The numbers of a run

At any moment of a run, the number kept for a declared id is the number of edges into it that have not been
retired: between two visits these are the edges that wait, and inside of a visit there are also those from
the visited id that have not had their turn (`Sound.lookup_degrees_partway`). So no edge to a declared id
finds the number zero. `Entered` keeps a record of the ids that enter the queue, with one entry for each time
that an id does; since the queue gives up ids only to be visited, the record is made up of the ids visited and
those in the queue (`Entered.eq_append`).
-/

namespace Flowscript.Traversal

variable {w : Workflow} {budget : Budget} {t : Traversal} {d id : String}
  {rest done left entered : List String}

/-- The ids that enter the queue as these edges are retired, one for each time that the queue grows. -/
def entrants (t : Traversal) : List String → List String
  | [] => []
  | d :: ds => (t.retire d).queue.drop t.queue.length ++ entrants (t.retire d) ds

/-- The states between two visits of a run, with all that has entered the queue so far. -/
inductive Entered (w : Workflow) (budget : Budget) : Traversal → List String → Prop where
  | start :
    Entered w budget (start (.ofWorkflow w)) (start (.ofWorkflow w)).queue
  | visit {t : Traversal} {id : String} {rest entered : List String} :
    Entered w budget t entered →
    t.queue = id :: rest →
    budget t.checks t.order.length = false →
    Entered w budget ((t.note false).visit (.ofWorkflow w) id rest)
      (entered ++ entrants ((t.note false).take id rest) ((Plan.ofWorkflow w).successorsOf id))

/-- Each state of a run has a record of what has entered the queue. -/
lemma Reached.exists_entered (rch : Reached w budget t) : ∃ entered, Entered w budget t entered := by
  induction rch with
  | start => exact ⟨_, .start⟩
  | visit _ hq hb ih =>
    obtain ⟨entered, ent⟩ := ih
    exact ⟨_, .visit ent hq hb⟩

/-- The queue only grows as edges are retired. -/
lemma queue_foldl_retire_eq (dests : List String) (t : Traversal) :
    (dests.foldl retire t).queue = t.queue ++ entrants t dests := by
  induction dests generalizing t with
  | nil => exact (List.append_nil _).symm
  | cons d ds ih =>
    have grown : (t.retire d).queue = t.queue ++ (t.retire d).queue.drop t.queue.length := by
      rw [queue_retire, List.drop_left]
    rw [List.foldl_cons, ih, entrants, ← List.append_assoc, ← grown]

/-- What has entered the queue has been visited or is still there. -/
lemma Entered.eq_append (ent : Entered w budget t entered) : entered = t.order ++ t.queue := by
  induction ent with
  | start => rfl
  | @visit t id rest entered _ hq _ ih =>
    have queue : ((t.note false).visit (.ofWorkflow w) id rest).queue =
        rest ++ entrants ((t.note false).take id rest) ((Plan.ofWorkflow w).successorsOf id) :=
      queue_foldl_retire_eq _ _
    rw [order_visit, queue, ih, hq]
    simp [Traversal.note]

/-- Inside of a visit, the number for a declared id counts the edges that will wait after it, and those
from the visited id that are left. -/
lemma Sound.lookup_degrees_partway (snd : Sound w t) (hq : t.queue = id :: rest)
    (hs : w.successors id = done ++ left) (hd : d ∈ w.ids) :
    (done.foldl retire (t.take id rest)).degrees.lookup d =
      some (w.waiting (t.order ++ [id]) d + left.count d) := by
  obtain ⟨-, new⟩ := snd.head hq
  have before : t.degrees.lookup d =
      some (w.waiting (t.order ++ [id]) d + (done.count d + left.count d)) := by
    rw [snd.degrees, if_pos hd, Workflow.waiting_eq_add_count new, hs, List.count_append]
  rw [lookup_degrees_foldl_retire, degrees_take, before, Option.map_some]
  congr 1
  omega

/-- The queue holds the declared ids that have not been visited and whose number is zero. -/
lemma Sound.mem_queue (snd : Sound w t) :
    d ∈ t.queue ↔ d ∈ w.ids ∧ d ∉ t.order ∧ t.degrees.lookup d = some 0 := by
  have apart : d ∈ t.queue → d ∉ t.order := fun queued visited =>
    List.disjoint_of_nodup_append snd.nodup visited queued
  have ready : d ∈ t.order ∨ d ∈ t.queue ↔ d ∈ w.ids ∧ w.waiting t.order d = 0 := by
    rw [← List.mem_append, snd.mem, Workflow.ready_iff]
  have zero : d ∈ w.ids → (t.degrees.lookup d = some 0 ↔ w.waiting t.order d = 0) := by
    intro declared
    rw [snd.degrees, if_pos declared, Option.some.injEq]
  constructor
  · intro queued
    obtain ⟨declared, none⟩ := ready.1 (.inr queued)
    exact ⟨declared, apart queued, (zero declared).2 none⟩
  · rintro ⟨declared, new, none⟩
    exact (ready.2 ⟨declared, (zero declared).1 none⟩).resolve_left new

/-- In a state between two visits, from which the run goes on to its end, the number for a declared id counts
the edges into it from ids that have not been visited, and the queue holds, once each, the declared ids that
have not been visited and whose number is zero. Whichever edges of the next visit have been retired, an edge
to a declared id then finds a number above zero: it counts the edges that will wait behind the visit, those
that the visit has left, and this one. No id enters the queue a second time. -/
theorem degrees_count_waiting (w : Workflow) (budget : Budget) {t : Traversal}
    (rch : Reached w budget t) :
    ((start (.ofWorkflow w)).run (.ofWorkflow w) budget (fun _ _ => ()) ()).1 =
      (t.run (.ofWorkflow w) budget (fun _ _ => ()) ()).1 ∧
    (∀ a ∈ w.ids, t.degrees.lookup a = some (w.waiting t.order a)) ∧
    t.queue.Nodup ∧ t.queue.Disjoint t.order ∧
    (∀ a, a ∈ t.queue ↔ a ∈ w.ids ∧ a ∉ t.order ∧ t.degrees.lookup a = some 0) ∧
    (∀ id rest done d left, t.queue = id :: rest → budget t.checks t.order.length = false →
      (Plan.ofWorkflow w).successorsOf id = done ++ d :: left → d ∈ w.ids →
      (done.foldl retire ((t.note false).take id rest)).degrees.lookup d =
        some (w.waiting (t.order ++ [id]) d + left.count d + 1)) ∧
    (∃ entered, Entered w budget t entered) ∧
    ∀ entered, Entered w budget t entered → entered.Nodup := by
  have snd := rch.sound
  refine ⟨rch.run_eq, ?_, snd.nodup.of_append_right, (List.disjoint_of_nodup_append snd.nodup).symm,
    fun a => snd.mem_queue, ?_, rch.exists_entered, ?_⟩
  · intro a ha
    rw [snd.degrees, if_pos ha]
  · intro id rest done d left hq _ hs hd
    rw [Plan.successorsOf_ofWorkflow] at hs
    have partway := (snd.note false).lookup_degrees_partway hq hs hd
    rw [List.count_cons_self] at partway
    exact partway
  · intro entered ent
    rw [ent.eq_append]
    exact snd.nodup

/-- One end has three edges from `a`, with one to an id that nobody declares between them, and one from
`b`. -/
def bundled : Workflow where
  nodes := ["c", "b", "a"].map fun id => { id, plugin := Node.unknownPlugin }
  edges := [{ origin := "a", dest := "c" }, { origin := "b", dest := "c" }, { origin := "a", dest := "z" },
    { origin := "a", dest := "c" }, { origin := "a", dest := "c" }]

/-- After the visit of `b`, three edges into `c` wait; inside of the visit of `a`, as the last of them has its
turn, one is left. -/
theorem degrees_count_waiting_bundled : ∃ t, Reached bundled (.steps 2) t ∧
    t.order = ["b"] ∧ t.queue = ["a"] ∧ t.degrees.lookup "c" = some 3 ∧
    (["c", "z", "c"].foldl retire ((t.note false).take "a" [])).degrees.lookup "c" = some 1 ∧
    ∃ entered, Entered bundled (.steps 2) t entered ∧ entered = ["b", "a"] ∧ entered.Nodup := by
  have rch : Reached bundled (.steps 2)
      (((start (.ofWorkflow bundled)).note false).visit (.ofWorkflow bundled) "b" ["a"]) :=
    .visit .start (by decide +kernel) (by decide +kernel)
  obtain ⟨-, number, -, -, -, partway, ⟨entered, ent⟩, once⟩ :=
    degrees_count_waiting bundled (.steps 2) rch
  refine ⟨_, rch, by decide +kernel, by decide +kernel, ?_, ?_, entered, ent, ?_, once entered ent⟩
  · exact (number "c" (by decide)).trans (by decide +kernel)
  · exact (partway "a" [] ["c", "z", "c"] "c" [] (by decide +kernel) (by decide +kernel)
      (by decide +kernel) (by decide)).trans (by decide +kernel)
  · rw [ent.eq_append]
    decide +kernel

end Flowscript.Traversal
