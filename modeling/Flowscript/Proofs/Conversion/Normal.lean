import Flowscript.Proofs.Conversion.Locality
import Flowscript.Proofs.Schedule.Budget
import Flowscript.Proofs.Schedule.Restriction

/-!
# Normal workflows

Nobody reads a node whose id an earlier node has, or an edge to an id that nobody declares. The normal
form of a workflow (`Workflow.normal`) leaves them out. It has the same schedule under every budget
(`Schedule.ofWorkflow_normal`): by `Schedule.order_part` without a limit, and then with one. Along this
schedule, the rules of the catalog see the same nodes and the same edges into them, so the fragments and
the bindings are the same (`Converter.after_congr`), and nothing in a conversion tells the two apart but
the number of nodes in the notice about the time (`Converter.convert_normal`).
-/

namespace Flowscript

namespace Workflow

variable {w : Workflow} {id : String}

/-- The workflow without nodes whose id an earlier node has, and without edges to ids that no node
has. -/
def normal (w : Workflow) : Workflow where
  nodes := distinctBy Node.id [] w.nodes
  edges := w.edges.filter (·.dest ∈ w.ids)

/-- The ids stay, each where it stands first. -/
lemma ids_normal (w : Workflow) : w.normal.ids = (Plan.ofWorkflow w).declared := by
  have declared := @keys_distinctBy String id [] w.ids
  rw [List.map_id, List.map_id] at declared
  rw [Plan.declared_ofWorkflow, declared]
  exact keys_distinctBy [] w.nodes

/-- The normal form has the same ids. -/
lemma mem_ids_normal : id ∈ w.normal.ids ↔ id ∈ w.ids := by
  rw [ids_normal, Plan.mem_declared]

/-- Of the nodes with an id, the first stays. -/
lemma node?_normal (w : Workflow) (id : String) : w.normal.node? id = w.node? id := by
  cases found : w.normal.node? id with
  | none =>
    have out : id ∉ w.ids := by
      rw [← mem_ids_normal, mem_ids_iff, found]
      exact Bool.false_ne_true
    rw [mem_ids_iff, Bool.not_eq_true, Option.isSome_eq_false_iff, Option.isNone_iff_eq_none] at out
    exact out.symm
  | some n =>
    have hid := List.find?_some found
    rw [← of_decide_eq_true hid]
    exact (find?_distinctBy (List.mem_of_find?_eq_some found)).symm

/-- The edges into a declared id stay. -/
lemma edges_normal (hid : id ∈ w.ids) :
    w.normal.edges.filter (·.dest = id) = w.edges.filter (·.dest = id) := by
  rw [normal, List.filter_filter]
  apply List.filter_congr
  intro e _
  rw [Bool.and_eq_left_iff_imp, decide_eq_true_eq, decide_eq_true_eq]
  rintro rfl
  exact hid

/-- Nothing is filtered out by no condition. -/
lemma filter_mem_univ (ids : List String) : ids.filter (· ∈ Set.univ) = ids :=
  List.filter_eq_self.2 fun _ _ => decide_eq_true trivial

/-- For a schedule, the normal form is all of the workflow. -/
lemma part_normal (w : Workflow) : Part Set.univ w w.normal where
  declared := by
    have nodup : ((Plan.ofWorkflow w).declared.map id).Nodup := by
      rw [List.map_id]
      exact Plan.declared_nodup w
    rw [Plan.declared_ofWorkflow, ids_normal, distinctBy_eq_self nodup fun _ _ => List.not_mem_nil,
      filter_mem_univ]
  edges := by
    rw [normal, List.filter_filter]
    apply List.filter_congr
    intro e _
    rw [Bool.and_eq_left_iff_imp, decide_eq_true_eq, decide_eq_true_eq]
    exact mem_ids_normal.1
  closed := fun _ _ _ => trivial

end Workflow

/-- A workflow and its normal form have the same schedule under every budget. -/
lemma Schedule.ofWorkflow_normal (w : Workflow) (budget : Budget) :
    ofWorkflow w.normal budget = ofWorkflow w budget := by
  refine ofWorkflow_congr ?_ ?_ budget
  · rw [order_part w.part_normal, Workflow.filter_mem_univ]
  · rw [w.part_normal.declared, Workflow.filter_mem_univ]

/-- What a node adds to the bindings depends on the bindings, not on the edges. -/
lemma Bindings.bound_settle_congr {b b' : Bindings} (st : b.InStep) (st' : b'.InStep)
    (h : b.bound = b'.bound) (id : String) (f : Fragment) :
    (b.settle id f).bound = (b'.settle id f).bound := by
  have same : b.frame? id = b'.frame? id := by rw [← st.lookup_bound, h, st'.lookup_bound]
  cases found : b'.frame? id with
  | none => rw [st.bound_settle (same.trans found), st'.bound_settle found, h]
  | some existing => rw [settle_of_some (same.trans found), settle_of_some found, h]

namespace Converter

variable {c : Converter} {w w' : Workflow} {ids : List String}

/-- Translations along declared ids, of workflows with the same nodes for these ids and the same edges
into them, give the same fragments and the same bindings. -/
lemma after_congr (std : c.rules = Rules.standard) (decl : ∀ id ∈ ids, id ∈ w.ids)
    (nodes : ∀ id ∈ ids, w'.node? id = w.node? id)
    (edges : ∀ id ∈ ids, w'.edges.filter (·.dest = id) = w.edges.filter (·.dest = id)) :
    (c.after w' ids).visits.map Visit.fragment = (c.after w ids).visits.map Visit.fragment ∧
      (c.after w' ids).bindings.bound = (c.after w ids).bindings.bound := by
  induction ids using List.reverseRecOn with
  | nil =>
    refine ⟨rfl, ?_⟩
    exact (Bindings.bound_ofWorkflow w' _).trans (Bindings.bound_ofWorkflow w _).symm
  | append_singleton xs id ih =>
    have snd := sound_after c w xs
    have snd' := sound_after c w' xs
    have old : ∀ {a}, a ∈ xs → a ∈ xs ++ [id] := fun h => List.mem_append_left _ h
    have last : id ∈ xs ++ [id] := List.mem_append_right _ List.mem_cons_self
    obtain ⟨fragments, bound⟩ := ih (fun a h => decl a (old h)) (fun a h => nodes a (old h))
      (fun a h => edges a (old h))
    obtain ⟨n, hn, rfl⟩ := Workflow.exists_node (decl id last)
    have hn' : w'.node? n.id = some n := (nodes n.id last).trans hn
    have agr : (c.after w' xs).bindings.AgreeAt n.id (c.after w xs).bindings := by
      refine snd'.agreeAt snd (edges n.id last) fun e _ _ => ?_
      rw [← snd'.lookup_bound, bound, snd.lookup_bound]
    have fragment : (c.visitNode (c.after w' xs).bindings n).fragment =
        (c.visitNode (c.after w xs).bindings n).fragment := fragmentOf_congr std agr
    rw [after_concat hn, after_concat hn']
    refine ⟨?_, ?_⟩
    · rw [List.map_append, List.map_append, fragments, List.map_singleton, List.map_singleton, fragment]
    · show (Bindings.settle _ _ _).bound = (Bindings.settle _ _ _).bound
      rw [fragment]
      exact Bindings.bound_settle_congr snd'.toInStep snd.toInStep bound n.id _

/-- With the rules of the catalog, a workflow and its normal form give the same fragments and the same
bindings. -/
lemma translate_normal (std : c.rules = Rules.standard) (w : Workflow) (budget : Budget) :
    (c.translate w.normal budget).2.visits.map Visit.fragment =
        (c.translate w budget).2.visits.map Visit.fragment ∧
      (c.convert w.normal budget).bindings = (c.convert w budget).bindings := by
  have decl : ∀ id ∈ (Schedule.ofWorkflow w budget).order, id ∈ w.ids :=
    fun _ h => Schedule.mem_ids_of_mem_order h
  have bindings : ∀ u : Workflow,
      (c.convert u budget).bindings = (c.translate u budget).2.bindings.bound := fun _ => rfl
  rw [bindings, bindings, translate_eq, translate_eq, Schedule.ofWorkflow_normal]
  exact after_congr std decl (fun id _ => w.node?_normal id) fun id h => Workflow.edges_normal (decl id h)

/-- With the rules of the catalog, it makes no difference to a conversion, under any budget, if nodes
whose id an earlier node has are left out, and edges to ids that no node has. Script, schedule and
bindings are the same, and so are the notices, but for the number of nodes in the one about the time. -/
theorem convert_normal (c : Converter) (std : c.rules = Rules.standard) (w : Workflow)
    (budget : Budget) :
    (c.convert w.normal budget).script = (c.convert w budget).script ∧
    (c.convert w.normal budget).schedule = (c.convert w budget).schedule ∧
    (c.convert w.normal budget).bindings = (c.convert w budget).bindings ∧
    ∃ before behind,
      (c.convert w budget).diagnostics = before ++
        (if (c.convert w budget).schedule.timedOut then
          [timeoutNotice (c.convert w budget).schedule.order.length w.nodes.length] else []) ++
        behind ∧
      (c.convert w.normal budget).diagnostics = before ++
        (if (c.convert w budget).schedule.timedOut then
          [timeoutNotice (c.convert w budget).schedule.order.length w.normal.nodes.length] else []) ++
        behind := by
  obtain ⟨fragments, bindings⟩ := translate_normal std w budget
  have schedule : (c.convert w.normal budget).schedule = (c.convert w budget).schedule := by
    rw [schedule_convert, schedule_convert, Schedule.ofWorkflow_normal]
  refine ⟨?_, schedule, bindings, _, _, diagnostics_convert c w budget, ?_⟩
  · rw [script_convert, script_convert, fragments, bindings, schedule]
  · have notices := congrArg (List.flatMap Fragment.diagnostics) fragments
    rw [List.flatMap_map, List.flatMap_map] at notices
    rw [diagnostics_convert, notices, schedule]

/-- Two nodes `a` with different tasks, an edge to nobody, and one from nobody. -/
def cluttered : Workflow where
  nodes := [{ id := "a", plugin := "TextInput" }, { id := "b", plugin := "Formula" },
    { id := "a", plugin := "Union" }, { id := "c", plugin := "Sort" }]
  edges := [{ origin := "a", dest := "z" }, { origin := "a", dest := "b" }, { origin := "y", dest := "c" }]

/-- Only the first `a` counts, and the notices differ in the number of nodes. -/
theorem convert_normal_cluttered :
    (convert {} cluttered.normal (.steps 1)).script = (convert {} cluttered (.steps 1)).script ∧
    (convert {} cluttered (.steps 1)).schedule.order = ["a"] ∧
    timeoutNotice 1 4 ∈ (convert {} cluttered (.steps 1)).diagnostics ∧
    timeoutNotice 1 3 ∈ (convert {} cluttered.normal (.steps 1)).diagnostics := by
  obtain ⟨script, -, -, before, behind, notices, notices'⟩ :=
    convert_normal {} rfl cluttered (.steps 1)
  have order : (convert {} cluttered (.steps 1)).schedule.order = ["a"] := by decide +kernel
  have timedOut : (convert {} cluttered (.steps 1)).schedule.timedOut = true := by decide +kernel
  rw [order, if_pos timedOut] at notices notices'
  refine ⟨script, order, ?_, ?_⟩
  · rw [notices]
    exact List.mem_append_left _ (List.mem_append_right _ List.mem_cons_self)
  · rw [notices']
    exact List.mem_append_left _ (List.mem_append_right _ List.mem_cons_self)

end Converter

end Flowscript
