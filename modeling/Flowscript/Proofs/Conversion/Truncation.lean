import Flowscript.Proofs.Conversion.Translation
import Flowscript.Proofs.Script
import Mathlib.Data.List.Infix

/-!
# A budget truncates

A budget that stops a conversion cuts it short and changes nothing of what comes before. The order is
cut short (`Schedule.order_isPrefix`), and a visit depends on nothing but the visits before it, so the
visits are the first ones of a conversion without a limit (`visits_isPrefix`). Bindings and notices are
read off the visits, and so are the lines of the script.
-/

namespace Flowscript.Converter

variable {c : Converter} {w : Workflow} {budget full : Budget} {v : Visit} {xs ys : List String}

/-- The lines that a conversion emits for a node. -/
def linesFor (c : Converter) (w : Workflow) (budget : Budget) (id : String) : List String :=
  (((c.translate w budget).2.visits.find? (·.id = id)).map (·.fragment.lines)).getD []

/-- Further visits are put behind those that are there. -/
lemma visits_foldl_visit (ids : List String) (t : Translation) :
    t.visits <+: (ids.foldl (c.visit w) t).visits := by
  induction ids generalizing t with
  | nil => exact List.prefix_rfl
  | cons id ids ih =>
    have step : t.visits <+: (c.visit w t id).visits := by
      unfold visit
      split
      · exact List.prefix_rfl
      · exact List.prefix_append _ _
    exact step.trans (ih _)

/-- The visits under a budget are the first ones of a run to the end. -/
lemma visits_isPrefix (h : (Schedule.ofWorkflow w full).timedOut = false) :
    (c.translate w budget).2.visits <+: (c.translate w full).2.visits := by
  obtain ⟨ids, order⟩ := Schedule.order_isPrefix h budget
  rw [translate_eq, translate_eq, ← order, after_append]
  exact visits_foldl_visit ids _

/-- The lines for a node that was visited are those of its fragment. -/
lemma linesFor_visit (hv : v ∈ (c.translate w budget).2.visits) :
    c.linesFor w budget v.id = v.fragment.lines := by
  have found : (c.translate w budget).2.visits.find? (·.id = v.id) = some v := by
    cases h : (c.translate w budget).2.visits.find? (·.id = v.id) with
    | none => exact absurd (List.find?_eq_none.1 h v hv) (by simp)
    | some u =>
      have e := List.find?_some h
      rw [visit_eq (List.mem_of_find?_eq_some h) hv (of_decide_eq_true e)]
  rw [linesFor, found]
  rfl

/-- What a conversion emits is what a run to the end emits for the ids of its order. -/
lemma flatMap_linesFor (h : (Schedule.ofWorkflow w full).timedOut = false) :
    (c.convert w budget).schedule.order.flatMap (c.linesFor w full) =
      (c.translate w budget).2.visits.flatMap (·.fragment.lines) := by
  rw [schedule_convert, ← visits_translate c, List.flatMap_map]
  apply List.flatMap_congr
  intro v hv
  exact linesFor_visit ((visits_isPrefix h).subset hv)

/-- Compared with a run that no budget stops, the order, the bindings and the notices of the nodes are
cut short. The script has the imports and an empty line; then what the run to the end emits for each id
of the order; then the frames of the bindings; then a notice about the time if the budget ran out, and
one about the nodes left over if there are any. -/
theorem timeout_truncates (c : Converter) (w : Workflow) (budget full : Budget)
    (h : (c.convert w full).schedule.timedOut = false) :
    (c.convert w budget).schedule.order <+: (c.convert w full).schedule.order ∧
    (c.convert w budget).bindings <+: (c.convert w full).bindings ∧
    (c.translate w budget).2.visits.flatMap (·.fragment.diagnostics) <+:
      (c.translate w full).2.visits.flatMap (·.fragment.diagnostics) ∧
    (c.convert w budget).diagnostics =
      (c.translate w budget).2.visits.flatMap (·.fragment.diagnostics) ++
        (if (c.convert w budget).schedule.timedOut then
          [timeoutNotice (c.convert w budget).schedule.order.length w.nodes.length] else []) ++
        (if (c.convert w budget).schedule.unprocessed.isEmpty then []
          else [unprocessedNotice (c.convert w budget).schedule.unprocessed]) ∧
    (c.convert w budget).script = Script.unlines (
      c.options.imports ++ [""] ++
      (c.convert w budget).schedule.order.flatMap (c.linesFor w full) ++
      ["", "# " ++ ("Available DataFrames: " ++
        String.intercalate ", " ((c.convert w budget).bindings.map Prod.snd))] ++
      (if (c.convert w budget).schedule.timedOut then ["", "# " ++
        "Conversion timed out. Some nodes may not have been processed due to potential cycles."]
        else []) ++
      (if (c.convert w budget).schedule.unprocessed = [] then [] else ["", "# " ++
        ("The following nodes could not be processed (cyclic or missing dependencies): " ++
          String.intercalate ", " (c.convert w budget).schedule.unprocessed)])) := by
  have stop : (Schedule.ofWorkflow w full).timedOut = false := schedule_convert c w full ▸ h
  refine ⟨?_, ?_, (visits_isPrefix stop).flatMap _, diagnostics_convert c w budget, ?_⟩
  · rw [schedule_convert, schedule_convert]
    exact Schedule.order_isPrefix stop budget
  · rw [bindings_convert, bindings_convert]
    exact (visits_isPrefix stop).filterMap _
  · rw [flatMap_linesFor stop]
    exact script_eq_unlines c w budget

/-- A formula, a node of a kind that nobody knows behind it, and a sort behind that. -/
def relay : Workflow where
  nodes := [{ id := "t", plugin := "Sort" }, { id := "k", plugin := "Kin" },
    { id := "f", plugin := "Formula" }]
  edges := [{ origin := "f", dest := "k" }, { origin := "k", dest := "t" }]

/-- Stopped after two visits, the script ends with both notices about the run. -/
theorem timeout_truncates_relay :
    (convert {} relay .unlimited).schedule.timedOut = false ∧
    (convert {} relay (.steps 2)).schedule.order <+: (convert {} relay .unlimited).schedule.order ∧
    (convert {} relay (.steps 2)).script = Script.unlines (
      Options.imports {} ++
      ["", "df_tool_f = df_tool_f.copy()", "# Unsupported node type for tool k (Kin)",
        "df_tool_k = pd.DataFrame()", "", "# Available DataFrames: df_tool_f, df_tool_k", "",
        "# Conversion timed out. Some nodes may not have been processed due to potential cycles.", "",
        "# The following nodes could not be processed (cyclic or missing dependencies): t"]) := by
  have full : (convert {} relay .unlimited).schedule.timedOut = false := by decide +kernel
  obtain ⟨order, -, -, -, script⟩ := timeout_truncates {} relay (.steps 2) .unlimited full
  refine ⟨full, order, script.trans (congrArg Script.unlines ?_)⟩
  decide +kernel

end Flowscript.Converter
