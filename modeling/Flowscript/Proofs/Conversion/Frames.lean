import Flowscript.Proofs.Conversion.Translation
import Flowscript.Proofs.Rule.Writes

/-!
# Frames and their owners

With the rules of the catalog, what is written at a visit goes to the frame of the visited node
(`visit_writesOnly`). No two visits have the same frame (`outputs_nodup`), so a frame is written by one
node only (`frames_written_by_owner`).
-/

namespace Flowscript.Converter

variable {c : Converter} {w : Workflow} {budget : Budget} {v : Visit}

/-- With the rules of the catalog, the fragment of a node writes only to its frame. -/
lemma fragmentOf_writesOnly (std : c.rules = Rules.standard) (b : Bindings) (n : Node) :
    (c.fragmentOf b n).WritesOnly (b.frameName n.id) := by
  have writes : (c.ruleFor n).WritesOnly :=
    ruleFor_cases std n Rule.template_writesOnly Rules.standard_writesOnly Rule.unsupported_writesOnly
  exact (writes (c.contextOf b n)).withInputWarning _

/-- The frame of a visit is named after the visited node. -/
lemma output_visit (hv : v ∈ (c.translate w budget).2.visits) :
    v.context.output = c.options.stem ++ v.id := by
  obtain ⟨xs, n, -, -, -, -, rfl⟩ := exists_visitNode hv
  rw [← (sound_after c w xs).stem_eq]
  rfl

/-- The statements of a visit write to the frame of its node only. -/
lemma visit_writesOnly (std : c.rules = Rules.standard)
    (hv : v ∈ (c.translate w budget).2.visits) : v.fragment.WritesOnly v.context.output := by
  obtain ⟨xs, n, -, -, -, -, rfl⟩ := exists_visitNode hv
  exact fragmentOf_writesOnly std (c.after w xs).bindings n

/-- No two visits have the same frame, whatever the stem is. -/
lemma outputs_nodup (c : Converter) (w : Workflow) (budget : Budget) :
    ((c.translate w budget).2.visits.map (·.context.output)).Nodup := by
  have outputs : (c.translate w budget).2.visits.map (·.context.output) =
      (Schedule.ofWorkflow w budget).order.map (c.options.stem ++ ·) := by
    rw [← visits_translate c, List.map_map]
    exact List.map_congr_left fun v hv => output_visit hv
  rw [outputs]
  refine (Schedule.order_nodup w budget).map ?_
  intro id id' e
  exact String.append_right_inj _ |>.1 e

/-- With the rules of the catalog, a frame is written only by its own node. There is a visit for each id
of the order, and its frame is the stem and the id. Every statement of the visit is the remark, or it
begins with the frame and the mark of an assignment, a column or a file; the first that is not the
remark, if there are statements, assigns to the frame. The frames of the visits are distinct. -/
theorem frames_written_by_owner (c : Converter) (std : c.rules = Rules.standard) (w : Workflow)
    (budget : Budget) :
    (c.translate w budget).2.visits.map Visit.id = (c.convert w budget).schedule.order ∧
    (∀ v ∈ (c.translate w budget).2.visits,
      v.context.output = c.options.stem ++ v.id ∧
      (∀ s ∈ v.fragment.statements,
        s = "# Great Circle Distance calculation" ∨ Statement.Writes (c.options.stem ++ v.id) s) ∧
      (v.fragment.statements ≠ [] → ∃ value,
        v.fragment.statements.find? (· ≠ "# Great Circle Distance calculation") =
          some (c.options.stem ++ v.id ++ " = " ++ value))) ∧
    ((c.translate w budget).2.visits.map (·.context.output)).Nodup := by
  refine ⟨?_, ?_, outputs_nodup c w budget⟩
  · rw [schedule_convert, visits_translate]
  · intro v hv
    have only := visit_writesOnly std hv
    rw [output_visit hv] at only
    exact ⟨output_visit hv, only.writes, only.first⟩

/-- A source of points, and the distances between them. -/
def arcs : Workflow where
  nodes := [{ id := "p", plugin := "TextInput" },
    { id := "g", plugin := "", template := some "GreatArcs.yxmc",
      properties := { name := "Properties", children := [{ name := "Configuration", children := [
        { name := "Value", attributes := [("name", "Input.Points")],
          cdata := some "LatitudeA=a\nLongitudeA=b\nLatitudeB=c\nLongitudeB=d" }] }] } }]
  edges := [{ origin := "p", dest := "g" }]

/-- The distances are a column of the second frame. The remark comes first, then the assignment. -/
theorem frames_written_by_owner_arcs :
    ∃ v ∈ (translate {} arcs .unlimited).2.visits, v.context.output = "df_tool_g" ∧
      v.fragment.statements.length = 3 ∧
      v.fragment.statements.head? = some "# Great Circle Distance calculation" ∧
      (∀ s ∈ v.fragment.statements.tail, Statement.Writes "df_tool_g" s) ∧
      ∃ value, v.fragment.statements.find? (· ≠ "# Great Circle Distance calculation") =
        some ("df_tool_g = " ++ value) := by
  obtain ⟨-, owned, -⟩ := frames_written_by_owner {} rfl arcs .unlimited
  have visited : ∃ v ∈ (translate {} arcs .unlimited).2.visits, v.context.output = "df_tool_g" ∧
      v.fragment.statements.length = 3 ∧
      v.fragment.statements.head? = some "# Great Circle Distance calculation" ∧
      ∀ s ∈ v.fragment.statements.tail, s ≠ "# Great Circle Distance calculation" := by
    decide +kernel
  obtain ⟨v, hv, frame, length, head, tail⟩ := visited
  obtain ⟨output, writes, first⟩ := owned v hv
  rw [← output, frame] at writes first
  refine ⟨v, hv, frame, length, head, ?_, ?_⟩
  · intro s hs
    exact (writes s (List.mem_of_mem_tail hs)).resolve_left (tail s hs)
  · refine first fun e => ?_
    rw [e] at length
    cases length

end Flowscript.Converter
