import Flowscript.Proofs.Comment
import Flowscript.Proofs.Conversion.Account
import Flowscript.Proofs.Rule.Notice

/-!
# The remarks of a conversion

Apart from statements, a script has remarks: notices about what is not supported, the frames, and notices
about the run. They hold names from the workflow as they are. With names on one line all remarks stay
comments, and in general they do just when no message has code behind its first line
(`remarks_stay_comments`); a name with a line feed can put code into the script (`template_name_runs`).
-/

namespace Flowscript

namespace Converter

/-- The parts of the script. -/
def parts (c : Converter) (w : Workflow) (budget : Budget) : List Script.Part :=
  ((c.translate w budget).2.visits.map Visit.fragment).map .fragment ++
    [.summary ((c.convert w budget).bindings.map Prod.snd)] ++
    (if (c.convert w budget).schedule.timedOut then [.timeout] else []) ++
    [.unprocessed (c.convert w budget).schedule.unprocessed]

/-- All names that remarks are made of are on one line. -/
structure NamesOnOneLine (c : Converter) (w : Workflow) (ends : Char → Bool) : Prop where
  stem : Script.OneLine ends c.options.stem
  id : ∀ n ∈ w.nodes, Script.OneLine ends n.id
  plugin : ∀ n ∈ w.nodes, Script.OneLine ends n.plugin
  template : ∀ n ∈ w.nodes, ∀ name ∈ n.template, Script.OneLine ends name

variable {c : Converter} {w : Workflow} {budget : Budget} {ends : Char → Bool} {message : String}
  {v : Visit}

/-- The id of each node is on one line. -/
lemma NamesOnOneLine.ids (names : c.NamesOnOneLine w ends) {id : String} (hid : id ∈ w.ids) :
    Script.OneLine ends id := by
  obtain ⟨n, hn, rfl⟩ := List.mem_map.1 hid
  exact names.id n hn

/-- The notices about a node are made of its names, so they are on one line. -/
lemma oneLine_notices (std : c.rules = Rules.standard) (le : Script.LineEnds ends)
    (names : c.NamesOnOneLine w ends) (hv : v ∈ (c.translate w budget).2.visits)
    (hm : message ∈ Script.notices v.fragment) : Script.OneLine ends message := by
  have node : v.context.node ∈ w.nodes := List.mem_of_find?_eq_some (node_visit hv)
  obtain ⟨xs, n, ys, -, -, -, rfl⟩ := exists_visitNode hv
  rcases notices_fragmentOf std hm with ⟨name, template, rfl⟩ | rfl
  · exact (le.oneLine (by decide) (by decide)).append (names.template n node name template)
  · refine .append (.append (.append (.append ?_ ?_) ?_) ?_) ?_
    · exact le.oneLine (by decide) (by decide)
    · exact names.id n node
    · exact le.oneLine (by decide) (by decide)
    · exact names.plugin n node
    · exact le.oneLine (by decide) (by decide)

/-- The frames are made of the stem and ids, so they are on one line. -/
lemma oneLine_frames (std : c.rules = Rules.standard) (names : c.NamesOnOneLine w ends) :
    ∀ frame ∈ (c.convert w budget).bindings.map Prod.snd, Script.OneLine ends frame := by
  intro frame hf
  rw [bindings_eq std, List.map_map] at hf
  obtain ⟨id, hid, rfl⟩ := List.mem_map.1 hf
  have visited := (List.mem_filter.1 hid).1
  rw [schedule_convert] at visited
  exact names.stem.append (names.ids (Schedule.mem_ids_of_mem_order visited))

/-- The nodes that were not reached have their ids on one line. -/
lemma oneLine_unprocessed (names : c.NamesOnOneLine w ends) :
    ∀ id ∈ (c.convert w budget).schedule.unprocessed, Script.OneLine ends id := by
  intro id hid
  rw [schedule_convert] at hid
  exact names.ids (Schedule.mem_unprocessed.1 hid).1

/-- The messages of all parts are made of names on one line, with words between them. -/
lemma oneLine_messages (std : c.rules = Rules.standard) (le : Script.LineEnds ends)
    (names : c.NamesOnOneLine w ends) {part : Script.Part} (hp : part ∈ c.parts w budget)
    (hm : message ∈ part.messages) : Script.OneLine ends message := by
  have comma : Script.OneLine ends ", " := le.oneLine (by decide) (by decide)
  simp only [parts, List.mem_append, List.mem_map, List.mem_singleton] at hp
  rcases hp with ((⟨f, ⟨v, hv, rfl⟩, rfl⟩ | rfl) | hp) | rfl
  · exact oneLine_notices std le names hv hm
  · rw [List.mem_singleton.1 hm]
    exact (le.oneLine (by decide) (by decide)).append (.intercalate comma (oneLine_frames std names))
  · rw [List.mem_ite_nil_right, List.mem_singleton] at hp
    rw [hp.2] at hm
    rw [List.mem_singleton.1 hm]
    exact le.oneLine (by decide) (by decide)
  · rw [Script.Part.messages, List.mem_ite_nil_left, List.mem_singleton] at hm
    rw [hm.2]
    exact (le.oneLine (by decide) (by decide)).append (.intercalate comma (oneLine_unprocessed names))

/-- A script is a header and parts: one for each visit, and then those about the run. A part has remarks
and then statements. Whatever ends a line, the remarks of a part stay comments just when its messages
have no code behind their first lines; with the rules of the catalog, they do if the stem, the ids, the
plugins and the names of templates are on one line. -/
theorem remarks_stay_comments (c : Converter) (std : c.rules = Rules.standard) (w : Workflow)
    (budget : Budget) (ends : Char → Bool) (le : Script.LineEnds ends) :
    (c.convert w budget).script = Script.text c.options.imports (c.parts w budget) ∧
    ∀ part ∈ c.parts w budget,
      part.text = part.remarks ++ Script.unlines part.statements ∧
      (Script.Commented ends part.remarks ↔
        ∀ message ∈ part.messages, Script.Contained ends message) ∧
      (c.NamesOnOneLine w ends → Script.Commented ends part.remarks) := by
  refine ⟨script_convert c w budget, ?_⟩
  intro part hp
  have contained := Script.commented_remarks le part
  refine ⟨part.text_eq_remarks, contained, ?_⟩
  intro names
  rw [contained]
  intro message hm
  exact (oneLine_messages std le names hp hm).contained

/-- A node of a kind that nobody knows, a template that nobody knows, and a formula behind them. -/
def murmured : Workflow where
  nodes := [{ id := "k", plugin := "Kin" }, { id := "m", plugin := "", template := some "#1.yxmc" },
    { id := "f", plugin := "Formula" }]
  edges := [{ origin := "k", dest := "f" }]

/-- Stopped after two visits, the script has remarks of all kinds. -/
theorem remarks_stay_comments_murmured :
    NamesOnOneLine {} murmured (· == '\n') ∧
    (parts {} murmured (.steps 2)).map Script.Part.remarks =
      ["# Unsupported node type for tool k (Kin)\n", "# Unsupported macro: #1.yxmc\n",
        "\n# Available DataFrames: df_tool_k, df_tool_m\n",
        "\n# Conversion timed out. Some nodes may not have been processed due to potential cycles.\n",
        "\n# The following nodes could not be processed (cyclic or missing dependencies): f\n"] ∧
    ∀ part ∈ parts {} murmured (.steps 2), Script.Commented (· == '\n') part.remarks := by
  have feed : Script.LineEnds (· == '\n') := ⟨rfl, fun _ e => .inl (eq_of_beq e)⟩
  have names : NamesOnOneLine {} murmured (· == '\n') :=
    ⟨by decide +kernel, by decide +kernel, by decide +kernel, by decide +kernel⟩
  obtain ⟨-, remarks⟩ := remarks_stay_comments {} rfl murmured (.steps 2) _ feed
  refine ⟨names, by decide +kernel, ?_⟩
  intro part hp
  exact (remarks part hp).2.2 names

/-- A template whose name goes on in the next line. -/
def pierced : Workflow where
  nodes := [{ id := "1", plugin := "", template := some "a.yxmc\nimport os" }]
  edges := []

/-- A document with that template. -/
def piercedText : String :=
  "<AlteryxDocument><Nodes><Node ToolID='1'><EngineSettings Macro='a.yxmc&#10;import os'/></Node>" ++
  "</Nodes></AlteryxDocument>"

/-- The second line of the name is run, though it stands in the notice that the template is unknown. -/
theorem template_name_runs :
    (convertDocument .ticking {} piercedText).script =
      Script.text (Options.imports {}) (parts {} pierced .unlimited) ∧
    ∃ part ∈ parts {} pierced .unlimited,
      part.messages = ["Unsupported macro: a.yxmc\nimport os"] ∧
      part.remarks = "# Unsupported macro: a.yxmc\nimport os\n" ∧
      part.statements = ["df_tool_1 = df_tool_1.copy()"] ∧
      ¬ Script.Commented (· == '\n') part.remarks := by
  decide +kernel

end Converter

end Flowscript
