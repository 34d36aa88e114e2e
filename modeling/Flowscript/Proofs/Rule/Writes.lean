import Flowscript.Proofs.Rule.Answer

/-!
# What the rules write

A statement writes to a frame if it begins with its name and goes on with an assignment, a column or a
file (`Statement.Writes`). Apart from one remark, a fragment that writes only to a frame consists of such
statements, and the first of them gives the frame its value (`Fragment.WritesOnly`). The rules of the
catalog write only to the frame of their node (`Rules.standard_writesOnly`), whatever the settings say
and wherever the input comes from; so do those for templates and for unknown kinds.
-/

namespace Flowscript

namespace Statement

/-- The statement begins with the frame, and then comes the mark of an assignment, of a column or of an
output file. -/
inductive Writes (frame : String) : String → Prop where
  | assign (value : String) : Writes frame (frame ++ " = " ++ value)
  | column (rest : String) : Writes frame (frame ++ "[" ++ rest)
  | file (rest : String) : Writes frame (frame ++ ".to_csv(" ++ rest)

/-- The one statement that writes to no frame. -/
def remark : String :=
  "# Great Circle Distance calculation"

/-- The remark is no assignment: it has no equals sign. -/
lemma assign_ne_remark (frame value : String) : Statement.assign frame value ≠ remark := by
  intro e
  have mem : '=' ∈ (Statement.assign frame value).toList := by simp [Statement.assign]
  rw [e] at mem
  exact absurd mem (by decide)

/-- What begins with the frame and a bracket writes to a column of the frame. -/
lemma writes_of_bracket {frame rest : String} (h : rest.toList.head? = some '[') :
    Writes frame (frame ++ rest) := by
  obtain ⟨chars, e⟩ := List.head?_eq_some_iff.1 h
  have bracket : rest = "[" ++ String.ofList chars := by
    rw [← String.toList_inj, e]
    simp
  rw [bracket, ← String.append_assoc]
  exact .column _

/-- An assignment to a column of a frame writes to the frame. -/
lemma writes_assignColumn (frame name value : String) :
    Writes frame (assignColumn frame name value) := by
  rw [assignColumn, Statement.assign, Statement.column]
  simp only [String.append_assoc]
  apply writes_of_bracket
  simp

end Statement

/-- Apart from the remark, the statements write to the frame, and if there are any, the first of them
gives it a value. -/
structure Fragment.WritesOnly (frame : String) (f : Fragment) : Prop where
  writes : ∀ s ∈ f.statements, s = Statement.remark ∨ Statement.Writes frame s
  first : f.statements ≠ [] → ∃ value,
    f.statements.find? (· ≠ Statement.remark) = some (Statement.assign frame value)

/-- The rule writes only to the frame of its node. -/
def Rule.WritesOnly (r : Rule) : Prop :=
  ∀ c, (r c).WritesOnly c.output

namespace Fragment.WritesOnly

variable {frame value : String} {f : Fragment} {rest : List String}

/-- A fragment without statements writes to no other frame. -/
lemma of_nil (e : f.statements = []) : f.WritesOnly frame where
  writes := by
    rw [e]
    exact fun s hs => nomatch hs
  first := fun ne => absurd e ne

/-- Statements that begin with an assignment to the frame. -/
lemma of_assign (e : f.statements = Statement.assign frame value :: rest)
    (writes : ∀ s ∈ rest, Statement.Writes frame s) : f.WritesOnly frame where
  writes := by
    rw [e]
    intro s hs
    rcases List.mem_cons.1 hs with rfl | hs
    · exact .inr (.assign value)
    · exact .inr (writes s hs)
  first := by
    intro _
    rw [e, List.find?_cons_of_pos (by simpa using Statement.assign_ne_remark frame value)]
    exact ⟨value, rfl⟩

/-- Nor does one that assigns to the frame alone. -/
lemma of_single (e : f.statements = [Statement.assign frame value]) : f.WritesOnly frame :=
  .of_assign e (List.forall_mem_nil _)

/-- Such statements with the remark in front. -/
lemma of_remark (e : f.statements = Statement.remark :: Statement.assign frame value :: rest)
    (writes : ∀ s ∈ rest, Statement.Writes frame s) : f.WritesOnly frame := by
  have behind : Fragment.WritesOnly frame { statements := Statement.assign frame value :: rest } :=
    of_assign rfl writes
  refine ⟨?_, ?_⟩
  · rw [e]
    intro s hs
    rcases List.mem_cons.1 hs with rfl | hs
    · exact .inl rfl
    · exact behind.writes s hs
  · intro _
    rw [e, List.find?_cons_of_neg (by simp)]
    exact behind.first (List.cons_ne_nil _ _)

/-- A warning about the input is no statement. -/
lemma withInputWarning (wr : f.WritesOnly frame) (warning : Option Diagnostic) :
    (f.withInputWarning warning).WritesOnly frame := by
  obtain ⟨diagnostics, e⟩ := f.withInputWarning_eq warning
  rw [e]
  exact ⟨wr.writes, wr.first⟩

end Fragment.WritesOnly

namespace Rule

variable {c : Context}

/-- A rule that needs a setting writes one statement, or none if the setting is missing. -/
lemma setting_writesOnly {setting : Option String} {value : String → String} {what : String} :
    Fragment.WritesOnly c.output
      (match setting with
      | some s => .bound c.output [Statement.assign c.output (value s)]
      | none => .declined [c.missing what]) := by
  cases setting with
  | none => exact .of_nil rfl
  | some s => exact .of_single rfl

/-- A rule that copies its input first. -/
lemma copy_writesOnly {rest : List String} (writes : ∀ s ∈ rest, Statement.Writes c.output s) :
    (Fragment.bound c.output (c.copy :: rest)).WritesOnly c.output :=
  .of_assign rfl writes

/-- A sink copies its input, and then writes the copy into a file. -/
lemma sink_writesOnly : sink.WritesOnly := by
  intro c
  refine copy_writesOnly fun s hs => ?_
  rw [List.mem_singleton.1 hs, String.append_assoc]
  exact .file _

/-- A selection copies its input, and then cuts the copy. -/
lemma select_writesOnly : select.WritesOnly := by
  intro c
  refine copy_writesOnly ?_
  split
  · intro s hs
    rw [List.mem_singleton.1 hs]
    exact .assign _
  · split
    · exact List.forall_mem_nil _
    · intro s hs
      rw [List.mem_singleton.1 hs]
      exact .assign _

/-- A formula copies its input, and then sets columns of the copy. -/
lemma formula_writesOnly : formula.WritesOnly := by
  intro c
  refine copy_writesOnly fun s hs => ?_
  obtain ⟨⟨field, expression⟩, -, rfl⟩ := List.mem_map.1 hs
  exact Statement.writes_assignColumn _ _ _

/-- An aggregate is a column of the output. -/
lemma aggregate?_writes {output s : String} {field : Element} (h : aggregate? output field = some s) :
    Statement.Writes output s := by
  simp only [aggregate?, Option.bind_eq_bind, Option.bind_eq_some_iff] at h
  obtain ⟨column, -, ⟨mark, method⟩, -, e⟩ := h
  cases e
  exact Statement.writes_assignColumn _ _ _

/-- A summary copies its input, and then sets columns of the copy. -/
lemma summarize_writesOnly : summarize.WritesOnly := by
  intro c
  refine copy_writesOnly fun s hs => ?_
  obtain ⟨field, -, e⟩ := List.mem_filterMap.1 hs
  exact aggregate?_writes e

/-- An extraction copies its input, and then sets columns of the copy. -/
lemma patternExtract_writesOnly : patternExtract.WritesOnly := by
  intro c
  refine copy_writesOnly ?_
  split
  · intro s hs
    rw [List.mem_singleton.1 hs]
    exact Statement.writes_assignColumn _ _ _
  · exact List.forall_mem_nil _

/-- A fetch copies its input, and then sets a column of the copy. -/
lemma remoteFetch_writesOnly : remoteFetch.WritesOnly := by
  intro c
  refine copy_writesOnly fun s hs => ?_
  rw [List.mem_singleton.1 hs]
  exact Statement.writes_assignColumn _ _ _

/-- A converted field is a column of the output. -/
lemma conversion?_writes {output s : String} {field : Element} (h : conversion? output field = some s) :
    Statement.Writes output s := by
  simp only [conversion?, Option.bind_eq_bind, Option.bind_eq_some_iff] at h
  obtain ⟨name, -, type, -, value, -, e⟩ := h
  cases e
  exact Statement.writes_assignColumn _ _ _

/-- A conversion of types copies its input, and then changes the copy. -/
lemma autoField_writesOnly : autoField.WritesOnly := by
  intro c
  refine copy_writesOnly fun s hs => ?_
  rcases List.mem_cons.1 hs with rfl | hs
  · exact .assign _
  · obtain ⟨field, -, e⟩ := List.mem_filterMap.1 hs
    exact conversion?_writes e

/-- A union only reads the frames that it stacks. -/
lemma union_writesOnly : union.WritesOnly := by
  intro c
  simp only [union]
  split
  · exact .of_nil rfl
  · exact .of_single rfl

/-- A join only reads the frames that it merges. -/
lemma join_writesOnly : join.WritesOnly := by
  intro c
  unfold join
  split
  · split
    · unfold joinFrames
      split
      · exact .of_single rfl
      · exact .of_nil rfl
    · exact .of_nil rfl
  · exact .of_nil rfl

/-- For an unsupported kind, the output is an empty frame. -/
lemma unsupported_writesOnly : unsupported.WritesOnly := fun _ =>
  .of_single rfl

/-- The distance is a column of the output. -/
lemma distance_writes (output : String) (columns : List String) :
    Statement.Writes output (distance output columns) := by
  rw [distance]
  simp only [String.append_assoc]
  apply Statement.writes_of_bracket
  simp

/-- A template copies its input, whether it is known or not. -/
lemma template_writesOnly (name : String) : (template name).WritesOnly := by
  intro c
  cases h : Template.lookup name with
  | none =>
    simp only [template, h]
    exact .of_single rfl
  | some t =>
    cases t with
    | greatArcs =>
      simp only [template, h, greatArcs]
      split
      · next columns _ =>
        refine .of_remark rfl fun s hs => ?_
        rw [List.mem_singleton.1 hs]
        exact distance_writes c.output columns
      · exact .of_single rfl

end Rule

/-- The rules of the catalog write only to the frame of their node. -/
lemma Rules.standard_writesOnly {kind : Kind} {r : Rule} (h : standard kind = some r) :
    r.WritesOnly := by
  intro c
  cases kind with
  | unknown => cases h
  | source | filter | sort | unique =>
    cases h
    exact Rule.setting_writesOnly
  | sink => cases h; exact Rule.sink_writesOnly c
  | select => cases h; exact Rule.select_writesOnly c
  | formula => cases h; exact Rule.formula_writesOnly c
  | summarize => cases h; exact Rule.summarize_writesOnly c
  | patternExtract => cases h; exact Rule.patternExtract_writesOnly c
  | remoteFetch => cases h; exact Rule.remoteFetch_writesOnly c
  | union => cases h; exact Rule.union_writesOnly c
  | join => cases h; exact Rule.join_writesOnly c
  | textInput => cases h; exact .of_single rfl
  | autoField => cases h; exact Rule.autoField_writesOnly c

end Flowscript
