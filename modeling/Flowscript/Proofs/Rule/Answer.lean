import Flowscript.Conversion
import Flowscript.Proofs.Rule.Local

/-!
# What the rules answer

A fragment answers for a node in one of two ways (`Fragment.Answers`): it has statements that leave the
output of the node in its frame, or it has neither statements nor an output, and warns. All its notices
are about the node, and none of them has a code that is kept for the run as a whole. The rules of the
catalog answer for every node (`Rules.standard_answers`), and so do those for templates and for unknown
kinds.
-/

namespace Flowscript

/-- The codes of notices about a run as a whole. -/
def Code.ofRun : List Code :=
  [.unprocessedNodes, .timeout]

/-- The notice is about this node, and not about the run as a whole. -/
structure Diagnostic.About (id : String) (d : Diagnostic) : Prop where
  nodeId : d.nodeId = some id
  code : d.code ∉ Code.ofRun

/-- The fragment binds the node to the frame, or it warns that it does not. -/
structure Fragment.Answers (id frame : String) (f : Fragment) : Prop where
  outcome : (f.output = some frame ∧ f.statements ≠ []) ∨
    (f.output = none ∧ f.statements = [] ∧ ∃ d ∈ f.diagnostics, d.category = .structural)
  about : ∀ d ∈ f.diagnostics, d.About id

/-- The rule answers for every node, by the frame that the node writes to. -/
def Rule.Answers (r : Rule) : Prop :=
  ∀ c, (r c).Answers c.node.id c.output

/-- A warning about the input changes nothing but the notices. -/
lemma Fragment.withInputWarning_eq (f : Fragment) (warning : Option Diagnostic) :
    ∃ diagnostics, f.withInputWarning warning = { f with diagnostics } := by
  cases warning with
  | none => exact ⟨f.diagnostics, rfl⟩
  | some d =>
    rw [withInputWarning]
    split
    · exact ⟨f.diagnostics, rfl⟩
    · exact ⟨d :: f.diagnostics, rfl⟩

namespace Fragment.Answers

variable {id frame : String} {f : Fragment}

/-- Statements with their output in the frame are an answer. -/
lemma bound {statements : List String} (ne : statements ≠ []) :
    (Fragment.bound frame statements).Answers id frame where
  outcome := .inl ⟨rfl, ne⟩
  about := by
    intro d hd
    cases hd

/-- Statements with a notice beside them. -/
lemma noticed {statements : List String} {d : Diagnostic} (ne : statements ≠ []) (hd : d.About id) :
    Answers id frame { statements, output := some frame, diagnostics := [d] } where
  outcome := .inl ⟨rfl, ne⟩
  about := by
    intro x hx
    rw [List.mem_singleton.1 hx]
    exact hd

/-- A warning about the node is an answer too, if there is no output and nothing about other nodes. -/
lemma declined {d : Diagnostic} {ds : List Diagnostic} (hd : d ∈ ds) (cat : d.category = .structural)
    (about : ∀ d ∈ ds, d.About id) : (Fragment.declined ds).Answers id frame where
  outcome := .inr ⟨rfl, rfl, d, hd, cat⟩
  about := about

/-- A warning about the input is one more notice about the node. -/
lemma withInputWarning (ans : f.Answers id frame) {warning : Option Diagnostic}
    (about : ∀ d ∈ warning, d.About id) : (f.withInputWarning warning).Answers id frame := by
  cases warning with
  | none => exact ans
  | some d =>
    rw [Fragment.withInputWarning]
    split
    · exact ans
    · refine ⟨?_, ?_⟩
      · rcases ans.outcome with bound | ⟨out, none, x, hx, cat⟩
        · exact .inl bound
        · exact .inr ⟨out, none, x, List.mem_cons_of_mem d hx, cat⟩
      · intro x hx
        rcases List.mem_cons.1 hx with rfl | hx
        · exact about _ rfl
        · exact ans.about x hx

end Fragment.Answers

namespace Rule

variable {c : Context}

/-- A rule that declines with a warning answers for its node. -/
lemma declined_warning {code : Code} (hc : code ∉ Code.ofRun) (message : String) :
    (Fragment.declined [c.warning code message]).Answers c.node.id c.output := by
  refine .declined List.mem_cons_self rfl ?_
  intro d hd
  rw [List.mem_singleton.1 hd]
  exact ⟨rfl, hc⟩

/-- A rule that needs a setting answers with statements made from it, or warns that it is missing. -/
lemma setting_answers {setting : Option String} {statements : String → List String} {what : String}
    (ne : ∀ s, statements s ≠ []) :
    Fragment.Answers c.node.id c.output
      (match setting with
      | some s => .bound c.output (statements s)
      | none => .declined [c.missing what]) := by
  cases setting with
  | none => exact declined_warning (by decide) _
  | some s => exact .bound (ne s)

/-- Warnings about predecessors are about the node that reads from them. -/
lemma unboundInput_about {predecessors : List String} {d : Diagnostic}
    (hd : d ∈ predecessors.map c.unboundInput) : d.About c.node.id := by
  obtain ⟨p, -, rfl⟩ := List.mem_map.1 hd
  exact ⟨rfl, show Code.unboundInput ∉ Code.ofRun by decide⟩

/-- A union without enough inputs warns about their number, whatever else it warns about. -/
lemma union_answers : union.Answers := by
  intro c
  simp only [union]
  split
  · refine .declined (List.mem_append_right _ List.mem_cons_self) rfl ?_
    intro d hd
    rcases List.mem_append.1 hd with hd | hd
    · exact unboundInput_about hd
    · rw [List.mem_singleton.1 hd]
      exact ⟨rfl, show Code.inputCardinality ∉ Code.ofRun by decide⟩
  · exact ⟨.inl ⟨rfl, List.cons_ne_nil _ _⟩, fun d => unboundInput_about⟩

/-- A join that misses a frame warns about the side that misses it. -/
lemma joinFrames_answers (sides : String × String) (leftField rightField : String) :
    (joinFrames c sides leftField rightField).Answers c.node.id c.output := by
  unfold joinFrames
  split
  · exact .bound (List.cons_ne_nil _ _)
  · next none =>
    have missing : ∃ p ∈ [sides.1, sides.2], c.bindings.frame? p = Option.none := by
      cases left : c.bindings.frame? sides.1 with
      | none => exact ⟨sides.1, List.mem_cons_self, left⟩
      | some l =>
        cases right : c.bindings.frame? sides.2 with
        | none => exact ⟨sides.2, List.mem_cons_of_mem _ List.mem_cons_self, right⟩
        | some r => exact absurd right (none l r left)
    obtain ⟨p, hp, unbound⟩ := missing
    have warned : p ∈ [sides.1, sides.2].filter fun p => (c.bindings.frame? p).isNone :=
      List.mem_filter.2 ⟨hp, Option.isNone_iff_eq_none.2 unbound⟩
    exact .declined (List.mem_map_of_mem warned) rfl fun d => unboundInput_about

/-- A join merges its inputs, or says what is missing. -/
lemma join_answers : join.Answers := by
  intro c
  unfold join
  split
  · split
    · exact joinFrames_answers _ _ _
    · exact declined_warning (by decide) _
  · exact declined_warning (by decide) _

/-- A template is expanded, or there is a notice next to a copy of the input. -/
lemma template_answers (name : String) : (template name).Answers := by
  intro c
  cases h : Template.lookup name with
  | none =>
    simp only [template, h]
    exact .noticed (List.cons_ne_nil _ _)
      ⟨rfl, show Code.unsupportedTemplate ∉ Code.ofRun by decide⟩
  | some t =>
    cases t with
    | greatArcs =>
      simp only [template, h, greatArcs]
      split
      · exact .bound (List.cons_ne_nil _ _)
      · exact .noticed (List.cons_ne_nil _ _)
          ⟨rfl, show Code.missingConfiguration ∉ Code.ofRun by decide⟩

/-- For an unsupported kind, there is an empty frame and a notice. -/
lemma unsupported_answers : unsupported.Answers := fun _ =>
  .noticed (List.cons_ne_nil _ _) ⟨rfl, show Code.unsupportedKind ∉ Code.ofRun by decide⟩

end Rule

/-- The rules of the catalog answer for every node. -/
lemma Rules.standard_answers {kind : Kind} {r : Rule} (h : standard kind = some r) : r.Answers := by
  intro c
  cases kind with
  | union => cases h; exact Rule.union_answers c
  | join => cases h; exact Rule.join_answers c
  | unknown => cases h
  | source | filter | sort | unique =>
    cases h
    exact Rule.setting_answers fun _ => List.cons_ne_nil _ _
  | _ => cases h; exact .bound (List.cons_ne_nil _ _)

end Flowscript
