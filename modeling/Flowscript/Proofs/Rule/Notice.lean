import Flowscript.Conversion
import Flowscript.Proofs.Rule.Local

/-!
# Notices in the script

Of the notices about a node, those about what is not supported stand in the script (`Script.notices`). The
rules of the catalog only warn (`Rules.standard_warns`) and leave no such notice; a template or an unknown
kind leaves at most one, made of the names in the node (`Converter.notices_fragmentOf`).
-/

namespace Flowscript

/-- The rule warns about the structure of the workflow, and says nothing else. -/
def Rule.Warns (r : Rule) : Prop :=
  ∀ c, ∀ d ∈ (r c).diagnostics, d.category = .structural

namespace Script

/-- Warnings are not put into the script as notices. -/
lemma notices_eq_nil {f : Fragment} (h : ∀ d ∈ f.diagnostics, d.category = .structural) :
    notices f = [] := by
  have none : f.diagnostics.filter (·.category = .unsupported) = [] := by
    apply List.filter_eq_nil_iff.2
    intro d hd
    rw [h d hd]
    decide
  rw [notices, none, List.map_nil]

/-- A warning about the input is not in the script. -/
lemma notices_withInputWarning {f : Fragment} {warning : Option Diagnostic}
    (h : ∀ d ∈ warning, d.category = .structural) :
    notices (f.withInputWarning warning) = notices f := by
  cases warning with
  | none => rfl
  | some d =>
    rw [Fragment.withInputWarning]
    split
    · rfl
    · have other : ¬ d.category = .unsupported := by
        rw [h d rfl]
        decide
      simp only [notices, List.filter_cons, other, decide_false, Bool.false_eq_true, if_false]

end Script

namespace Rule

variable {c : Context}

/-- No notices are all warnings. -/
lemma warns_nil {d : Diagnostic} (hd : d ∈ ([] : List Diagnostic)) : d.category = .structural :=
  nomatch hd

/-- A predecessor without output is a reason for a warning only. -/
lemma warns_unboundInput {predecessors : List String} {d : Diagnostic}
    (hd : d ∈ predecessors.map c.unboundInput) : d.category = .structural := by
  obtain ⟨p, -, rfl⟩ := List.mem_map.1 hd
  rfl

/-- A single warning is a warning. -/
lemma warns_warning {code : Code} {message : String} {d : Diagnostic}
    (hd : d ∈ [c.warning code message]) : d.category = .structural := by
  rw [List.mem_singleton.1 hd]
  rfl

/-- A rule that needs a setting warns if it is missing. -/
lemma setting_warns {setting : Option String} {statements : String → List String} {what : String}
    {d : Diagnostic}
    (hd : d ∈ Fragment.diagnostics
      (match setting with
      | some s => .bound c.output (statements s)
      | none => .declined [c.missing what])) : d.category = .structural := by
  cases setting with
  | none => exact warns_warning hd
  | some s => exact warns_nil hd

/-- A union warns of predecessors without output. -/
lemma union_warns : union.Warns := by
  intro c d hd
  simp only [union] at hd
  split at hd
  · rcases List.mem_append.1 hd with hd | hd
    · exact warns_unboundInput hd
    · exact warns_warning hd
  · exact warns_unboundInput hd

/-- A join warns of missing edges, keys and outputs. -/
lemma join_warns : join.Warns := by
  intro c d hd
  unfold join at hd
  split at hd
  · split at hd
    · unfold joinFrames at hd
      split at hd
      · exact warns_nil hd
      · exact warns_unboundInput hd
    · exact warns_warning hd
  · exact warns_warning hd

/-- A template leaves its name if it is not known, and nothing else. -/
lemma template_notices {name message : String}
    (hm : message ∈ Script.notices (template name c)) : message = "Unsupported macro: " ++ name := by
  cases h : Template.lookup name with
  | none =>
    simp only [template, h] at hm
    exact List.mem_singleton.1 hm
  | some t =>
    cases t with
    | greatArcs =>
      simp only [template, h, greatArcs] at hm
      split at hm
      · cases hm
      · cases hm

end Rule

/-- The rules of the catalog only warn. -/
lemma Rules.standard_warns {kind : Kind} {r : Rule} (h : standard kind = some r) : r.Warns := by
  intro c d hd
  cases kind with
  | union => cases h; exact Rule.union_warns c d hd
  | join => cases h; exact Rule.join_warns c d hd
  | unknown => cases h
  | source | filter | sort | unique =>
    cases h
    exact Rule.setting_warns hd
  | _ => cases h; exact Rule.warns_nil hd

namespace Converter

variable {c : Converter} {n : Node}

/-- With the rules of the catalog, a notice in the script names a template, or it names the id and the
plugin of a node. -/
lemma notices_fragmentOf (std : c.rules = Rules.standard) {b : Bindings} {message : String}
    (hm : message ∈ Script.notices (c.fragmentOf b n)) :
    (∃ name, n.template = some name ∧ message = "Unsupported macro: " ++ name) ∨
      message = "Unsupported node type for tool " ++ n.id ++ " (" ++ n.plugin ++ ")" := by
  have structural : ∀ d ∈ (b.inputOf n.id).2, d.category = .structural := by
    intro d hd
    unfold Bindings.inputOf at hd
    split at hd
    · cases hd
    · cases hd
    · cases hd
      rfl
  rw [fragmentOf, Script.notices_withInputWarning structural, ruleFor] at hm
  cases template : n.template with
  | some name =>
    rw [template] at hm
    exact .inl ⟨name, rfl, Rule.template_notices hm⟩
  | none =>
    simp only [template, std] at hm
    cases rule : Rules.standard (c.classifier.classify n.plugin) with
    | some r =>
      rw [rule, Option.getD_some, Script.notices_eq_nil (Rules.standard_warns rule _)] at hm
      cases hm
    | none =>
      rw [rule, Option.getD_none] at hm
      exact .inr (List.mem_singleton.1 hm)

end Converter

end Flowscript
