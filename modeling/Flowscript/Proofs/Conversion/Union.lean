import Flowscript.Proofs.Conversion.Input
import Flowscript.Proofs.Conversion.Locality
import Flowscript.Proofs.Rule.Combine

/-!
# Unions of a conversion

A union takes the frames that its predecessors are bound to in the end, one for each edge, and warns about
each predecessor that has none (`union_stacks_bound_inputs`). The warning about the input of a node is not
added to those of a union (`union_withInputWarning`).
-/

namespace Flowscript.Converter

variable {c : Converter} {w : Workflow} {budget : Budget} {v : Visit}

/-- A union warns about its inputs itself, also if there is only one. -/
lemma union_withInputWarning (c : Converter) (b : Bindings) (n : Node) :
    (Rule.union (c.contextOf b n)).withInputWarning (b.inputOf n.id).2 =
      Rule.union (c.contextOf b n) := by
  by_cases one : (b.incoming n.id).length = 1
  · obtain ⟨p, hp⟩ := List.length_eq_one_iff.1 one
    cases h : b.frame? p with
    | some frame =>
      rw [Bindings.inputOf_bound hp h]
      rfl
    | none =>
      -- The union has counted the unbound input, so the warning is not put in front.
      obtain ⟨d, hd, -⟩ := Bindings.inputOf_unbound hp h
      have count := Rule.union_unboundInputs (c.contextOf b n)
      have unbound : (b.incoming n.id).countP (fun p => (b.frame? p).isNone) = 1 := by
        rw [hp, List.countP_singleton, h]
        rfl
      have pos : 0 < (Rule.union (c.contextOf b n)).unboundInputs :=
        Nat.lt_of_lt_of_eq Nat.one_pos (count.trans unbound).symm
      rw [hd, Fragment.withInputWarning, if_pos (List.any_eq_true.2 (List.countP_pos_iff.1 pos))]
  · rw [Bindings.inputOf_own one]
    rfl

/-- A union leaves what it makes of the final bindings. -/
lemma union_fragment (hv : v ∈ (c.translate w budget).2.visits)
    (fol : c.Follows v.context.node .union Rule.union) :
    v.fragment = Rule.union (c.contextOf (c.final w budget) v.context.node) := by
  rw [fragment_final hv (fol.ruleFor_eq ▸ Rule.union_local), fragmentOf, fol.ruleFor_eq]
  exact union_withInputWarning c (c.final w budget) v.context.node

/-- The frames that predecessors are bound to in the end, in their order. -/
def boundFrames (c : Converter) (w : Workflow) (budget : Budget) (id : String) : List String :=
  ((w.edges.filter (·.dest = id)).map Edge.origin).filterMap (c.convert w budget).frame?

/-- The predecessors that are not bound in the end, in their order. -/
def unboundOrigins (c : Converter) (w : Workflow) (budget : Budget) (id : String) : List String :=
  ((w.edges.filter (·.dest = id)).map Edge.origin).filter
    fun p => ((c.convert w budget).frame? p).isNone

/-- A union with at least two frames among those of its predecessors, one for each edge, is bound, and
its only statement puts these frames one after the other, in the order of the edges; with fewer it leaves
nothing, is not bound, and has one warning about their number. Either way it warns once about each edge
from a predecessor without a frame, in the order of the edges, and says nothing else. -/
theorem union_stacks_bound_inputs (c : Converter) (w : Workflow) (budget : Budget) :
    (c.translate w budget).2.visits.map Visit.id = (c.convert w budget).schedule.order ∧
    ∀ v ∈ (c.translate w budget).2.visits, c.Follows v.context.node .union Rule.union →
      w.node? v.id = some v.context.node ∧
      (2 ≤ (c.boundFrames w budget v.id).length →
        (c.convert w budget).frame? v.id = some (c.options.stem ++ v.id) ∧
        v.fragment.statements = [c.options.stem ++ v.id ++ " = pd.concat([" ++
          String.intercalate ", " (c.boundFrames w budget v.id) ++ "], ignore_index=True)"] ∧
        v.fragment.diagnostics = (c.unboundOrigins w budget v.id).map v.context.unboundInput) ∧
      ((c.boundFrames w budget v.id).length < 2 →
        (c.convert w budget).frame? v.id = none ∧
        v.fragment.statements = [] ∧
        ∃ d, d.code.text = "W0201" ∧ v.fragment.diagnostics =
          (c.unboundOrigins w budget v.id).map v.context.unboundInput ++ [d]) ∧
      ∀ p, (v.context.unboundInput p).code.text = "W0202" ∧
        (v.context.unboundInput p).message = v.context.node.plugin ++ " node " ++ v.id ++
          " reads from node " ++ p ++ ", which produced no output" := by
  refine ⟨by rw [visits_translate, schedule_convert], fun v hv fol => ⟨node_visit hv, ?_⟩⟩
  have frame := frame?_convert_visit hv
  have frames : ((c.final w budget).incoming v.id).filterMap (c.final w budget).frame? =
      c.boundFrames w budget v.id := by
    rw [(sound_final c w budget).incoming, frame?_final_eq]
    rfl
  have unbound : ((c.final w budget).incoming v.id).filter
      (fun p => ((c.final w budget).frame? p).isNone) = c.unboundOrigins w budget v.id := by
    rw [(sound_final c w budget).incoming, frame?_final_eq]
    rfl
  have output := frameName_final c w budget v.id
  rw [union_fragment hv fol] at frame ⊢
  refine ⟨fun two => ?_, fun lt => ?_, fun p => ⟨rfl, rfl⟩⟩
  · have union := Rule.union_of_two_le (c := c.contextOf (c.final w budget) v.context.node) frames two
    rw [union] at frame ⊢
    rw [← output, ← unbound]
    exact ⟨frame, rfl, rfl⟩
  · obtain ⟨d, code, union⟩ :=
      Rule.union_of_lt_two (c := c.contextOf (c.final w budget) v.context.node) frames lt
    rw [union] at frame ⊢
    rw [← unbound]
    exact ⟨frame, rfl, d, congrArg Code.text code, rfl⟩

/-- A table, a source without a file, and a union with two edges from the table. -/
def doubled : Workflow where
  nodes := [{ id := "t", plugin := "TextInput" }, { id := "s", plugin := "DbFileInput" },
    { id := "u", plugin := "Union" }]
  edges := [{ origin := "t", dest := "u" }, { origin := "s", dest := "u" },
    { origin := "t", dest := "u" }]

/-- The table goes in twice, and there is one warning, about the source. -/
theorem union_stacks_bound_inputs_doubled :
    boundFrames {} doubled .unlimited "u" = ["df_tool_t", "df_tool_t"] ∧
    ∃ v ∈ (translate {} doubled .unlimited).2.visits, v.id = "u" ∧
      v.fragment.statements =
        ["df_tool_u = pd.concat([df_tool_t, df_tool_t], ignore_index=True)"] ∧
      v.fragment.diagnostics.map (·.code.text) = ["W0202"] := by
  obtain ⟨-, unions⟩ := union_stacks_bound_inputs {} doubled .unlimited
  have frames : boundFrames {} doubled .unlimited "u" = ["df_tool_t", "df_tool_t"] := by
    decide +kernel
  have unbound : unboundOrigins {} doubled .unlimited "u" = ["s"] := by decide +kernel
  have visited : ∃ v ∈ (translate {} doubled .unlimited).2.visits, v.id = "u" ∧
      v.context.node.template = none ∧ Classifier.classify {} v.context.node.plugin = .union := by
    decide +kernel
  obtain ⟨v, hv, id, template, kind⟩ := visited
  obtain ⟨-, stacked, -, -⟩ := unions v hv ⟨template, kind, rfl⟩
  rw [id, frames, unbound] at stacked
  obtain ⟨-, statements, diagnostics⟩ := stacked (Nat.le_refl 2)
  refine ⟨frames, v, hv, id, ?_, ?_⟩
  · rw [statements]
    decide
  · rw [diagnostics]
    rfl

end Flowscript.Converter
