import Flowscript.Proofs.Bindings
import Flowscript.Proofs.Conversion.Translation

/-!
# Inputs

The frame that a node reads from, told by the bindings in the end (`input_resolved`): a node with a
single edge into it reads from the frame of the origin, or from the frame that the origin would have
had, and in that case there is exactly one warning. All other nodes are given their own frame.
-/

namespace Flowscript

namespace Bindings

variable {b : Bindings} {id p : String}

/-- A node with a single predecessor reads from its frame. -/
lemma inputOf_bound {frame : String} (one : b.incoming id = [p]) (h : b.frame? p = some frame) :
    b.inputOf id = (frame, none) := by
  simp [inputOf, singleInput, one, h]

/-- If the predecessor has no frame, the node reads from the name of one, and there is a warning. -/
lemma inputOf_unbound (one : b.incoming id = [p]) (h : b.frame? p = none) :
    ∃ d, b.inputOf id = (b.frameName p, some d) ∧ d.code = .unboundInput := by
  simp [inputOf, singleInput, one, h]

/-- The frame that a node with a single predecessor reads from. -/
lemma inputOf_single (one : b.incoming id = [p]) :
    (b.inputOf id).1 = (b.frame? p).getD (b.frameName p) := by
  cases h : b.frame? p with
  | some frame => rw [inputOf_bound one h]; rfl
  | none =>
    obtain ⟨d, eq, _⟩ := inputOf_unbound one h
    rw [eq]
    rfl

/-- Without predecessors, or with several, a node is given its own frame. -/
lemma inputOf_own (ne : (b.incoming id).length ≠ 1) : b.inputOf id = (b.frameName id, none) := by
  have none : b.singleInput id = .ok none := singleInput_eq_none.2 ne
  simp [inputOf, none]

end Bindings

/-- A warning in front does not add to warnings that are there. -/
lemma Fragment.unboundInputs_withInputWarning {f : Fragment} {d : Diagnostic}
    (hd : d.code = .unboundInput) (le : f.unboundInputs ≤ 1) :
    (f.withInputWarning (some d)).unboundInputs = 1 := by
  rw [Fragment.withInputWarning]
  split
  · next any =>
    have pos : 0 < f.unboundInputs := List.countP_pos_iff.2 (List.any_eq_true.1 any)
    omega
  · next any =>
    have zero : f.unboundInputs = 0 := by
      rw [Fragment.unboundInputs, List.countP_eq_zero]
      intro x hx h
      exact any (List.any_eq_true.2 ⟨x, hx, h⟩)
    rw [Fragment.unboundInputs] at zero ⊢
    rw [List.countP_cons, zero]
    simp [hd]

namespace Converter

variable {c : Converter} {b : Bindings} {n : Node} {e : Edge}

/-- With the rules of the catalog, a node with a single input has the warning that is due. -/
lemma fragmentOf_unboundInputs (std : c.rules = Rules.standard)
    (edge : b.incomingEdges n.id = [e]) (one : b.incoming n.id = [e.origin]) :
    (c.fragmentOf b n).unboundInputs = if (b.frame? e.origin).isSome then 0 else 1 := by
  have le : (c.ruleFor n (c.contextOf b n)).unboundInputs ≤
      if (b.frame? e.origin).isSome then 0 else 1 := by
    refine ruleFor_cases (motive := fun r => (r (c.contextOf b n)).unboundInputs ≤ _) std n ?_ ?_ ?_
    · intro name
      rw [Rule.template_quiet name]
      exact Nat.zero_le _
    · intro kind r h
      exact Rules.standard_unboundInputs_le h edge one
    · exact Nat.zero_le _
  unfold fragmentOf
  cases h : b.frame? e.origin with
  | some frame =>
    rw [h] at le
    rw [Bindings.inputOf_bound one h]
    exact Nat.le_zero.1 le
  | none =>
    rw [h] at le
    obtain ⟨d, e, hd⟩ := Bindings.inputOf_unbound one h
    rw [e]
    exact Fragment.unboundInputs_withInputWarning hd le

/-- There is one visit for each id of the schedule, to the first node with the id. If it has exactly
one edge into it, the origin was visited before. The rule is given the frame that the origin is bound
to in the end, or else the name of the frame that it would have had; with the rules of the catalog,
there is one warning in the latter case and none in the former. Without edges into it, or with
several, the rule is given the frame of the node itself. -/
theorem input_resolved (c : Converter) (w : Workflow) (budget : Budget) :
    (c.translate w budget).2.visits.map Visit.id = (c.convert w budget).schedule.order ∧
    ∀ us v vs, (c.translate w budget).2.visits = us ++ v :: vs →
      w.node? v.id = some v.context.node ∧
      (∃ d, v.fragment = (c.ruleFor v.context.node v.context).withInputWarning d) ∧
      (∀ e, w.edges.filter (·.dest = v.id) = [e] →
        (∃ u ∈ us, u.id = e.origin) ∧
        v.context.input =
          ((c.convert w budget).frame? e.origin).getD (c.options.stem ++ e.origin) ∧
        (c.rules = Rules.standard →
          v.fragment.diagnostics.countP (·.code = .unboundInput) =
            if ((c.convert w budget).frame? e.origin).isSome then 0 else 1)) ∧
      ((w.edges.filter (·.dest = v.id)).length ≠ 1 → v.context.input = c.options.stem ++ v.id) := by
  refine ⟨by rw [visits_translate, schedule_convert], ?_⟩
  intro us v vs h
  rw [translate_eq] at h
  have decl : ∀ id ∈ (Schedule.ofWorkflow w budget).order, id ∈ w.ids :=
    fun _ hm => Schedule.mem_ids_of_mem_order hm
  obtain ⟨xs, n, ys, order, hn, rfl, rfl⟩ := visits_after_eq decl h
  have snd := sound_after c w xs
  refine ⟨hn, ⟨_, rfl⟩, ?_, ?_⟩
  · intro e one
    have edge : (c.after w xs).bindings.incomingEdges n.id = [e] := (snd.incomingEdges n.id).trans one
    have one' : (c.after w xs).bindings.incoming n.id = [e.origin] := by rw [snd.incoming_eq, edge]; rfl
    -- The frame that the visit finds for the origin is the one that stands in the end.
    have frame : (c.convert w budget).frame? e.origin =
        (c.after w xs).bindings.frame? e.origin := by
      rw [frame?_convert]
      exact ((agreeAt_final order).frames e (edge ▸ List.mem_cons_self)).symm
    have he : e ∈ w.edges ∧ e.dest = n.id := by
      have hm : e ∈ w.edges.filter (·.dest = n.id) := one ▸ List.mem_cons_self
      simpa using hm
    have before : e.origin ∈ xs := (Schedule.ready_of_order_eq order).2 e he.1 he.2
    refine ⟨?_, ?_, ?_⟩
    · rw [← visits_after fun id hm => decl id (order ▸ List.mem_append_left _ hm)] at before
      exact List.mem_map.1 before
    · rw [frame, ← snd.stem_eq]
      exact Bindings.inputOf_single one'
    · intro std
      rw [frame]
      exact fragmentOf_unboundInputs std edge one'
  · intro ne
    have many : ((c.after w xs).bindings.incoming n.id).length ≠ 1 := by
      rw [snd.incoming, List.length_map]
      exact ne
    rw [← snd.stem_eq]
    exact congrArg Prod.fst (Bindings.inputOf_own many)

/-- A source without a file, and a formula that reads from it. -/
def dangling : Workflow where
  nodes := [{ id := "f", plugin := "Formula" }, { id := "s", plugin := "DbFileInput" }]
  edges := [{ origin := "s", dest := "f" }]

/-- The formula reads from the frame that the source would have had, and there is one warning. -/
theorem input_resolved_dangling :
    ∃ u v, (translate {} dangling .unlimited).2.visits = [u, v] ∧ v.id = "f" ∧
      v.context.input = "df_tool_s" ∧
      v.fragment.diagnostics.countP (·.code = .unboundInput) = 1 := by
  obtain ⟨ids, visits⟩ := input_resolved {} dangling .unlimited
  have order : (convert {} dangling .unlimited).schedule.order = ["s", "f"] := by decide +kernel
  have unbound : (convert {} dangling .unlimited).frame? "s" = none := by decide +kernel
  rw [order, List.map_eq_cons_iff] at ids
  obtain ⟨u, _, split, -, rest⟩ := ids
  obtain ⟨v, _, rfl, hv, nil⟩ := List.map_eq_cons_iff.1 rest
  rw [List.map_eq_nil_iff.1 nil] at split
  obtain ⟨_, _, single, _⟩ := visits [u] v [] split
  obtain ⟨_, input, warnings⟩ := single { origin := "s", dest := "f" } (by rw [hv]; decide)
  rw [unbound] at input warnings
  exact ⟨u, v, split, hv, input, warnings rfl⟩

end Converter

end Flowscript
