import Flowscript.Proofs.Bindings
import Flowscript.Rule.Catalog

/-!
# What the rules read

A rule is local if it reads no more of the bindings than the edges into its node and the frames of
their origins. The rules of the catalog are local (`Rules.standard_local`), and so are those for
templates and for unknown kinds: most of them do not read the bindings at all, and those that combine
inputs look at nothing else.

`Fragment.unboundInputs` counts the warnings about inputs without a frame. Only the rules that combine
inputs give any (`Rules.standard_quiet`), and on a node with a single input no rule of the catalog
gives more than the one that is due (`Rules.standard_unboundInputs_le`).
-/

namespace Flowscript

/-- Bindings that look the same from the node with this id. -/
structure Bindings.AgreeAt (id : String) (b b' : Bindings) : Prop where
  stem : b.stem = b'.stem
  incoming : b.incoming id = b'.incoming id
  edges : b.incomingEdges id = b'.incomingEdges id
  frame? : ∀ p ∈ b.incoming id, b.frame? p = b'.frame? p
  frames : ∀ e ∈ b.incomingEdges id, b.frame? e.origin = b'.frame? e.origin

/-- Bindings from two workflows with the same edges into a node look the same from it if they have the
same frames for the origins of these edges. -/
lemma Bindings.Sound.agreeAt {w w' : Workflow} {stem id : String} {b b' : Bindings}
    (snd : b.Sound w stem) (snd' : b'.Sound w' stem)
    (edges : w.edges.filter (·.dest = id) = w'.edges.filter (·.dest = id))
    (frames : ∀ e ∈ w.edges, e.dest = id → b.frame? e.origin = b'.frame? e.origin) :
    b.AgreeAt id b' where
  stem := snd.stem_eq.trans snd'.stem_eq.symm
  incoming := by rw [snd.incoming, snd'.incoming, edges]
  edges := by rw [snd.incomingEdges, snd'.incomingEdges, edges]
  frame? := by
    intro p hp
    rw [snd.incoming] at hp
    obtain ⟨e, he, rfl⟩ := List.mem_map.1 hp
    obtain ⟨he, hd⟩ := List.mem_filter.1 he
    exact frames e he (of_decide_eq_true hd)
  frames := by
    intro e he
    rw [snd.incomingEdges] at he
    obtain ⟨he, hd⟩ := List.mem_filter.1 he
    exact frames e he (of_decide_eq_true hd)

/-- The rule reads no more of the bindings than the node itself can see. -/
def Rule.Local (r : Rule) : Prop :=
  ∀ {c : Context} {b : Bindings}, c.bindings.AgreeAt c.node.id b → r { c with bindings := b } = r c

namespace Rule

/-- A union asks for its predecessors and their frames only. -/
lemma union_local : union.Local := by
  intro c b agr
  have frames : (c.bindings.incoming c.node.id).filterMap b.frame? =
      (c.bindings.incoming c.node.id).filterMap c.bindings.frame? :=
    List.filterMap_congr fun p hp => (agr.frame? p hp).symm
  have unbound : (c.bindings.incoming c.node.id).filter (fun p => (b.frame? p).isNone) =
      (c.bindings.incoming c.node.id).filter fun p => (c.bindings.frame? p).isNone :=
    List.filter_congr fun p hp => by rw [agr.frame? p hp]
  simp only [union, ← agr.incoming, frames, unbound]
  rfl

/-- The sides of a join are the origins of its two edges. -/
lemma joinSides_mem (first second : Edge) :
    ((joinSides first second).1 = first.origin ∨ (joinSides first second).1 = second.origin) ∧
    ((joinSides first second).2 = first.origin ∨ (joinSides first second).2 = second.origin) := by
  have anchored : ∀ {side p : String}, anchored? first second side = some p →
      p = first.origin ∨ p = second.origin := by
    intro side p h
    obtain ⟨e, he, rfl⟩ := Option.map_eq_some_iff.1 h
    have hm := List.mem_of_find?_eq_some he
    simp only [List.mem_cons, List.not_mem_nil, or_false] at hm
    rcases hm with rfl | rfl
    · exact .inl rfl
    · exact .inr rfl
  unfold joinSides
  split
  · next left right => exact ⟨anchored left, anchored right⟩
  · exact ⟨.inl rfl, .inr rfl⟩

/-- A join of frames reads the frames of its two sides. -/
lemma joinFrames_congr {c : Context} {b : Bindings} {sides : String × String}
    (left : b.frame? sides.1 = c.bindings.frame? sides.1)
    (right : b.frame? sides.2 = c.bindings.frame? sides.2) (leftField rightField : String) :
    joinFrames { c with bindings := b } sides leftField rightField =
      joinFrames c sides leftField rightField := by
  have unbound : [sides.1, sides.2].filter (fun p => (b.frame? p).isNone) =
      [sides.1, sides.2].filter fun p => (c.bindings.frame? p).isNone := by
    simp only [List.filter_cons, List.filter_nil, left, right]
  simp only [joinFrames, left, right, unbound]
  rfl

/-- A join asks for the edges into its node and the frames of their origins only. -/
lemma join_local : join.Local := by
  intro c b agr
  have config : ({ c with bindings := b } : Context).config = c.config := rfl
  simp only [join, ← agr.edges, config]
  split
  · next first second h =>
    have frame : ∀ {p : String}, p = first.origin ∨ p = second.origin →
        b.frame? p = c.bindings.frame? p := by
      rintro p (rfl | rfl)
      · exact (agr.frames first (by simp [h])).symm
      · exact (agr.frames second (by simp [h])).symm
    obtain ⟨left, right⟩ := joinSides_mem first second
    split
    · exact joinFrames_congr (frame left) (frame right) _ _
    · rfl
  · rfl

/-- Templates are expanded from the settings alone. -/
lemma template_local (name : String) : (template name).Local := by
  intro c b _
  cases h : Template.lookup name with
  | none =>
    simp only [template, h]
    rfl
  | some t =>
    cases t with
    | greatArcs =>
      simp only [template, h]
      rfl

end Rule

/-- The rules of the catalog are local. -/
lemma Rules.standard_local {kind : Kind} {r : Rule} (h : standard kind = some r) : r.Local := by
  cases kind with
  | union => cases h; exact Rule.union_local
  | join => cases h; exact Rule.join_local
  | unknown => cases h
  | _ => cases h; exact fun _ => rfl

/-! ## Warnings about inputs -/

/-- The number of warnings about inputs without a frame. -/
def Fragment.unboundInputs (f : Fragment) : Nat :=
  f.diagnostics.countP (·.code = .unboundInput)

namespace Rule

/-- The rule gives no warnings about inputs. -/
def Quiet (r : Rule) : Prop :=
  ∀ c, (r c).unboundInputs = 0

/-- What a template has to say is about its mappings or its name, and not about inputs. -/
lemma template_quiet (name : String) : (template name).Quiet := by
  intro c
  cases h : Template.lookup name with
  | none =>
    simp only [template, h]
    rfl
  | some t =>
    cases t with
    | greatArcs =>
      simp only [template, h, greatArcs]
      split <;> rfl

/-- A union warns once about each predecessor without a frame. -/
lemma union_unboundInputs (c : Context) :
    (union c).unboundInputs =
      (c.bindings.incoming c.node.id).countP fun p => (c.bindings.frame? p).isNone := by
  have warnings : ∀ ps : List String,
      (ps.map c.unboundInput).countP (fun d => d.code = .unboundInput) = ps.length := by
    intro ps
    rw [List.countP_map, List.countP_eq_length]
    exact fun _ _ => rfl
  have unbound : (((c.bindings.incoming c.node.id).filter fun p =>
      (c.bindings.frame? p).isNone).map c.unboundInput).countP (fun d => d.code = .unboundInput) =
      (c.bindings.incoming c.node.id).countP fun p => (c.bindings.frame? p).isNone := by
    rw [warnings, List.countP_eq_length_filter]
  unfold union
  simp only [Fragment.unboundInputs]
  split
  · rw [Fragment.declined, List.countP_append, unbound]
    rfl
  · exact unbound

/-- A join with a single input has nothing to say about it. -/
lemma join_unboundInputs {c : Context} {e : Edge}
    (one : c.bindings.incomingEdges c.node.id = [e]) : (join c).unboundInputs = 0 := by
  simp only [join, one]
  rfl

end Rule

/-- Of the rules of the catalog, only those that combine inputs warn about them. -/
lemma Rules.standard_quiet {kind : Kind} {r : Rule} (h : standard kind = some r)
    (hu : kind ≠ .union) (hj : kind ≠ .join) : r.Quiet := by
  intro c
  cases kind with
  | union => exact absurd rfl hu
  | join => exact absurd rfl hj
  | unknown => cases h
  | source => cases h; unfold Rule.source; split <;> rfl
  | filter => cases h; unfold Rule.filter; split <;> rfl
  | sort => cases h; unfold Rule.sort; split <;> rfl
  | unique => cases h; unfold Rule.unique; split <;> rfl
  | _ => cases h; rfl

/-- On a node with a single input, a rule of the catalog gives at most the one warning that is due. -/
lemma Rules.standard_unboundInputs_le {kind : Kind} {r : Rule} {c : Context} {e : Edge}
    (h : standard kind = some r) (edge : c.bindings.incomingEdges c.node.id = [e])
    (one : c.bindings.incoming c.node.id = [e.origin]) :
    (r c).unboundInputs ≤ if (c.bindings.frame? e.origin).isSome then 0 else 1 := by
  by_cases hu : kind = .union
  · subst hu
    cases h
    rw [Rule.union_unboundInputs, one, List.countP_singleton]
    cases c.bindings.frame? e.origin with
    | none => exact Nat.le_refl 1
    | some frame => exact Nat.le_refl 0
  · have zero : (r c).unboundInputs = 0 := by
      by_cases hj : kind = .join
      · subst hj
        cases h
        exact Rule.join_unboundInputs edge
      · exact standard_quiet h hu hj c
    rw [zero]
    exact Nat.zero_le _

end Flowscript
