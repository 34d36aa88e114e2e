import Flowscript.Proofs.Conversion.Account
import Flowscript.Proofs.Conversion.Input
import Flowscript.Proofs.Conversion.Locality
import Flowscript.Proofs.Rule.Combine

/-!
# Joins of a conversion

The rule for joins looks up frames on its own, so the fragment of a join is told by the bindings in the
end (`join_fragment`). A join merges the frames of both its edges or declines with a warning, and with an
anchor for each side the order of its edges does not matter (`join_merges_both_edges`). Its sides go by
the anchors unless only one edge has one and stands in the place of the other
(`anchors_kept_unless_displaced`).
-/

namespace Flowscript

/-- The workflows are the same but for two edges into a node, which have changed places. -/
structure Workflow.Exchanged (id : String) (first second : Edge) (w w' : Workflow) : Prop where
  nodes : w'.nodes = w.nodes
  two : w.edges.filter (·.dest = id) = [first, second]
  edges : ∃ xs ys zs, w.edges = xs ++ first :: ys ++ second :: zs ∧
    w'.edges = xs ++ second :: ys ++ first :: zs

namespace Workflow.Exchanged

variable {id : String} {first second e : Edge} {w w' : Workflow}

/-- An exchange of edges keeps the nodes. -/
lemma node? (exc : Exchanged id first second w w') (a : String) : w'.node? a = w.node? a := by
  rw [Workflow.node?, Workflow.node?, exc.nodes]

/-- The two edges are those that lead to the node. -/
lemma mem_iff (exc : Exchanged id first second w w') :
    e ∈ [first, second] ↔ e ∈ w.edges ∧ e.dest = id := by
  rw [← exc.two, List.mem_filter, decide_eq_true_eq]

/-- Both edges lead to the node. -/
lemma dest (exc : Exchanged id first second w w') : first.dest = id ∧ second.dest = id :=
  ⟨(exc.mem_iff.1 List.mem_cons_self).2,
    (exc.mem_iff.1 (List.mem_cons_of_mem _ List.mem_cons_self)).2⟩

/-- In the other workflow, the same two edges lead to the node, in the other order. -/
lemma two' (exc : Exchanged id first second w w') :
    w'.edges.filter (·.dest = id) = [second, first] := by
  obtain ⟨xs, ys, zs, edges, edges'⟩ := exc.edges
  have length := congrArg List.length exc.two
  simp only [edges, List.filter_append, List.filter_cons, exc.dest.1, exc.dest.2, decide_true,
    if_true, List.length_append, List.length_cons, List.length_nil] at length
  -- The two edges are all that goes into the node, so no other part of the list does.
  have none : ∀ l : List Edge, (l.filter (·.dest = id)).length = 0 → l.filter (·.dest = id) = [] :=
    fun _ => List.length_eq_zero_iff.1
  simp [edges', exc.dest.1, exc.dest.2, none xs (by omega), none ys (by omega), none zs (by omega)]

/-- Nothing changes for the nodes that do not lie behind. -/
lemma agreeOn (exc : Exchanged id first second w w') :
    AgreeOn {a | ¬ Relation.ReflTransGen w.Leads id a} w w' where
  closed := fun e he behind ch => behind (ch.tail ⟨e, he, rfl, rfl⟩)
  nodes := fun a _ => (exc.node? a).symm
  edges := by
    intro a behind
    obtain ⟨xs, ys, zs, edges, edges'⟩ := exc.edges
    have ne : id ≠ a := by
      rintro rfl
      exact behind .refl
    simp [edges, edges', exc.dest.1, exc.dest.2, ne]

end Workflow.Exchanged

namespace Converter

variable {c : Converter} {w : Workflow} {budget : Budget} {v : Visit} {n : Node}

/-- A join is made from what the node can see of the bindings in the end. -/
lemma join_fragment (hv : v ∈ (c.translate w budget).2.visits)
    (fol : c.Follows v.context.node .join Rule.join) :
    ∃ diagnostics, v.fragment =
      { Rule.join (c.contextOf (c.final w budget) v.context.node) with diagnostics } := by
  rw [fragment_final hv (fol.ruleFor_eq ▸ Rule.join_local), fragmentOf, fol.ruleFor_eq]
  exact Fragment.withInputWarning_eq _ _

/-- What a join asks of the final bindings, it asks of the edges of the workflow and the frames of the
conversion. -/
lemma joinable_final (c : Converter) (w : Workflow) (budget : Budget) (n : Node) :
    Rule.Joinable (c.contextOf (c.final w budget) n).config
      ((c.contextOf (c.final w budget) n).bindings.incomingEdges n.id)
      (c.contextOf (c.final w budget) n).bindings.frame? ↔
    Rule.Joinable (n.configuration.getD { name := "" }) (w.edges.filter (·.dest = n.id))
      (c.convert w budget).frame? := by
  rw [← (sound_final c w budget).incomingEdges, ← frame?_final_eq]
  rfl

/-- A join that can be made merges the frames that the origins of its edges have in the end. -/
lemma merge_visit (hv : v ∈ (c.translate w budget).2.visits)
    (fol : c.Follows v.context.node .join Rule.join)
    (jn : Rule.Joinable v.context.config (w.edges.filter (·.dest = v.id))
      (c.convert w budget).frame?) :
    ∃ first second left right leftKey rightKey,
      w.edges.filter (·.dest = v.id) = [first, second] ∧
      (c.convert w budget).frame? (Rule.sides first second).1.origin = some left ∧
      (c.convert w budget).frame? (Rule.sides first second).2.origin = some right ∧
      Rule.HasKey v.context.config "Left" leftKey ∧
      Rule.HasKey v.context.config "Right" rightKey ∧
      v.fragment.statements = [Rule.merge (c.options.stem ++ v.id) left right leftKey rightKey] ∧
      v.fragment.output = some (c.options.stem ++ v.id) := by
  obtain ⟨diagnostics, fragment⟩ := join_fragment hv fol
  obtain ⟨first, second, left, right, leftKey, rightKey, edges, hl, hr, kl, kr, join⟩ :=
    Rule.join_of_joinable ((joinable_final c w budget v.context.node).2 jn)
  have output : (c.contextOf (c.final w budget) v.context.node).output = c.options.stem ++ v.id :=
    frameName_final c w budget v.id
  rw [output] at join
  refine ⟨first, second, left, right, leftKey, rightKey, ?_, ?_, ?_, kl, kr, ?_, ?_⟩
  · rw [← (sound_final c w budget).incomingEdges]
    exact edges
  · rw [← frame?_final_eq]
    exact hl
  · rw [← frame?_final_eq]
    exact hr
  · rw [fragment, join]
    rfl
  · rw [fragment, join]
    rfl

/-- A join that cannot be made leaves no statement and no frame, and warns. -/
lemma declined_visit (hv : v ∈ (c.translate w budget).2.visits)
    (fol : c.Follows v.context.node .join Rule.join)
    (h : ¬ Rule.Joinable v.context.config (w.edges.filter (·.dest = v.id))
      (c.convert w budget).frame?) :
    v.fragment.statements = [] ∧ v.fragment.output = none ∧
      ∃ d ∈ v.fragment.diagnostics, d.category = .structural ∧ d.nodeId = some v.id := by
  obtain ⟨diagnostics, fragment⟩ := join_fragment hv fol
  obtain ⟨_, join⟩ := Rule.join_of_not_joinable ((joinable_final c w budget v.context.node).not.2 h)
  have none : v.fragment.output = none := by
    rw [fragment, join]
    rfl
  have answers : v.fragment.Answers v.id ((c.final w budget).frameName v.id) := by
    rw [fragment_final hv (fol.ruleFor_eq ▸ Rule.join_local)]
    exact fragmentOf_answers (fol.ruleFor_eq ▸ Rule.join_answers) _
  rcases answers.outcome with ⟨out, _⟩ | ⟨_, empty, d, hd, cat⟩
  · rw [none] at out
    cases out
  · exact ⟨empty, none, d, hd, cat, (answers.about d hd).nodeId⟩

/-- A node with two edges into it is given its own frame, and its rule has the last word. -/
lemma fragmentOf_of_two {b : Bindings} {first second : Edge} (ix : b.Indexes w)
    (two : b.incomingEdges n.id = [first, second]) :
    c.fragmentOf b n = c.ruleFor n (c.contextOf b n) ∧
      c.contextOf b n = ⟨n, b, c.options, b.frameName n.id, b.frameName n.id⟩ := by
  have ne : (b.incoming n.id).length ≠ 1 := by
    rw [ix.incoming_eq, two]
    exact Nat.succ_ne_self 1
  rw [fragmentOf, contextOf, Bindings.inputOf_own ne]
  exact ⟨rfl, rfl⟩

/-- Two workflows that look the same except behind a visited node: its inputs are visited in both, and
have the same frames in the end. -/
lemma inputs_agree {w₁ w₂ : Workflow} {b₁ b₂ : Budget} {id : String} {e : Edge}
    (std : c.rules = Rules.standard)
    (agr : Workflow.AgreeOn {a | ¬ Relation.ReflTransGen w₁.Leads id a} w₁ w₂)
    (full : (Schedule.ofWorkflow w₂ b₂).timedOut = false)
    (ho : id ∈ (Schedule.ofWorkflow w₁ b₁).order) (he : e ∈ w₁.edges) (hd : e.dest = id) :
    e.origin ∈ (Schedule.ofWorkflow w₂ b₂).order ∧
      (c.final w₂ b₂).frame? e.origin = (c.final w₁ b₁).frame? e.origin := by
  have leads : w₁.Leads e.origin id := ⟨e, he, rfl, hd⟩
  -- An origin behind the node would put the node on a cycle, and then it is never visited.
  have before : ¬ Relation.ReflTransGen w₁.Leads id e.origin := by
    intro ch
    exact Schedule.not_mem_order_of_blocks (.inr (.tail' ch leads)) .refl ho
  have visited := (Schedule.precedes leads ho).1
  exact ⟨agr.mem_order full before visited, (frame?_final_congr std agr full before visited).symm⟩

/-- With an anchor for each side, a join comes out the same if its edges are exchanged. -/
lemma exchange_visit {w' : Workflow} {full : Budget} {first second : Edge}
    (std : c.rules = Rules.standard) (hv : v ∈ (c.translate w budget).2.visits)
    (fol : c.Follows v.context.node .join Rule.join)
    (exc : Workflow.Exchanged v.id first second w w')
    (anchors : first.destAnchor = some "Left" ∧ second.destAnchor = some "Right" ∨
      first.destAnchor = some "Right" ∧ second.destAnchor = some "Left")
    (stop : (Schedule.ofWorkflow w' full).timedOut = false) :
    ∃ u ∈ (c.translate w' full).2.visits, u.id = v.id ∧ u.fragment = v.fragment := by
  have ho : v.id ∈ (Schedule.ofWorkflow w budget).order :=
    visits_translate c w budget ▸ List.mem_map_of_mem hv
  have inputs : ∀ e ∈ [first, second], e.origin ∈ (Schedule.ofWorkflow w' full).order ∧
      (c.final w' full).frame? e.origin = (c.final w budget).frame? e.origin := by
    intro e he
    obtain ⟨mem, dest⟩ := exc.mem_iff.1 he
    exact inputs_agree std exc.agreeOn stop ho mem dest
  -- All inputs are visited in the other run, so the node is ready there too.
  have ho' : v.id ∈ (Schedule.ofWorkflow w' full).order := by
    refine Schedule.mem_order_of_ready stop ⟨?_, ?_⟩
    · rw [Workflow.ids, exc.nodes]
      exact Schedule.mem_ids_of_mem_order ho
    · intro e he hd
      have mem : e ∈ w'.edges.filter (·.dest = v.id) := List.mem_filter.2 ⟨he, decide_eq_true hd⟩
      rw [exc.two'] at mem
      exact (inputs e ((List.Perm.swap first second []).mem_iff.1 mem)).1
  obtain ⟨u, hu, id⟩ : ∃ u ∈ (c.translate w' full).2.visits, u.id = v.id := by
    rw [← visits_translate c] at ho'
    exact List.mem_map.1 ho'
  have node : u.context.node = v.context.node := by
    have found := node_visit hu
    rw [id, exc.node?, node_visit hv] at found
    exact (Option.some.inj found).symm
  have ix := (sound_final c w budget).toIndexes
  have ix' := (sound_final c w' full).toIndexes
  have edges := (ix.incomingEdges v.id).trans exc.two
  have edges' := (ix'.incomingEdges v.id).trans exc.two'
  have isLocal : (c.ruleFor v.context.node).Local := fol.ruleFor_eq ▸ Rule.join_local
  obtain ⟨fragment, context⟩ := fragmentOf_of_two (c := c) ix edges
  obtain ⟨fragment', context'⟩ := fragmentOf_of_two (c := c) ix' edges'
  have same : c.contextOf (c.final w' full) v.context.node =
      { c.contextOf (c.final w budget) v.context.node with bindings := c.final w' full } := by
    rw [context, context', frameName_final, frameName_final]
  refine ⟨u, hu, id, ?_⟩
  rw [fragment_final hv isLocal, fragment_final hu (node ▸ isLocal), node, fragment, fragment', same,
    fol.ruleFor_eq]
  exact Rule.join_exchange edges edges' anchors fun e he => (inputs e he).2

/-- A merge is only written if a join can be made. -/
lemma joinable_of_merge (hv : v ∈ (c.translate w budget).2.visits)
    (fol : c.Follows v.context.node .join Rule.join) {rest : String}
    (emitted : c.options.stem ++ v.id ++ " = pd.merge(" ++ rest ∈ v.fragment.statements) :
    Rule.Joinable v.context.config (w.edges.filter (·.dest = v.id)) (c.convert w budget).frame? := by
  by_contra h
  rw [(declined_visit hv fol h).1] at emitted
  cases emitted

/-- A merge, with the edges that it is made of and with the frames of their origins in the end: an edge
that alone has the anchor of a side is on this side, unless it is displaced; then the edges go by their
order, and the anchor is lost if the two frames differ. -/
theorem anchors_kept_unless_displaced (c : Converter) (w : Workflow) (budget : Budget) :
    (c.translate w budget).2.visits.map Visit.id = (c.convert w budget).schedule.order ∧
    ∀ v ∈ (c.translate w budget).2.visits, c.Follows v.context.node .join Rule.join →
      (∃ rest, c.options.stem ++ v.id ++ " = pd.merge(" ++ rest ∈ v.fragment.statements) →
      w.node? v.id = some v.context.node ∧
      ∃ first second left right leftKey rightKey,
        w.edges.filter (·.dest = v.id) = [first, second] ∧
        v.fragment.statements = [Rule.merge (c.options.stem ++ v.id) left right leftKey rightKey] ∧
        (c.convert w budget).frame? (Rule.sides first second).1.origin = some left ∧
        (c.convert w budget).frame? (Rule.sides first second).2.origin = some right ∧
        (Rule.KeepsAnchor first second (c.convert w budget).frame? "Left" left ∧
            Rule.KeepsAnchor first second (c.convert w budget).frame? "Right" right ↔
          (Rule.Displaced first second →
            (c.convert w budget).frame? first.origin = (c.convert w budget).frame? second.origin)) := by
  refine ⟨by rw [visits_translate, schedule_convert], ?_⟩
  rintro v hv fol ⟨rest, emitted⟩
  obtain ⟨first, second, left, right, leftKey, rightKey, edges, hl, hr, -, -, statements, -⟩ :=
    merge_visit hv fol (joinable_of_merge hv fol emitted)
  exact ⟨node_visit hv, first, second, left, right, leftKey, rightKey, edges, statements, hl, hr,
    Rule.keepsAnchor_iff hl hr⟩

/-- Two files and their join, with these edges. -/
def joined (edges : List Edge) : Workflow where
  nodes :=
    let file (id path : String) : Node :=
      { id, plugin := "DbFileInput"
        properties := { name := "Properties", children := [{ name := "Configuration", children := [
          { name := "File", text := some path }] }] } }
    let key (side name : String) : Element :=
      { name := "JoinInfo", attributes := [("connection", side)], children := [
        { name := "Field", text := some name }] }
    [file "a" "a.csv", file "b" "b.csv",
      { id := "j", plugin := "Join"
        properties := { name := "Properties", children := [{ name := "Configuration", children := [
          key "Left" "k", key "Right" "id"] }] } }]
  edges

def rightEdge : Edge :=
  { origin := "b", dest := "j", destAnchor := some "Right" }

def leftEdge : Edge :=
  { origin := "a", dest := "j", destAnchor := some "Left" }

/-- The right side is listed first, and the anchors put it in its place. -/
theorem anchors_kept_unless_displaced_crossed :
    ∃ v ∈ (translate {} (joined [rightEdge, leftEdge]) .unlimited).2.visits,
      v.fragment.statements = [Rule.merge "df_tool_j" "df_tool_a" "df_tool_b" "k" "id"] ∧
      Rule.KeepsAnchor rightEdge leftEdge
        (convert {} (joined [rightEdge, leftEdge]) .unlimited).frame? "Left" "df_tool_a" := by
  obtain ⟨-, merges⟩ := anchors_kept_unless_displaced {} (joined [rightEdge, leftEdge]) .unlimited
  have visited : ∃ v ∈ (translate {} (joined [rightEdge, leftEdge]) .unlimited).2.visits,
      v.id = "j" ∧ v.context.node.template = none ∧
      Classifier.classify {} v.context.node.plugin = .join ∧
      v.fragment.statements = [Rule.merge "df_tool_j" "df_tool_a" "df_tool_b" "k" "id"] := by
    decide +kernel
  obtain ⟨v, hv, id, template, kind, statements⟩ := visited
  have emitted : "df_tool_" ++ v.id ++ " = pd.merge(" ++
      "df_tool_a, df_tool_b, left_on=\"k\", right_on=\"id\", how=\"inner\")" ∈
      v.fragment.statements := by
    rw [statements, id]
    decide
  obtain ⟨-, first, second, left, right, -, -, edges, -, hl, -, kept⟩ :=
    merges v hv ⟨template, kind, rfl⟩ ⟨_, emitted⟩
  rw [id] at edges
  cases edges
  have frame : (convert {} (joined [rightEdge, leftEdge]) .unlimited).frame? "a" =
      some "df_tool_a" := by decide +kernel
  cases frame.symm.trans hl
  refine ⟨v, hv, statements, (kept.2 fun displaced => ?_).1⟩
  simp [Rule.Displaced, rightEdge, leftEdge] at displaced

/-- An edge of no side. -/
def plainEdge : Edge :=
  { origin := "b", dest := "j" }

/-- The left side is listed second, and only its edge has an anchor: the left operand is the frame of the
other edge, and nobody warns. -/
theorem lone_anchor_lost :
    (∃ v ∈ (translate {} (joined [plainEdge, leftEdge]) .unlimited).2.visits, v.id = "j" ∧
      v.context.node.template = none ∧ Classifier.classify {} v.context.node.plugin = .join ∧
      v.fragment.statements =
        ["df_tool_j = pd.merge(df_tool_b, df_tool_a, left_on=\"k\", right_on=\"id\", how=\"inner\")"]) ∧
    (joined [plainEdge, leftEdge]).edges.filter (·.dest = "j") = [plainEdge, leftEdge] ∧
    (convert {} (joined [plainEdge, leftEdge]) .unlimited).frame? "a" = some "df_tool_a" ∧
    (convert {} (joined [plainEdge, leftEdge]) .unlimited).diagnostics = [] ∧
    ¬ Rule.KeepsAnchor plainEdge leftEdge
      (convert {} (joined [plainEdge, leftEdge]) .unlimited).frame? "Left" "df_tool_b" := by
  have frame : (convert {} (joined [plainEdge, leftEdge]) .unlimited).frame? "a" =
      some "df_tool_a" := by decide +kernel
  refine ⟨by decide +kernel, rfl, frame, by decide +kernel, ?_⟩
  intro kept
  have same := kept _ (List.mem_cons_of_mem _ List.mem_cons_self) rfl (by decide)
  exact absurd (Option.some.inj (frame.symm.trans same)) (by decide)

/-- A join whose edges, keys and frames are all there leaves one merge of the frames that the origins of
its edges have in the end, each edge on one side, and the node is bound; in all other cases it leaves
nothing, is not bound, and warns. With an anchor for each side and the rules of the catalog, a run to the
end of the workflow with the two edges exchanged gives the node the same fragment. -/
theorem join_merges_both_edges (c : Converter) (w : Workflow) (budget : Budget) :
    (c.translate w budget).2.visits.map Visit.id = (c.convert w budget).schedule.order ∧
    ∀ v ∈ (c.translate w budget).2.visits, c.Follows v.context.node .join Rule.join →
      w.node? v.id = some v.context.node ∧
      ((∃ rest, c.options.stem ++ v.id ++ " = pd.merge(" ++ rest ∈ v.fragment.statements) ∧
          (c.convert w budget).frame? v.id = some (c.options.stem ++ v.id) ↔
        Rule.Joinable v.context.config (w.edges.filter (·.dest = v.id))
          (c.convert w budget).frame?) ∧
      (Rule.Joinable v.context.config (w.edges.filter (·.dest = v.id))
          (c.convert w budget).frame? →
        ∃ leftInput rightInput left right leftKey rightKey,
          [leftInput, rightInput].Perm (w.edges.filter (·.dest = v.id)) ∧
          (c.convert w budget).frame? leftInput.origin = some left ∧
          (c.convert w budget).frame? rightInput.origin = some right ∧
          Rule.HasKey v.context.config "Left" leftKey ∧
          Rule.HasKey v.context.config "Right" rightKey ∧
          v.fragment.statements =
            [Rule.merge (c.options.stem ++ v.id) left right leftKey rightKey]) ∧
      (¬ Rule.Joinable v.context.config (w.edges.filter (·.dest = v.id))
          (c.convert w budget).frame? →
        v.fragment.statements = [] ∧ (c.convert w budget).frame? v.id = none ∧
        ∃ d ∈ v.fragment.diagnostics, d.category = .structural ∧ d.nodeId = some v.id) ∧
      (c.rules = Rules.standard → ∀ w' full first second,
        Workflow.Exchanged v.id first second w w' →
        (first.destAnchor = some "Left" ∧ second.destAnchor = some "Right" ∨
          first.destAnchor = some "Right" ∧ second.destAnchor = some "Left") →
        (c.convert w' full).schedule.timedOut = false →
        ∃ u ∈ (c.translate w' full).2.visits, u.id = v.id ∧ u.fragment = v.fragment) := by
  refine ⟨by rw [visits_translate, schedule_convert], fun v hv fol => ⟨node_visit hv, ?_, ?_, ?_, ?_⟩⟩
  · constructor
    · rintro ⟨⟨rest, emitted⟩, -⟩
      exact joinable_of_merge hv fol emitted
    · intro jn
      obtain ⟨_, _, left, right, leftKey, rightKey, -, -, -, -, -, statements, output⟩ :=
        merge_visit hv fol jn
      obtain ⟨rest, e⟩ := Rule.merge_eq (c.options.stem ++ v.id) left right leftKey rightKey
      refine ⟨⟨rest, ?_⟩, (frame?_convert_visit hv).trans output⟩
      rw [statements, e]
      exact List.mem_cons_self
  · intro jn
    obtain ⟨first, second, left, right, leftKey, rightKey, edges, hl, hr, kl, kr, statements, -⟩ :=
      merge_visit hv fol jn
    exact ⟨_, _, left, right, leftKey, rightKey, edges ▸ Rule.sides_perm first second, hl, hr, kl, kr,
      statements⟩
  · intro h
    obtain ⟨statements, output, warned⟩ := declined_visit hv fol h
    exact ⟨statements, (frame?_convert_visit hv).trans output, warned⟩
  · intro std w' full first second exc anchors stop
    rw [schedule_convert] at stop
    exact exchange_visit std hv fol exc anchors stop

/-- The join can be made, and it comes out the same with the left side listed first. -/
theorem join_merges_both_edges_crossed :
    Rule.Joinable (((joined []).node? "j").bind Node.configuration |>.getD { name := "" })
      [rightEdge, leftEdge] (convert {} (joined [rightEdge, leftEdge]) .unlimited).frame? ∧
    ∃ v ∈ (translate {} (joined [rightEdge, leftEdge]) .unlimited).2.visits, v.id = "j" ∧
      ∃ u ∈ (translate {} (joined [leftEdge, rightEdge]) .unlimited).2.visits,
        u.id = "j" ∧ u.fragment = v.fragment := by
  obtain ⟨-, joins⟩ := join_merges_both_edges {} (joined [rightEdge, leftEdge]) .unlimited
  have visited : ∃ v ∈ (translate {} (joined [rightEdge, leftEdge]) .unlimited).2.visits,
      v.id = "j" ∧ v.context.node.template = none ∧
      Classifier.classify {} v.context.node.plugin = .join ∧
      v.context.config = (((joined []).node? "j").bind Node.configuration |>.getD { name := "" }) ∧
      v.fragment.statements = [Rule.merge "df_tool_j" "df_tool_a" "df_tool_b" "k" "id"] := by
    decide +kernel
  obtain ⟨v, hv, id, template, kind, config, statements⟩ := visited
  obtain ⟨-, emitted, -, -, exchanged⟩ := joins v hv ⟨template, kind, rfl⟩
  have exc : Workflow.Exchanged v.id rightEdge leftEdge (joined [rightEdge, leftEdge])
      (joined [leftEdge, rightEdge]) := by
    rw [id]
    exact ⟨rfl, rfl, [], [], [], rfl, rfl⟩
  obtain ⟨rest, merge⟩ := Rule.merge_eq "df_tool_j" "df_tool_a" "df_tool_b" "k" "id"
  have bound : (convert {} (joined [rightEdge, leftEdge]) .unlimited).frame? "j" =
      some "df_tool_j" := by decide +kernel
  rw [id, config, statements] at emitted
  refine ⟨emitted.1 ⟨⟨rest, ?_⟩, bound⟩, v, hv, id, ?_⟩
  · rw [merge]
    exact List.mem_cons_self
  · rw [← id]
    exact exchanged rfl _ .unlimited _ _ exc (.inr ⟨rfl, rfl⟩) (by decide +kernel)

end Converter

end Flowscript
