import Flowscript.Proofs.Conversion.Translation
import Flowscript.Proofs.Schedule.Blocked

/-!
# Translations are local

With the rules of the catalog, what comes of a node depends on the node and on what lies upstream of
it. `Workflow.AgreeOn` relates two workflows that look the same on a set of ids with all their
predecessors, whatever they are elsewhere. Runs to the end visit the same ids of the set
(`AgreeOn.mem_order`), though in different orders and between other ids. In each run, the fragment of
a node is the one that its rule gives for the bindings in the end (`fragment_final`), and these agree on
the set (`frame?_final_congr`); so `translation_local` holds.
-/

namespace Flowscript

/-- The set is closed under predecessors, and the workflows have the same nodes with ids in it and
the same edges into them. -/
structure Workflow.AgreeOn (S : Set String) (w₁ w₂ : Workflow) : Prop where
  closed : ∀ e ∈ w₁.edges, e.dest ∈ S → e.origin ∈ S
  nodes : ∀ id ∈ S, w₁.node? id = w₂.node? id
  edges : ∀ id ∈ S, w₁.edges.filter (·.dest = id) = w₂.edges.filter (·.dest = id)

namespace Workflow

variable {w w₁ w₂ : Workflow} {S : Set String} {id : String} {e : Edge}

/-- An id is that of a node if a node is found by it. -/
lemma mem_ids_iff : id ∈ w.ids ↔ (w.node? id).isSome := by
  rw [node?, List.find?_isSome, ids, List.mem_map]
  simp only [decide_eq_true_eq]

namespace AgreeOn

/-- Workflows that agree on some nodes have the same edges into these. -/
lemma mem_edges (agr : AgreeOn S w₁ w₂) (hd : e.dest ∈ S) : e ∈ w₁.edges ↔ e ∈ w₂.edges := by
  have mem : ∀ w : Workflow, e ∈ w.edges ↔ e ∈ w.edges.filter (·.dest = e.dest) := by
    intro w
    simp
  rw [mem w₁, mem w₂, agr.edges e.dest hd]

/-- Workflows that agree on some nodes have the same ids among these. -/
lemma mem_ids (agr : AgreeOn S w₁ w₂) (hid : id ∈ S) : id ∈ w₁.ids ↔ id ∈ w₂.ids := by
  rw [mem_ids_iff, mem_ids_iff, agr.nodes id hid]

/-- Agreement goes both ways. -/
lemma symm (agr : AgreeOn S w₁ w₂) : AgreeOn S w₂ w₁ where
  closed := fun e he hd => agr.closed e ((agr.mem_edges hd).2 he) hd
  nodes := fun id hid => (agr.nodes id hid).symm
  edges := fun id hid => (agr.edges id hid).symm

/-- What one run visits of the set, a run to the end of the other workflow visits too. -/
lemma mem_order {b₁ b₂ : Budget} (agr : AgreeOn S w₁ w₂)
    (full : (Schedule.ofWorkflow w₂ b₂).timedOut = false) (hid : id ∈ S)
    (ho : id ∈ (Schedule.ofWorkflow w₁ b₁).order) : id ∈ (Schedule.ofWorkflow w₂ b₂).order := by
  -- The visited ids are the least set closed under getting ready, and this one is closed too.
  have cl : {a | a ∈ w₁.ids ∧ (a ∈ S → a ∈ (Schedule.ofWorkflow w₂ b₂).order)} ∈
      w₁.ReadyClosed := by
    refine ⟨fun a ha => ha.1, fun a ha origins => ⟨ha, fun hS => ?_⟩⟩
    refine Schedule.mem_order_of_ready full ⟨(agr.mem_ids hS).1 ha, ?_⟩
    rintro e he rfl
    have he₁ := (agr.mem_edges hS).2 he
    exact (origins e he₁ rfl).2 (agr.closed e he₁ hS)
  exact (Schedule.mem_of_mem_order cl ho).2 hid

end AgreeOn

end Workflow

/-- Bindings that look the same from a node give it the same input. -/
lemma Bindings.AgreeAt.inputOf {id : String} {b b' : Bindings} (agr : AgreeAt id b b') :
    b.inputOf id = b'.inputOf id := by
  have single : b.singleInput id = b'.singleInput id := by
    rw [singleInput, singleInput, ← agr.incoming]
    split
    · next p h => rw [agr.frame? p (h ▸ List.mem_cons_self)]
    · rfl
  have name : b.frameName = b'.frameName := by
    funext id
    rw [frameName, frameName, agr.stem]
  rw [Bindings.inputOf, Bindings.inputOf, single, name]

namespace Converter

variable {c : Converter} {w w₁ w₂ : Workflow} {budget b₁ b₂ : Budget} {S : Set String} {id : String}
  {n : Node} {v : Visit}

/-- With a local rule, the fragment of a node depends on what the node can see of the bindings. -/
lemma fragmentOf_congr_of_local {b b' : Bindings} (isLocal : (c.ruleFor n).Local)
    (agr : b.AgreeAt n.id b') : c.fragmentOf b n = c.fragmentOf b' n := by
  have context : c.contextOf b' n = { c.contextOf b n with bindings := b' } := by
    rw [contextOf, contextOf, agr.inputOf, Bindings.frameName, Bindings.frameName, agr.stem]
  rw [fragmentOf, fragmentOf, context, isLocal (c := c.contextOf b n) agr, agr.inputOf]

/-- Bindings that agree at a node give it the same fragment. -/
lemma fragmentOf_congr {b b' : Bindings} (std : c.rules = Rules.standard)
    (agr : b.AgreeAt n.id b') : c.fragmentOf b n = c.fragmentOf b' n :=
  fragmentOf_congr_of_local
    (ruleFor_cases std n Rule.template_local Rules.standard_local fun _ => rfl) agr

/-- With a local rule, the fragment of a visited node is the one for the bindings in the end. -/
lemma fragment_final (hv : v ∈ (c.translate w budget).2.visits)
    (isLocal : (c.ruleFor v.context.node).Local) :
    v.fragment = c.fragmentOf (c.final w budget) v.context.node := by
  obtain ⟨xs, n, ys, order, -, -, rfl⟩ := exists_visitNode hv
  exact fragmentOf_congr_of_local isLocal (agreeAt_final order)

/-- What a visit leaves is what the rule makes of the final bindings. -/
lemma fragment_eq (std : c.rules = Rules.standard) (hv : v ∈ (c.translate w budget).2.visits) :
    ∃ n, w.node? n.id = some n ∧ v.id = n.id ∧ v.fragment = c.fragmentOf (c.final w budget) n :=
  ⟨v.context.node, node_visit hv, rfl, fragment_final hv
    (ruleFor_cases std _ Rule.template_local Rules.standard_local fun _ => rfl)⟩

/-- A visited node is bound to the output of its fragment for the bindings in the end. -/
lemma frame?_final (std : c.rules = Rules.standard) (ho : n.id ∈ (Schedule.ofWorkflow w budget).order)
    (hn : w.node? n.id = some n) :
    (c.final w budget).frame? n.id = (c.fragmentOf (c.final w budget) n).output := by
  obtain ⟨xs, ys, order⟩ := List.append_of_mem ho
  have nodup := Schedule.order_nodup w budget
  rw [order] at nodup
  rw [← fragmentOf_congr std (agreeAt_final order), final, order, frame?_after_self nodup hn]
  rfl

/-- Bindings in the end that agree on the inputs of a visited node look the same from it. -/
lemma final_agreeAt (agr : Workflow.AgreeOn S w₁ w₂) (hid : id ∈ S)
    (ho : id ∈ (Schedule.ofWorkflow w₁ b₁).order)
    (frames : ∀ e ∈ w₁.edges, e.dest = id → e.origin ∈ S →
      e.origin ∈ (Schedule.ofWorkflow w₁ b₁).order →
      (c.final w₁ b₁).frame? e.origin = (c.final w₂ b₂).frame? e.origin) :
    (c.final w₁ b₁).AgreeAt id (c.final w₂ b₂) := by
  refine (sound_final c w₁ b₁).agreeAt (sound_final c w₂ b₂) (agr.edges id hid) ?_
  rintro e he rfl
  exact frames e he rfl (agr.closed e he hid) (Schedule.precedes ⟨e, he, rfl, rfl⟩ ho).1

/-- On visited ids of the set, the bindings in the end agree. -/
lemma frame?_final_congr (std : c.rules = Rules.standard) (agr : Workflow.AgreeOn S w₁ w₂)
    (full : (Schedule.ofWorkflow w₂ b₂).timedOut = false) (hid : id ∈ S)
    (ho : id ∈ (Schedule.ofWorkflow w₁ b₁).order) :
    (c.final w₁ b₁).frame? id = (c.final w₂ b₂).frame? id := by
  -- The two orders have no common prefix to induct on; the ids for which this holds are a set that
  -- is closed under getting ready.
  have cl : {a | a ∈ w₁.ids ∧ (a ∈ S → a ∈ (Schedule.ofWorkflow w₁ b₁).order →
      (c.final w₁ b₁).frame? a = (c.final w₂ b₂).frame? a)} ∈ w₁.ReadyClosed := by
    refine ⟨fun a ha => ha.1, fun a ha origins => ⟨ha, fun hS ho => ?_⟩⟩
    obtain ⟨n, hn, rfl⟩ := Workflow.exists_node ha
    have look : (c.final w₁ b₁).AgreeAt n.id (c.final w₂ b₂) :=
      final_agreeAt agr hS ho fun e he hd => (origins e he hd).2
    have hn₂ : w₂.node? n.id = some n := agr.nodes n.id hS ▸ hn
    rw [frame?_final std ho hn, fragmentOf_congr std look,
      frame?_final std (agr.mem_order full hS ho) hn₂]
  exact (Schedule.mem_of_mem_order cl ho).2 hid ho

/-- Two workflows that look the same on a set of ids with all their predecessors, and runs of them to
the end: each run makes one visit for each id of its schedule, the runs visit the same ids of the set,
give them the same fragments and bind them to the same frames. -/
theorem translation_local (c : Converter) (std : c.rules = Rules.standard) (w₁ w₂ : Workflow)
    (b₁ b₂ : Budget) (S : Set String) (agr : Workflow.AgreeOn S w₁ w₂)
    (full₁ : (Schedule.ofWorkflow w₁ b₁).timedOut = false)
    (full₂ : (Schedule.ofWorkflow w₂ b₂).timedOut = false) :
    (c.translate w₁ b₁).2.visits.map Visit.id = (c.convert w₁ b₁).schedule.order ∧
    (c.translate w₂ b₂).2.visits.map Visit.id = (c.convert w₂ b₂).schedule.order ∧
    ∀ id ∈ S,
      (id ∈ (c.convert w₁ b₁).schedule.order ↔ id ∈ (c.convert w₂ b₂).schedule.order) ∧
      (∀ v₁ ∈ (c.translate w₁ b₁).2.visits, ∀ v₂ ∈ (c.translate w₂ b₂).2.visits,
        v₁.id = id → v₂.id = id → v₁.fragment = v₂.fragment) ∧
      (c.convert w₁ b₁).frame? id = (c.convert w₂ b₂).frame? id := by
  simp only [schedule_convert, visits_translate, frame?_convert, true_and]
  intro id hid
  have visited : id ∈ (Schedule.ofWorkflow w₁ b₁).order ↔ id ∈ (Schedule.ofWorkflow w₂ b₂).order :=
    ⟨agr.mem_order full₂ hid, agr.symm.mem_order full₁ hid⟩
  refine ⟨visited, ?_, ?_⟩
  · rintro v₁ hv₁ v₂ hv₂ rfl e
    have ho : v₁.id ∈ (Schedule.ofWorkflow w₁ b₁).order :=
      visits_translate c w₁ b₁ ▸ List.mem_map_of_mem hv₁
    have look : (c.final w₁ b₁).AgreeAt v₁.id (c.final w₂ b₂) :=
      final_agreeAt agr hid ho fun e _ _ => frame?_final_congr std agr full₂
    obtain ⟨n, hn, id₁, f₁⟩ := fragment_eq std hv₁
    obtain ⟨m, hm, id₂, f₂⟩ := fragment_eq std hv₂
    rw [← id₂, e, ← agr.nodes v₁.id hid, id₁, hn] at hm
    cases hm
    rw [f₁, f₂, fragmentOf_congr std (id₁ ▸ look)]
  · by_cases ho : id ∈ (Schedule.ofWorkflow w₁ b₁).order
    · exact frame?_final_congr std agr full₂ hid ho
    · rw [final, final, frame?_after_of_not_mem ho, frame?_after_of_not_mem (visited.not.1 ho)]

/-- Two inputs and their union. -/
def pair : Workflow where
  nodes := [{ id := "l", plugin := "TextInput" }, { id := "r", plugin := "TextInput" },
    { id := "u", plugin := "Union" }]
  edges := [{ origin := "l", dest := "u" }, { origin := "r", dest := "u" }]

/-- The same, declared in another order, with a loop behind one input and a filter behind the union. -/
def crowded : Workflow where
  nodes := [{ id := "u", plugin := "Union" }, { id := "r", plugin := "TextInput" },
    { id := "x", plugin := "Join" }, { id := "l", plugin := "TextInput" },
    { id := "k", plugin := "Filter" }]
  edges := [{ origin := "x", dest := "x" }, { origin := "l", dest := "u" },
    { origin := "u", dest := "k" }, { origin := "l", dest := "x" }, { origin := "r", dest := "u" }]

/-- The inputs are visited the other way round, and the union comes out the same. -/
theorem translation_local_crowded :
    (convert {} pair .unlimited).schedule.order = ["l", "r", "u"] ∧
    (convert {} crowded .unlimited).schedule.order = ["r", "l", "u", "k"] ∧
    (∃ v₁ ∈ (translate {} pair .unlimited).2.visits,
      ∃ v₂ ∈ (translate {} crowded .unlimited).2.visits,
        v₁.id = "u" ∧ v₂.id = "u" ∧ v₁.fragment = v₂.fragment) ∧
    (convert {} crowded .unlimited).frame? "u" = some "df_tool_u" := by
  have order₁ : (convert {} pair .unlimited).schedule.order = ["l", "r", "u"] := by decide +kernel
  have order₂ : (convert {} crowded .unlimited).schedule.order = ["r", "l", "u", "k"] := by
    decide +kernel
  have agr : Workflow.AgreeOn {"l", "r", "u"} pair crowded := by
    constructor
    · simp [pair]
    · simp [pair, crowded, Workflow.node?]
    · simp [pair, crowded]
  obtain ⟨ids₁, ids₂, same⟩ := translation_local {} rfl pair crowded .unlimited .unlimited _ agr
    (by decide +kernel) (by decide +kernel)
  obtain ⟨-, fragments, frames⟩ := same "u" (by simp)
  have bound : (convert {} pair .unlimited).frame? "u" = some "df_tool_u" := by decide +kernel
  obtain ⟨v₁, hv₁, e₁⟩ := List.mem_map.1 (ids₁ ▸ order₁ ▸ (by decide : "u" ∈ ["l", "r", "u"]))
  obtain ⟨v₂, hv₂, e₂⟩ := List.mem_map.1 (ids₂ ▸ order₂ ▸ (by decide : "u" ∈ ["r", "l", "u", "k"]))
  exact ⟨order₁, order₂, ⟨v₁, hv₁, v₂, hv₂, e₁, e₂, fragments v₁ hv₁ v₂ hv₂ e₁ e₂⟩,
    frames ▸ bound⟩

end Converter

end Flowscript
