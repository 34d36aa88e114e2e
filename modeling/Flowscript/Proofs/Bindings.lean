import Flowscript.Bindings
import Flowscript.Proofs.Index
import Mathlib.Data.List.Induction

/-!
# Bindings over sequences of calls

The bindings keep two stores: the table of frames, and the ids in the order in which they were bound.
`InStep` says that the two agree: each id with a frame stands in the order once, and no other id does.
One call to `bind` keeps them in step (`InStep.bind`). As long as they are, nothing is skipped when the
order is looked up in the table (`InStep.bound_eq`). `Indexes` says that the indexes hold the edges of
the workflow: filling them edge by edge brings this about (`Indexes.ofWorkflow`), and no call to `bind`
changes it. `Sound` puts the two together; it holds after every sequence of calls (`Sound.after`).

`after` makes calls to `bind` one after the other. What they leave behind is said by `Tallies`: each id
that was called stands in the order where it was first called, with the frame of its first call. One
call keeps this (`Tallies.call`), so every sequence does (`Tallies.after`). `first_call_wins` puts all of
it together with the answers to the calls.
-/

namespace Flowscript.Bindings

variable {w : Workflow} {stem id frame existing key : String} {b : Bindings}
  {calls : List (String × String)}

/-! ## Indexes -/

/-- The indexes hold the edges of the workflow, in their order. -/
structure Indexes (w : Workflow) (b : Bindings) : Prop where
  outgoing : ∀ id, b.outgoing id = (w.edges.filter (·.origin = id)).map Edge.dest
  incoming : ∀ id, b.incoming id = (w.edges.filter (·.dest = id)).map Edge.origin
  incomingEdges : ∀ id, b.incomingEdges id = w.edges.filter (·.dest = id)

/-- In one pass over the edges, each index is filled by itself. -/
lemma foldl_addEdge (edges : List Edge) (b : Bindings) :
    edges.foldl addEdge b =
      { b with
        ends := edges.foldl (fun ends e => record e.origin e.dest ends) b.ends
        origins := edges.foldl (fun origins e => record e.dest e.origin origins) b.origins
        entering := edges.foldl (fun entering e => record e.dest e entering) b.entering } := by
  induction edges generalizing b with
  | nil => rfl
  | cons e es ih => exact ih (b.addEdge e)

/-- Filled edge by edge, the indexes hold the edges. -/
lemma Indexes.ofWorkflow (w : Workflow) (stem : String) : Indexes w (ofWorkflow w stem) := by
  rw [Bindings.ofWorkflow, foldl_addEdge]
  refine ⟨fun id => ?_, fun id => ?_, fun id => ?_⟩
  · exact recorded_foldl_record Edge.origin Edge.dest w.edges [] id
  · exact recorded_foldl_record Edge.dest Edge.origin w.edges [] id
  · refine (recorded_foldl_record Edge.dest (fun e => e) w.edges [] id).trans ?_
    exact List.map_id _

/-- The origins kept for an id are those of the edges kept for it. -/
lemma Indexes.incoming_eq (ix : Indexes w b) (id : String) :
    b.incoming id = (b.incomingEdges id).map Edge.origin := by
  rw [ix.incoming, ix.incomingEdges]

/-- Whatever is bound, a node has no single input unless there is a single edge into it. -/
lemma singleInput_eq_none : b.singleInput id = .ok none ↔ (b.incoming id).length ≠ 1 := by
  unfold singleInput
  split
  · next p one =>
    rw [one]
    cases b.frame? p with
    | some frame => simp
    | none => simp
  · next many =>
    refine iff_of_true rfl fun one => ?_
    obtain ⟨p, eq⟩ := List.length_eq_one_iff.1 one
    exact many p eq

/-! ## One call -/

/-- A call for a node that is bound fails and changes nothing. -/
lemma bind_of_some (h : b.frame? id = some existing) :
    b.bind id frame = (.error (.alreadyBound id existing), b) := by
  rw [bind, h]

/-- A call for a node that is not bound writes to both stores. -/
lemma bind_of_none (h : b.frame? id = none) :
    b.bind id frame =
      (.ok (), { b with held := put id frame b.held, order := b.order ++ [id] }) := by
  rw [bind, h]

/-- A call that goes well binds its own node and no other. -/
lemma frame?_bind_of_none (h : b.frame? id = none) :
    (b.bind id frame).2.frame? key = if key = id then some frame else b.frame? key := by
  rw [bind_of_none h]
  exact lookup_put id key frame b.held

/-- A call leaves the stem and the indexes as they are. -/
lemma bind_eq (b : Bindings) (id frame : String) :
    ∃ held order, (b.bind id frame).2 = { b with held, order } := by
  cases h : b.frame? id with
  | some existing => exact ⟨b.held, b.order, by rw [bind_of_some h]⟩
  | none => exact ⟨_, _, by rw [bind_of_none h]⟩

/-- A call leaves the indexes as they are, whether it fails or not. -/
lemma Indexes.bind (ix : Indexes w b) (id frame : String) : Indexes w (b.bind id frame).2 := by
  obtain ⟨held, order, e⟩ := b.bind_eq id frame
  rw [e]
  exact ⟨ix.outgoing, ix.incoming, ix.incomingEdges⟩

/-! ## The two stores in step -/

/-- The ids with a frame in the table are those in the order, and each stands there once. -/
structure InStep (b : Bindings) : Prop where
  nodup : b.order.Nodup
  mem_order : ∀ {id}, id ∈ b.order ↔ (b.frame? id).isSome

/-- A call keeps the two stores in step. -/
lemma InStep.bind (st : InStep b) (id frame : String) : InStep (b.bind id frame).2 := by
  cases h : b.frame? id with
  | some existing =>
    rw [bind_of_some h]
    exact st
  | none =>
    have new : id ∉ b.order := by
      rw [st.mem_order, h]
      exact nofun
    have order : (b.bind id frame).2.order = b.order ++ [id] := by rw [bind_of_none h]
    refine ⟨?_, fun {key} => ?_⟩
    · rw [order]
      refine List.nodup_append.2 ⟨st.nodup, List.pairwise_singleton _ id, ?_⟩
      rintro a ha _ hid rfl
      exact new (List.mem_singleton.1 hid ▸ ha)
    · rw [order, List.mem_append, List.mem_singleton, st.mem_order, frame?_bind_of_none h]
      by_cases e : key = id
      · simp [e]
      · simp [e]

/-- The list of frames is the second column of the list of bindings. -/
lemma frames_eq (b : Bindings) : b.frames = b.bound.map Prod.snd := by
  rw [frames, bound, List.map_filterMap]
  apply List.filterMap_congr
  intro id _
  cases b.frame? id with
  | some frame => rfl
  | none => rfl

namespace InStep

/-- Every id of the order is listed with its frame. -/
lemma bound_eq (st : InStep b) :
    b.bound.map (fun p => (p.1, some p.2)) = b.order.map fun id => (id, b.frame? id) := by
  rw [bound, List.map_filterMap, ← List.filterMap_eq_map]
  apply List.filterMap_congr
  intro id hid
  obtain ⟨frame, h⟩ := Option.isSome_iff_exists.1 (st.mem_order.1 hid)
  simp [h]

/-- No id of the order is skipped when its frame is looked up. -/
lemma map_some_frames (st : InStep b) : b.frames.map some = b.order.map b.frame? := by
  have columns := congrArg (List.map Prod.snd) st.bound_eq
  rw [frames_eq]
  simpa only [List.map_map, Function.comp_def] using columns

/-- The bindings stand in the order in which they were made. -/
lemma map_fst_bound (st : InStep b) : b.bound.map Prod.fst = b.order := by
  have columns := congrArg (List.map Prod.fst) st.bound_eq
  simpa only [List.map_map, Function.comp_def, List.map_id'] using columns

/-- A binding is listed just when the table has it. -/
lemma mem_bound (st : InStep b) : (id, frame) ∈ b.bound ↔ b.frame? id = some frame := by
  rw [bound, List.mem_filterMap]
  constructor
  · rintro ⟨key, -, h⟩
    obtain ⟨found, h, e⟩ := Option.map_eq_some_iff.1 h
    cases e
    exact h
  · intro h
    exact ⟨id, st.mem_order.2 (Option.isSome_of_eq_some h), by rw [h]; rfl⟩

/-- A look-up in the list of bindings finds what the table has. -/
lemma lookup_bound (st : InStep b) (id : String) : b.bound.lookup id = b.frame? id := by
  cases found : b.bound.lookup id with
  | some frame => exact (st.mem_bound.1 (mem_of_lookup found)).symm
  | none =>
    rw [lookup_eq_none, st.map_fst_bound, st.mem_order, Option.not_isSome_iff_eq_none] at found
    exact found.symm

end InStep

/-- The bindings come from this workflow and stem: the indexes hold its edges, and the two stores are in
step. -/
structure Sound (w : Workflow) (stem : String) (b : Bindings) : Prop
    extends Indexes w b, InStep b where
  stem_eq : b.stem = stem

/-- Before the first call, nothing is bound. -/
lemma Sound.ofWorkflow (w : Workflow) (stem : String) : Sound w stem (ofWorkflow w stem) := by
  have ix := Indexes.ofWorkflow w stem
  rw [Bindings.ofWorkflow, foldl_addEdge] at ix ⊢
  exact ⟨ix, ⟨List.nodup_nil, iff_of_false List.not_mem_nil nofun⟩, rfl⟩

/-- Before the first call, no binding is listed. -/
lemma bound_ofWorkflow (w : Workflow) (stem : String) : (ofWorkflow w stem).bound = [] := by
  rw [ofWorkflow, foldl_addEdge]
  rfl

/-- A call keeps the bindings sound. -/
lemma Sound.bind (snd : Sound w stem b) (id frame : String) :
    Sound w stem (b.bind id frame).2 := by
  refine ⟨snd.toIndexes.bind id frame, snd.toInStep.bind id frame, ?_⟩
  obtain ⟨held, order, e⟩ := b.bind_eq id frame
  rw [e]
  exact snd.stem_eq

/-! ## Sequences of calls -/

/-- The bindings after calls, one after the other, whether they go well or fail. -/
def after (b : Bindings) (calls : List (String × String)) : Bindings :=
  calls.foldl (fun b c => (b.bind c.1 c.2).2) b

/-- One more call, behind the others. -/
lemma after_concat (b : Bindings) (calls : List (String × String)) (c : String × String) :
    b.after (calls ++ [c]) = ((b.after calls).bind c.1 c.2).2 := by
  rw [after, List.foldl_append]
  rfl

/-- Every sequence of calls keeps the bindings sound. -/
lemma Sound.after (w : Workflow) (stem : String) (calls : List (String × String)) :
    Sound w stem ((Bindings.ofWorkflow w stem).after calls) := by
  induction calls using List.reverseRecOn with
  | nil => exact .ofWorkflow w stem
  | append_singleton calls c ih =>
    rw [after_concat]
    exact ih.bind c.1 c.2

/-- What the calls leave behind, if nothing was bound before them. -/
structure Tallies (calls : List (String × String)) (b : Bindings) : Prop where
  order_eq : b.order = (calls.map Prod.fst).eraseDups
  frame?_eq : ∀ id, b.frame? id = calls.lookup id

namespace Tallies

/-- No calls leave nothing behind. -/
lemma start (w : Workflow) (stem : String) : Tallies [] (ofWorkflow w stem) := by
  rw [ofWorkflow, foldl_addEdge]
  exact ⟨rfl, fun _ => rfl⟩

/-- The calls were for the ids that are bound. -/
lemma mem_calls (tl : Tallies calls b) : id ∈ calls.map Prod.fst ↔ b.frame? id ≠ none := by
  rw [tl.frame?_eq, ne_eq, lookup_eq_none, not_not]

/-- One more call adds what it should: nothing if there was one for its id before. -/
lemma call (tl : Tallies calls b) (id frame : String) :
    Tallies (calls ++ [(id, frame)]) (b.bind id frame).2 := by
  have single : [id].eraseDups = [id] := rfl
  cases h : b.frame? id with
  | some existing =>
    have called : id ∈ calls.map Prod.fst := tl.mem_calls.2 (h ▸ nofun)
    rw [bind_of_some h]
    refine ⟨?_, fun key => ?_⟩
    · rw [tl.order_eq, List.map_append, List.eraseDups_append]
      simp [List.removeAll, called]
    · -- A call that is made later does not change which call for an id was the first.
      rw [List.lookup_append, ← tl.frame?_eq]
      by_cases e : key = id
      · rw [e, h, Option.some_or]
      · simp [List.lookup_cons, beq_false_of_ne e]
  | none =>
    have new : id ∉ calls.map Prod.fst := fun called => tl.mem_calls.1 called h
    refine ⟨?_, fun key => ?_⟩
    · rw [bind_of_none h, List.map_append, List.eraseDups_append, tl.order_eq]
      simp [List.removeAll, new, single]
    · rw [frame?_bind_of_none h, List.lookup_append, ← tl.frame?_eq]
      by_cases e : key = id
      · simp [e, h]
      · simp [e, List.lookup_cons, beq_false_of_ne e]

/-- Every sequence of calls leaves behind what it should. -/
lemma after (w : Workflow) (stem : String) (calls : List (String × String)) :
    Tallies calls ((ofWorkflow w stem).after calls) := by
  induction calls using List.reverseRecOn with
  | nil => exact start w stem
  | append_singleton calls c ih =>
    rw [after_concat]
    exact ih.call c.1 c.2

/-- A further call fails just when there was one for its id before. -/
lemma bind_fails_iff (tl : Tallies calls b) :
    (∃ e, (b.bind id frame).1 = .error e) ↔ id ∈ calls.map Prod.fst := by
  rw [tl.mem_calls]
  cases h : b.frame? id with
  | some existing =>
    rw [bind_of_some h]
    exact iff_of_true ⟨_, rfl⟩ nofun
  | none =>
    rw [bind_of_none h]
    exact iff_of_false nofun fun ne => ne rfl

/-- A call that fails names the frame of the first call for its id, and it changes nothing. -/
lemma bind_error (tl : Tallies calls b) {e : BindingError} (failed : (b.bind id frame).1 = .error e) :
    (∃ first, calls.lookup id = some first ∧ e = .alreadyBound id first) ∧
      (b.bind id frame).2 = b := by
  cases h : b.frame? id with
  | some existing =>
    rw [bind_of_some h] at failed ⊢
    cases failed
    exact ⟨⟨existing, (tl.frame?_eq id).symm.trans h, rfl⟩, rfl⟩
  | none =>
    rw [bind_of_none h] at failed
    cases failed

end Tallies

/-- After any calls, a further one fails just when one of them was for the same node; it then names the
frame of the first of these and changes nothing. The bindings are the called ids in the order of first
calls, each with the frame of its first call; look-ups agree with them, and the list of frames is their
second column, with a frame for each of the ids. The indexes hold the edges of the workflow throughout. -/
theorem first_call_wins (w : Workflow) (stem : String) (calls : List (String × String)) :
    ∃ b, (ofWorkflow w stem).after calls = b ∧
      (∀ id frame, ((∃ e, (b.bind id frame).1 = .error e) ↔ id ∈ calls.map Prod.fst) ∧
        ∀ e, (b.bind id frame).1 = .error e →
          (∃ first, calls.lookup id = some first ∧ e = .alreadyBound id first) ∧
          (b.bind id frame).2 = b) ∧
      b.bound.map (fun p => (p.1, some p.2)) =
        (calls.map Prod.fst).eraseDups.map (fun id => (id, calls.lookup id)) ∧
      (∀ id frame, b.frame? id = some frame ↔ (id, frame) ∈ b.bound) ∧
      b.frames = b.bound.map Prod.snd ∧
      b.frames.map some = (calls.map Prod.fst).eraseDups.map (fun id => calls.lookup id) ∧
      ∀ id, b.incomingEdges id = w.edges.filter (·.dest = id) ∧
        b.incoming id = (w.edges.filter (·.dest = id)).map Edge.origin ∧
        b.outgoing id = (w.edges.filter (·.origin = id)).map Edge.dest := by
  have tl := Tallies.after w stem calls
  have snd := Sound.after w stem calls
  refine ⟨_, rfl, fun id frame => ⟨tl.bind_fails_iff, fun e => tl.bind_error⟩, ?_,
    fun id frame => snd.mem_bound.symm, frames_eq _, ?_,
    fun id => ⟨snd.incomingEdges id, snd.incoming id, snd.outgoing id⟩⟩
  · simp only [snd.bound_eq, tl.order_eq, tl.frame?_eq]
  · rw [snd.map_some_frames, tl.order_eq]
    exact List.map_congr_left fun id _ => tl.frame?_eq id

/-- Two edges from `a` to `b`, and one from `b` to `b` between them. -/
def doubled : Workflow where
  nodes := [{ id := "a", plugin := "Filter" }, { id := "b", plugin := "Sort" }]
  edges := [{ origin := "a", dest := "b" }, { origin := "b", dest := "b" }, { origin := "a", dest := "b" }]

/-- The third call fails with the frame of the first one and leaves both stores as they are; the next
one goes well. The edges are still those of the workflow, each as often as it stands there. -/
theorem first_call_wins_repeated :
    ∃ b, (ofWorkflow doubled "df_").after [("b", "x"), ("c", "x")] = b ∧
      (b.bind "b" "y").1 = .error (.alreadyBound "b" "x") ∧ (b.bind "b" "y").2 = b ∧
      ((b.bind "b" "y").2.bind "a" "z").1 = .ok () ∧
      ((b.bind "b" "y").2.bind "a" "z").2.bound = [("b", "x"), ("c", "x"), ("a", "z")] ∧
      b.frames = ["x", "x"] ∧
      b.incoming "b" = ["a", "b", "a"] ∧ b.outgoing "a" = ["b", "b"] := by
  obtain ⟨b, made, answers, -, -, frames, -, edges⟩ :=
    first_call_wins doubled "df_" [("b", "x"), ("c", "x")]
  have failed : (b.bind "b" "y").1 = .error (.alreadyBound "b" "x") := by
    rw [← made]
    decide
  have same : (b.bind "b" "y").2 = b := ((answers "b" "y").2 _ failed).2
  refine ⟨b, made, failed, same, ?_, ?_, frames.trans ?_, (edges "b").2.1, (edges "a").2.2⟩
  · rw [same, ← made]
    decide
  · rw [same, ← made]
    decide
  · rw [← made]
    decide

end Flowscript.Bindings
