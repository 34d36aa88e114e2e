import Flowscript.Conversion
import Flowscript.Proofs.Rule.Local
import Flowscript.Proofs.Schedule.Order
import Flowscript.Proofs.Script
import Mathlib.Data.List.Induction

/-!
# Translations

A translation visits the ids of a schedule one after the other (`Converter.translate_eq`). `after`
is its state after some of them, and `visits_after_eq` tells what was seen and done at each visit. What
each visit keeps holds all along (`after_induction`): so the bindings are sound, and the script and the
notices are those of the visits. A visit binds no other node than its own, so the frame of an id that has
had its turn is final (`frame?_after_append`). An id is visited after all origins of the edges into it;
what a visit finds about them is therefore what stands in the end (`agreeAt_final`). Bindings, notices and
script of a conversion are read off its visits (`bindings_convert`, `diagnostics_convert`,
`script_convert`). A conversion that looks at a clock as it goes is the one by a clock that is known
beforehand (`convertDocumentM_pure`).
-/

namespace Flowscript

namespace Bindings

variable {b : Bindings} {id p : String} {f : Fragment}

/-- A node that is bound to its output leaves the bindings sound. -/
lemma Sound.settle {w : Workflow} {stem : String} (snd : Sound w stem b) (id : String)
    (f : Fragment) : Sound w stem (b.settle id f) := by
  rw [Bindings.settle]
  cases f.output with
  | none => exact snd
  | some frame => exact snd.bind id frame

/-- A node binds no other node. -/
lemma frame?_settle_of_ne (ne : p ≠ id) : (b.settle id f).frame? p = b.frame? p := by
  rw [settle]
  cases f.output with
  | none => rfl
  | some frame =>
    cases h : b.frame? id with
    | some existing => simp only [bind_of_some h]
    | none => simp only [frame?_bind_of_none h, if_neg ne]

/-- A node that is bound stays as it is. -/
lemma settle_of_some {existing : String} (h : b.frame? id = some existing) : b.settle id f = b := by
  rw [settle]
  cases f.output with
  | none => rfl
  | some frame => simp only [bind_of_some h]

/-- A node that is not bound gets bound to its output. -/
lemma frame?_settle_self (h : b.frame? id = none) : (b.settle id f).frame? id = f.output := by
  rw [settle]
  cases f.output with
  | none => exact h
  | some frame => simp only [frame?_bind_of_none h, if_true]

/-- A node that is not bound comes last among those that are, if it has an output. -/
lemma order_settle (h : b.frame? id = none) :
    (b.settle id f).order = b.order ++ if f.output.isSome then [id] else [] := by
  rw [settle]
  cases f.output with
  | none => exact (List.append_nil _).symm
  | some frame => simp only [bind_of_none h, Option.isSome_some, if_true]

/-- A node that is not bound adds its output to the bindings, if it has one. -/
lemma InStep.bound_settle (st : InStep b) (h : b.frame? id = none) :
    (b.settle id f).bound = b.bound ++ (f.output.map (id, ·)).toList := by
  have new : id ∉ b.order := by
    rw [st.mem_order, h]
    exact nofun
  have old : b.order.filterMap (fun p => ((b.settle id f).frame? p).map (p, ·)) = b.bound := by
    apply List.filterMap_congr
    intro p hp
    have ne : p ≠ id := fun e => new (e ▸ hp)
    rw [frame?_settle_of_ne ne]
  rw [bound, order_settle h, List.filterMap_append, old]
  cases out : f.output with
  | none => rfl
  | some frame => simp [frame?_settle_self h, out]

end Bindings

/-- The binding that a visit makes, if it makes one. -/
def Visit.binding? (v : Visit) : Option (String × String) :=
  v.fragment.output.map (v.id, ·)

/-- A declared id has a node. -/
lemma Workflow.exists_node {w : Workflow} {id : String} (h : id ∈ w.ids) :
    ∃ n, w.node? id = some n ∧ n.id = id := by
  obtain ⟨n, hn, rfl⟩ := List.mem_map.1 h
  cases found : w.node? n.id with
  | none => exact absurd (List.find?_eq_none.1 found n hn) (by simp)
  | some m =>
    have hm := List.find?_some found
    exact ⟨m, rfl, of_decide_eq_true hm⟩

namespace Converter

variable {c : Converter} {w : Workflow} {budget : Budget} {id p : String} {ids xs ys : List String}

/-- The translation after visits to these ids. -/
def after (c : Converter) (w : Workflow) (ids : List String) : Translation :=
  ids.foldl (c.visit w) (c.start w)

/-- A translation visits the ids of the schedule. -/
lemma translate_eq (c : Converter) (w : Workflow) (budget : Budget) :
    c.translate w budget =
      (Schedule.ofWorkflow w budget, c.after w (Schedule.ofWorkflow w budget).order) :=
  Schedule.walk_eq w budget (c.visit w) _

/-- A translation goes on from where it was. -/
lemma after_append (xs ys : List String) :
    c.after w (xs ++ ys) = ys.foldl (c.visit w) (c.after w xs) :=
  List.foldl_append

/-- What a visit to the node with this id does. -/
lemma visit_of_node {n : Node} (hn : w.node? id = some n) (t : Translation) :
    c.visit w t id =
      { visits := t.visits ++ [c.visitNode t.bindings n]
        script := Script.emit t.script (.fragment (c.visitNode t.bindings n).fragment)
        bindings := t.bindings.settle id (c.visitNode t.bindings n).fragment
        diagnostics := t.diagnostics ++ (c.visitNode t.bindings n).fragment.diagnostics } := by
  rw [visit, hn]

/-- One more visit, to the node with this id. -/
lemma after_concat {n : Node} (hn : w.node? id = some n) :
    c.after w (xs ++ [id]) =
      { visits := (c.after w xs).visits ++ [c.visitNode (c.after w xs).bindings n]
        script := Script.emit (c.after w xs).script
          (.fragment (c.visitNode (c.after w xs).bindings n).fragment)
        bindings := (c.after w xs).bindings.settle id
          (c.visitNode (c.after w xs).bindings n).fragment
        diagnostics := (c.after w xs).diagnostics ++
          (c.visitNode (c.after w xs).bindings n).fragment.diagnostics } := by
  rw [after_append, List.foldl_cons, List.foldl_nil, visit_of_node hn]

/-- What holds at the start and is kept by each visit to a node holds all along: an id without a node
changes nothing. -/
lemma after_induction {motive : Translation → Prop} (start : motive (c.start w))
    (visit : ∀ {t id n}, w.node? id = some n → motive t → motive (c.visit w t id)) (ids : List String) :
    motive (c.after w ids) := by
  induction ids using List.reverseRecOn with
  | nil => exact start
  | append_singleton xs id ih =>
    rw [after_append, List.foldl_cons, List.foldl_nil]
    cases hn : w.node? id with
    | none =>
      rw [Converter.visit, hn]
      exact ih
    | some n => exact visit hn ih

/-- The bindings of a translation are sound all along. -/
lemma sound_after (c : Converter) (w : Workflow) (ids : List String) :
    (c.after w ids).bindings.Sound w c.options.stem := by
  apply after_induction (motive := fun t => t.bindings.Sound w c.options.stem)
  · exact .ofWorkflow w c.options.stem
  · intro t id n hn snd
    rw [visit_of_node hn]
    exact snd.settle id _

/-- What stands in the script are the fragments of the visits, behind the imports. -/
lemma script_after (c : Converter) (w : Workflow) (ids : List String) :
    (c.after w ids).script =
      Script.text c.options.imports ((c.after w ids).visits.map fun v => .fragment v.fragment) := by
  apply after_induction (motive := fun t =>
    t.script = Script.text c.options.imports (t.visits.map fun v => .fragment v.fragment))
  · rfl
  · intro t id n hn script
    simp only [visit_of_node hn, script, List.map_append, Script.text_append]
    rfl

/-- The notices are those of the visits. -/
lemma diagnostics_after (c : Converter) (w : Workflow) (ids : List String) :
    (c.after w ids).diagnostics = (c.after w ids).visits.flatMap (·.fragment.diagnostics) := by
  apply after_induction (motive := fun t => t.diagnostics = t.visits.flatMap (·.fragment.diagnostics))
  · rfl
  · intro t id n hn diagnostics
    simp only [visit_of_node hn, diagnostics, List.flatMap_append, List.flatMap_singleton]

/-- Visits bind no other ids than their own. -/
lemma frame?_foldl_visit (hp : p ∉ ids) (t : Translation) :
    (ids.foldl (c.visit w) t).bindings.frame? p = t.bindings.frame? p := by
  induction ids generalizing t with
  | nil => rfl
  | cons id ids ih =>
    rw [List.mem_cons, not_or] at hp
    rw [List.foldl_cons, ih hp.2, visit]
    split
    · rfl
    · exact Bindings.frame?_settle_of_ne hp.1

/-- What has not had its turn is not bound. -/
lemma frame?_after_of_not_mem (hp : p ∉ ids) : (c.after w ids).bindings.frame? p = none := by
  rw [after, frame?_foldl_visit hp]
  exact (Bindings.Tallies.start w c.options.stem).frame?_eq p

/-- The frame of an id that has had its turn is final. -/
lemma frame?_after_append (nodup : (xs ++ ys).Nodup) (hp : p ∈ xs) :
    (c.after w (xs ++ ys)).bindings.frame? p = (c.after w xs).bindings.frame? p := by
  rw [after_append]
  exact frame?_foldl_visit (List.disjoint_of_nodup_append nodup hp) _

/-- The node with this id is visited with the bindings after those before it. -/
lemma frame?_after_self (nodup : (xs ++ id :: ys).Nodup) {n : Node} (hn : w.node? id = some n) :
    (c.after w (xs ++ id :: ys)).bindings.frame? id =
      (c.visitNode (c.after w xs).bindings n).fragment.output := by
  rw [List.append_cons] at nodup ⊢
  rw [frame?_after_append nodup (List.mem_append_right _ List.mem_cons_self), after_concat hn]
  refine Bindings.frame?_settle_self (frame?_after_of_not_mem fun h => ?_)
  exact List.disjoint_of_nodup_append nodup.of_append_left h List.mem_cons_self

/-- There is one visit for each id. -/
lemma visits_after (decl : ∀ id ∈ ids, id ∈ w.ids) : (c.after w ids).visits.map Visit.id = ids := by
  induction ids using List.reverseRecOn with
  | nil => rfl
  | append_singleton xs id ih =>
    obtain ⟨n, hn, rfl⟩ := Workflow.exists_node (decl id (List.mem_append_right _ List.mem_cons_self))
    rw [after_concat hn, List.map_append, ih fun id h => decl id (List.mem_append_left _ h)]
    rfl

/-- The bindings are those that the visits make, in their order. -/
lemma bound_after (decl : ∀ id ∈ ids, id ∈ w.ids) (nodup : ids.Nodup) :
    (c.after w ids).bindings.bound = (c.after w ids).visits.filterMap Visit.binding? := by
  induction ids using List.reverseRecOn with
  | nil => exact Bindings.bound_ofWorkflow w c.options.stem
  | append_singleton xs id ih =>
    obtain ⟨n, hn, rfl⟩ := Workflow.exists_node (decl id (List.mem_append_right _ List.mem_cons_self))
    have new : n.id ∉ xs := fun h => List.disjoint_of_nodup_append nodup h List.mem_cons_self
    have ih := ih (fun id h => decl id (List.mem_append_left _ h)) nodup.of_append_left
    rw [after_concat hn, List.filterMap_append, ← ih]
    exact (sound_after c w xs).bound_settle (frame?_after_of_not_mem new)

/-- A visit finds the bindings after the visits before it. -/
lemma visits_after_eq {us vs : List Visit} {v : Visit} (decl : ∀ id ∈ ids, id ∈ w.ids)
    (e : (c.after w ids).visits = us ++ v :: vs) :
    ∃ xs n ys, ids = xs ++ n.id :: ys ∧ w.node? n.id = some n ∧ us = (c.after w xs).visits ∧
      v = c.visitNode (c.after w xs).bindings n := by
  induction ids using List.reverseRecOn generalizing vs with
  | nil => exact absurd e (by simp [after, start])
  | append_singleton xs id ih =>
    obtain ⟨n, hn, rfl⟩ := Workflow.exists_node (decl id (List.mem_append_right _ List.mem_cons_self))
    rw [after_concat hn] at e
    rcases concat_eq_append_cons e with ⟨rfl, rfl⟩ | ⟨_, e'⟩
    · exact ⟨xs, n, [], rfl, hn, rfl, rfl⟩
    · obtain ⟨zs, m, ys, rfl, rest⟩ := ih (fun id h => decl id (List.mem_append_left _ h)) e'
      exact ⟨zs, m, ys ++ [n.id], by simp, rest⟩

/-- With the rules of the catalog, a node goes to one of them, or it is a template or unknown. -/
lemma ruleFor_cases {motive : Rule → Prop} (std : c.rules = Rules.standard) (n : Node)
    (template : ∀ name, motive (Rule.template name))
    (catalog : ∀ {kind r}, Rules.standard kind = some r → motive r)
    (unsupported : motive Rule.unsupported) : motive (c.ruleFor n) := by
  unfold ruleFor
  cases n.template with
  | some name => exact template name
  | none =>
    rw [std]
    cases h : Rules.standard (c.classifier.classify n.plugin) with
    | some r => exact catalog h
    | none => exact unsupported

/-- The node is of this kind and has no template, and its kind goes to this rule. -/
structure Follows (c : Converter) (n : Node) (kind : Kind) (r : Rule) : Prop where
  template : n.template = none
  classified : c.classifier.classify n.plugin = kind
  rule : c.rules kind = some r

/-- A node that follows a rule is given to that rule. -/
lemma Follows.ruleFor_eq {n : Node} {kind : Kind} {r : Rule} (fol : c.Follows n kind r) :
    c.ruleFor n = r := by
  rw [ruleFor, fol.template]
  simp only [fol.classified, fol.rule, Option.getD_some]

/-! ## Translations along a schedule -/

/-- The bindings of a translation that has come to its end. -/
def final (c : Converter) (w : Workflow) (budget : Budget) : Bindings :=
  (c.after w (Schedule.ofWorkflow w budget).order).bindings

/-- In the end, the bindings are sound. -/
lemma sound_final (c : Converter) (w : Workflow) (budget : Budget) :
    (c.final w budget).Sound w c.options.stem :=
  sound_after c w _

/-- In the end, a node has the name of its frame from the stem of the options. -/
lemma frameName_final (c : Converter) (w : Workflow) (budget : Budget) (id : String) :
    (c.final w budget).frameName id = c.options.stem ++ id := by
  rw [Bindings.frameName, (sound_final c w budget).stem_eq]

/-- The nodes are visited in the order of the schedule. -/
lemma visits_translate (c : Converter) (w : Workflow) (budget : Budget) :
    (c.translate w budget).2.visits.map Visit.id = (Schedule.ofWorkflow w budget).order := by
  rw [translate_eq]
  exact visits_after fun _ h => Schedule.mem_ids_of_mem_order h

/-- A conversion finishes the translation along the schedule. -/
lemma convert_eq (c : Converter) (w : Workflow) (budget : Budget) :
    c.convert w budget =
      finish w (Schedule.ofWorkflow w budget) (c.after w (Schedule.ofWorkflow w budget).order) := by
  rw [convert, translate_eq]

/-- A budget that answers without a look at the world gives the conversion under it. -/
lemma convertM_pure {m : Type → Type} [Monad m] [LawfulMonad m] (c : Converter) (w : Workflow)
    (budget : Budget) :
    c.convertM w (fun checks visited => pure (budget checks visited)) =
      (pure (c.convert w budget) : m Conversion) := by
  rw [convertM, Schedule.walkM_pure, pure_bind]
  rfl

/-- A conversion reports the schedule that it has followed. -/
lemma schedule_convert (c : Converter) (w : Workflow) (budget : Budget) :
    (c.convert w budget).schedule = Schedule.ofWorkflow w budget :=
  congrArg Prod.fst (translate_eq c w budget)

/-- Looking up a node in the list of bindings finds the frame that it is bound to in the end. -/
lemma frame?_convert (c : Converter) (w : Workflow) (budget : Budget) (p : String) :
    (c.convert w budget).frame? p = (c.final w budget).frame? p := by
  rw [convert_eq]
  exact (sound_final c w budget).lookup_bound p

/-- The final bindings have the frames of the conversion. -/
lemma frame?_final_eq (c : Converter) (w : Workflow) (budget : Budget) :
    (c.final w budget).frame? = (c.convert w budget).frame? :=
  funext fun p => (frame?_convert c w budget p).symm

/-- The bindings of a conversion are those of its visits, in their order. -/
lemma bindings_convert (c : Converter) (w : Workflow) (budget : Budget) :
    (c.convert w budget).bindings = (c.translate w budget).2.visits.filterMap Visit.binding? := by
  have bindings : (c.convert w budget).bindings = (c.translate w budget).2.bindings.bound := rfl
  rw [bindings, translate_eq]
  exact bound_after (fun _ h => Schedule.mem_ids_of_mem_order h) (Schedule.order_nodup w budget)

/-- What is said about a run as a whole goes into the script in three parts. -/
lemma script_finish (w : Workflow) (schedule : Schedule) (t : Translation) :
    (finish w schedule t).script =
      List.foldl Script.emit t.script
        ([.summary t.bindings.frames] ++ (if schedule.timedOut then [.timeout] else []) ++
          [.unprocessed schedule.unprocessed]) := by
  cases out : schedule.timedOut <;> cases left : schedule.unprocessed <;>
    simp [finish, out, left, Script.emit_unprocessed_nil]

/-- About a run as a whole there are up to two notices. -/
lemma diagnostics_finish (w : Workflow) (schedule : Schedule) (t : Translation) :
    (finish w schedule t).diagnostics =
      t.diagnostics ++
        (if schedule.timedOut then [timeoutNotice schedule.order.length w.nodes.length] else []) ++
        (if schedule.unprocessed.isEmpty then [] else [unprocessedNotice schedule.unprocessed]) := by
  cases out : schedule.timedOut <;> cases left : schedule.unprocessed <;> simp [finish, out, left]

/-- The notices of the visits, and then those about the run as a whole. -/
lemma diagnostics_convert (c : Converter) (w : Workflow) (budget : Budget) :
    (c.convert w budget).diagnostics =
      (c.translate w budget).2.visits.flatMap (·.fragment.diagnostics) ++
        (if (c.convert w budget).schedule.timedOut then
          [timeoutNotice (c.convert w budget).schedule.order.length w.nodes.length] else []) ++
        (if (c.convert w budget).schedule.unprocessed.isEmpty then []
          else [unprocessedNotice (c.convert w budget).schedule.unprocessed]) := by
  rw [schedule_convert, convert_eq, diagnostics_finish, diagnostics_after, translate_eq]

/-- The frames that a conversion lists are those of its bindings. -/
lemma frames_final (c : Converter) (w : Workflow) (budget : Budget) :
    (c.final w budget).frames = (c.convert w budget).bindings.map Prod.snd := by
  rw [convert_eq, Bindings.frames_eq]
  rfl

/-- The script has the fragments of the visits, and then what is to say about the run as a whole. -/
lemma script_convert (c : Converter) (w : Workflow) (budget : Budget) :
    (c.convert w budget).script = Script.text c.options.imports
      (((c.translate w budget).2.visits.map Visit.fragment).map .fragment ++
        [.summary ((c.convert w budget).bindings.map Prod.snd)] ++
        (if (c.convert w budget).schedule.timedOut then [.timeout] else []) ++
        [.unprocessed (c.convert w budget).schedule.unprocessed]) := by
  rw [schedule_convert, ← frames_final, convert_eq, script_finish, script_after, ← Script.text_append,
    translate_eq, List.map_map, final]
  simp only [List.append_assoc]
  rfl

/-- By lines, the script has the imports and an empty line; then the comments and statements of each
visit; then the frames of the bindings; then a remark about the time if the budget ran out, and one about
the nodes left over if there are any. -/
lemma script_eq_unlines (c : Converter) (w : Workflow) (budget : Budget) :
    (c.convert w budget).script = Script.unlines (
      c.options.imports ++ [""] ++
      (c.translate w budget).2.visits.flatMap (·.fragment.lines) ++
      ["", "# " ++ ("Available DataFrames: " ++
        String.intercalate ", " ((c.convert w budget).bindings.map Prod.snd))] ++
      (if (c.convert w budget).schedule.timedOut then ["", "# " ++
        "Conversion timed out. Some nodes may not have been processed due to potential cycles."]
        else []) ++
      (if (c.convert w budget).schedule.unprocessed = [] then [] else ["", "# " ++
        ("The following nodes could not be processed (cyclic or missing dependencies): " ++
          String.intercalate ", " (c.convert w budget).schedule.unprocessed)])) := by
  rw [script_convert, Script.text_eq_unlines]
  simp only [List.flatMap_append, List.flatMap_map, List.flatMap_singleton, List.append_assoc,
    Script.Part.lines]
  split
  · rfl
  · rfl

/-- What a visit finds about its inputs is what stands in the end. -/
lemma agreeAt_final (e : (Schedule.ofWorkflow w budget).order = xs ++ id :: ys) :
    (c.after w xs).bindings.AgreeAt id (c.final w budget) := by
  refine (sound_after c w xs).agreeAt (sound_final c w budget) rfl fun edge he hd => ?_
  have nodup := Schedule.order_nodup w budget
  rw [e] at nodup
  rw [final, e]
  exact (frame?_after_append nodup ((Schedule.ready_of_order_eq e).2 edge he hd)).symm

/-! ## The visits of a translation -/

variable {u v : Visit}

/-- A visit is made once, to a declared node that no earlier visit has bound. -/
lemma exists_visitNode (hv : v ∈ (c.translate w budget).2.visits) :
    ∃ xs n ys, (Schedule.ofWorkflow w budget).order = xs ++ n.id :: ys ∧ n.id ∉ xs ∧
      w.node? n.id = some n ∧ v = c.visitNode (c.after w xs).bindings n := by
  obtain ⟨us, vs, e⟩ := List.append_of_mem hv
  rw [translate_eq] at e
  obtain ⟨xs, n, ys, order, hn, -, rfl⟩ :=
    visits_after_eq (fun _ h => Schedule.mem_ids_of_mem_order h) e
  have nodup := Schedule.order_nodup w budget
  rw [order] at nodup
  have new : n.id ∉ xs := fun h => List.disjoint_of_nodup_append nodup h List.mem_cons_self
  exact ⟨xs, n, ys, order, new, hn, rfl⟩

/-- The node of a visit is the one that is found by its id. -/
lemma node_visit (hv : v ∈ (c.translate w budget).2.visits) : w.node? v.id = some v.context.node := by
  obtain ⟨xs, n, ys, -, -, hn, rfl⟩ := exists_visitNode hv
  exact hn

/-- A visited id is bound to the output of its fragment. -/
lemma frame?_convert_visit (hv : v ∈ (c.translate w budget).2.visits) :
    (c.convert w budget).frame? v.id = v.fragment.output := by
  obtain ⟨xs, n, ys, order, -, hn, rfl⟩ := exists_visitNode hv
  have nodup := Schedule.order_nodup w budget
  rw [order] at nodup
  rw [frame?_convert, final, order]
  exact frame?_after_self nodup hn

/-- A node is not bound when it is visited, so that it can be bound to anything. -/
lemma bind_visit (hv : v ∈ (c.translate w budget).2.visits) (frame : String) :
    (v.context.bindings.bind v.id frame).1 = .ok () := by
  obtain ⟨xs, n, -, -, new, -, rfl⟩ := exists_visitNode hv
  have unbound : (c.after w xs).bindings.frame? n.id = none := frame?_after_of_not_mem new
  show ((c.after w xs).bindings.bind n.id frame).1 = .ok ()
  rw [Bindings.bind_of_none unbound]

/-- A node is in the order of the schedule if it was visited. -/
lemma mem_order_iff :
    id ∈ (c.convert w budget).schedule.order ↔ ∃ v ∈ (c.translate w budget).2.visits, v.id = id := by
  rw [schedule_convert, ← visits_translate c, List.mem_map]

/-- No node is visited twice. -/
lemma visit_eq (hu : u ∈ (c.translate w budget).2.visits) (hv : v ∈ (c.translate w budget).2.visits)
    (e : u.id = v.id) : u = v := by
  have nodup := Schedule.order_nodup w budget
  rw [← visits_translate c] at nodup
  exact List.inj_on_of_nodup_map nodup hu hv e

end Converter

/-! ## Documents -/

/-- A document with the root of a workflow is converted from start to end. -/
lemma convertDocument_eq {clock : Clock} {options : Options} {source : String} {document : Element}
    {w : Workflow} (parsed : Markup.parse source = .ok document)
    (built : Workflow.ofDocument document = .ok w) :
    convertDocument clock options source =
      { script := (Converter.convert { options } w (options.limit.budget clock)).script
        graph := some (Graph.ofWorkflow w)
        diagnostics := (Converter.convert { options } w (options.limit.budget clock)).diagnostics } := by
  simp only [convertDocument, readWorkflow, parsed, built]
  rfl

/-- By a clock whose times are known beforehand, a limit answers as its budget does. -/
lemma Limit.ask_pure {m : Type → Type} [Monad m] [LawfulMonad m] (limit : Limit) (clock : Clock) :
    limit.ask (fun checks => pure (clock checks)) =
      fun checks visited => (pure (limit.budget clock checks visited) : m Bool) := by
  funext checks visited
  rw [ask, pure_bind]
  cases limit with
  | unlimited => rfl
  | steps nodes => rfl
  | deadline milliseconds => rfl

/-- A clock whose times are known beforehand may as well be handed over at the start: looking at it before
each visit leads to the same conversion. -/
lemma convertDocumentM_pure {m : Type → Type} [Monad m] [LawfulMonad m] (clock : Clock)
    (options : Options) (source : String) :
    convertDocumentM (pure fun checks => pure (clock checks)) options source =
      (pure (convertDocument clock options source) : m DocumentConversion) := by
  rw [convertDocumentM, convertDocument]
  cases readWorkflow source with
  | error script => rfl
  | ok w => simp only [pure_bind, Limit.ask_pure, Converter.convertM_pure]

end Flowscript
