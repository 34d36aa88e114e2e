import Flowscript.Proofs.Conversion.Translation
import Flowscript.Proofs.Rule.Answer

/-!
# Nothing is dropped silently

With the rules of the catalog, a declared id has exactly one of three outcomes (`Outcome`): it is bound
to its frame by statements, it is declined with a warning, or it is left over by the schedule. The
bindings are those of the first kind, in the order of the schedule, and each notice is about the node
that it comes from, or about the run as a whole (`nothing_dropped`).
-/

namespace Flowscript

/-- What can come of a declared id. -/
inductive Outcome where
  | bound
  | declined
  | unprocessed
deriving DecidableEq, Repr

/-- The warning about an input is about the node that reads it. -/
lemma Bindings.inputOf_about {b : Bindings} {id : String} {d : Diagnostic}
    (hd : d ∈ (b.inputOf id).2) : d.About id := by
  unfold inputOf at hd
  split at hd
  · cases hd
  · cases hd
  · cases hd
    exact ⟨rfl, show Code.unboundInput ∉ Code.ofRun by decide⟩

namespace Converter

variable {c : Converter} {w : Workflow} {budget : Budget} {id : String} {v : Visit}

/-- If the rule of a node answers for it, so does its fragment. -/
lemma fragmentOf_answers {n : Node} (answers : (c.ruleFor n).Answers) (b : Bindings) :
    (c.fragmentOf b n).Answers n.id (b.frameName n.id) :=
  (answers (c.contextOf b n)).withInputWarning fun _ => Bindings.inputOf_about

/-- Each visit of the standard rules is answered. -/
lemma visit_answers (std : c.rules = Rules.standard) (hv : v ∈ (c.translate w budget).2.visits) :
    v.fragment.Answers v.id (c.options.stem ++ v.id) := by
  obtain ⟨xs, n, -, -, -, -, rfl⟩ := exists_visitNode hv
  rw [← (sound_after c w xs).stem_eq]
  apply fragmentOf_answers
  exact ruleFor_cases std n Rule.template_answers Rules.standard_answers Rule.unsupported_answers

/-! ## Outcomes -/

/-- What has come of an id: it was visited and is bound to its frame, by statements; it was visited and
is not bound, without statements and with a warning about it; or it was left over. -/
def HasOutcome (c : Converter) (w : Workflow) (budget : Budget) (id : String) : Outcome → Prop
  | .bound => ∃ v ∈ (c.translate w budget).2.visits, v.id = id ∧ v.fragment.statements ≠ [] ∧
      (c.convert w budget).frame? id = some (c.options.stem ++ id)
  | .declined => ∃ v ∈ (c.translate w budget).2.visits, v.id = id ∧ v.fragment.statements = [] ∧
      (c.convert w budget).frame? id = none ∧
      ∃ d ∈ v.fragment.diagnostics, d.category = .structural ∧ d.nodeId = some id
  | .unprocessed => id ∈ (c.convert w budget).schedule.unprocessed

instance (c : Converter) (w : Workflow) (budget : Budget) (id : String) (o : Outcome) :
    Decidable (c.HasOutcome w budget id o) :=
  match o with
  | .bound => inferInstanceAs (Decidable (∃ v ∈ _, _))
  | .declined => inferInstanceAs (Decidable (∃ v ∈ _, _))
  | .unprocessed => inferInstanceAs (Decidable (_ ∈ _))

/-- An outcome other than being left over belongs to a visited id. -/
lemma HasOutcome.mem_order {o : Outcome} (h : c.HasOutcome w budget id o) (ne : o ≠ .unprocessed) :
    id ∈ (c.convert w budget).schedule.order := by
  cases o with
  | bound =>
    obtain ⟨v, hv, e, _⟩ := h
    exact mem_order_iff.2 ⟨v, hv, e⟩
  | declined =>
    obtain ⟨v, hv, e, _⟩ := h
    exact mem_order_iff.2 ⟨v, hv, e⟩
  | unprocessed => exact absurd rfl ne

/-- An id has no two outcomes. -/
lemma HasOutcome.unique {o o' : Outcome} (h : c.HasOutcome w budget id o)
    (h' : c.HasOutcome w budget id o') : o = o' := by
  have apart : ∀ {o}, c.HasOutcome w budget id o → o ≠ .unprocessed →
      ¬ c.HasOutcome w budget id .unprocessed := by
    intro o h ne left
    have visited := h.mem_order ne
    rw [HasOutcome, schedule_convert] at left
    rw [schedule_convert] at visited
    exact (Schedule.mem_unprocessed.1 left).2 visited
  have frames : c.HasOutcome w budget id .bound → ¬ c.HasOutcome w budget id .declined := by
    rintro ⟨_, _, _, _, some⟩ ⟨_, _, _, _, none, _⟩
    exact Option.some_ne_none _ (some.symm.trans none)
  cases o with
  | bound =>
    cases o' with
    | bound => rfl
    | declined => exact absurd h' (frames h)
    | unprocessed => exact absurd h' (apart h nofun)
  | declined =>
    cases o' with
    | bound => exact absurd h (frames h')
    | declined => rfl
    | unprocessed => exact absurd h' (apart h nofun)
  | unprocessed =>
    by_contra ne
    exact apart h' (Ne.symm ne) h

/-- What the rule answers for a visited id is its outcome. -/
lemma hasOutcome_visit (std : c.rules = Rules.standard)
    (hv : v ∈ (c.translate w budget).2.visits) :
    (c.HasOutcome w budget v.id .bound ∧ v.binding? = some (v.id, c.options.stem ++ v.id)) ∨
    (c.HasOutcome w budget v.id .declined ∧ v.binding? = none) := by
  have frame := frame?_convert_visit hv
  have answers := visit_answers std hv
  rcases answers.outcome with ⟨out, ne⟩ | ⟨out, none, d, hd, cat⟩
  · refine .inl ⟨⟨v, hv, rfl, ne, frame.trans out⟩, ?_⟩
    rw [Visit.binding?, out]
    rfl
  · refine .inr ⟨⟨v, hv, rfl, none, frame.trans out, d, hd, cat, (answers.about d hd).nodeId⟩, ?_⟩
    rw [Visit.binding?, out]
    rfl

/-- With the rules of the catalog, a declared id has an outcome. -/
lemma exists_hasOutcome (std : c.rules = Rules.standard) (hid : id ∈ w.ids) :
    ∃ o, c.HasOutcome w budget id o := by
  by_cases ho : id ∈ (c.convert w budget).schedule.order
  · obtain ⟨v, hv, rfl⟩ := mem_order_iff.1 ho
    rcases hasOutcome_visit std hv with ⟨h, _⟩ | ⟨h, _⟩
    · exact ⟨.bound, h⟩
    · exact ⟨.declined, h⟩
  · refine ⟨.unprocessed, ?_⟩
    rw [schedule_convert] at ho
    rw [HasOutcome, schedule_convert]
    exact Schedule.mem_unprocessed.2 ⟨hid, ho⟩

/-- With the rules of the catalog, the bindings are the ids of the order that come out bound, each with
its own frame. -/
lemma bindings_eq (std : c.rules = Rules.standard) (w : Workflow) (budget : Budget) :
    (c.convert w budget).bindings =
      ((c.convert w budget).schedule.order.filter (c.HasOutcome w budget · .bound)).map
        fun id => (id, c.options.stem ++ id) := by
  have binding : ∀ v ∈ (c.translate w budget).2.visits, v.binding? =
      if c.HasOutcome w budget v.id .bound then some (v.id, c.options.stem ++ v.id) else none := by
    intro v hv
    rcases hasOutcome_visit std hv with ⟨h, e⟩ | ⟨h, e⟩
    · rw [if_pos h, e]
    · rw [if_neg (fun h' => nomatch h'.unique h), e]
  rw [bindings_convert, schedule_convert, ← visits_translate c, List.filterMap_congr binding,
    List.filter_map, List.map_map, ← List.filterMap_eq_map, List.filterMap_filter]
  simp only [Function.comp_apply, decide_eq_true_eq]

/-- With the rules of the catalog, no two nodes are bound to the same frame. -/
lemma frames_nodup (std : c.rules = Rules.standard) (w : Workflow) (budget : Budget) :
    ((c.convert w budget).bindings.map Prod.snd).Nodup := by
  rw [bindings_eq std, List.map_map]
  refine List.Nodup.map ?_ ?_
  · intro id id' e
    exact String.append_right_inj _ |>.1 e
  · rw [schedule_convert]
    exact (Schedule.order_nodup w budget).filter _

/-- With the rules of the catalog, every declared id has exactly one outcome: bound, declined with a
warning, or left over. The bindings are the ids that come out bound, in the order of the schedule, with
distinct frames; binding a node never fails. The notices are those of the visited nodes, each about its
node, in the order of the schedule; then comes one about the time if the budget ran out, and one about
the nodes left over if there are any, as there are in a run that the budget stopped. The script has the
statements of every visited node, in the same order, and remarks of the same kinds behind them. -/
theorem nothing_dropped (c : Converter) (std : c.rules = Rules.standard) (w : Workflow)
    (budget : Budget) :
    (c.translate w budget).2.visits.map Visit.id = (c.convert w budget).schedule.order ∧
    (∀ id ∈ w.ids, ∃! o, c.HasOutcome w budget id o) ∧
    (c.convert w budget).bindings =
      ((c.convert w budget).schedule.order.filter (c.HasOutcome w budget · .bound)).map
        (fun id => (id, c.options.stem ++ id)) ∧
    ((c.convert w budget).bindings.map Prod.snd).Nodup ∧
    (∀ v ∈ (c.translate w budget).2.visits,
      (∀ frame, v.fragment.output = some frame →
        (v.context.bindings.bind v.id frame).1 = .ok ()) ∧
      ∀ d ∈ v.fragment.diagnostics, d.nodeId = some v.id) ∧
    (∃ timeout unprocessed, (c.convert w budget).diagnostics =
        (c.translate w budget).2.visits.flatMap (·.fragment.diagnostics) ++ timeout ++ unprocessed ∧
      timeout.map (·.code.text) =
        (if (c.convert w budget).schedule.timedOut then ["W0301"] else []) ∧
      unprocessed.map (·.code.text) =
        (if (c.convert w budget).schedule.unprocessed = [] then [] else ["W0300"])) ∧
    ((c.convert w budget).schedule.timedOut → (c.convert w budget).schedule.unprocessed ≠ []) ∧
    (c.convert w budget).script = Script.unlines (
      c.options.imports ++ [""] ++
      (c.translate w budget).2.visits.flatMap (·.fragment.lines) ++
      ["", "# " ++ ("Available DataFrames: " ++
        String.intercalate ", " ((c.convert w budget).bindings.map Prod.snd))] ++
      (if (c.convert w budget).schedule.timedOut then ["", "# " ++
        "Conversion timed out. Some nodes may not have been processed due to potential cycles."]
        else []) ++
      (if (c.convert w budget).schedule.unprocessed = [] then [] else ["", "# " ++
        ("The following nodes could not be processed (cyclic or missing dependencies): " ++
          String.intercalate ", " (c.convert w budget).schedule.unprocessed)])) := by
  refine ⟨?_, ?_, bindings_eq std w budget, frames_nodup std w budget, ?_, ?_, ?_,
    script_eq_unlines c w budget⟩
  · rw [schedule_convert, visits_translate]
  · intro id hid
    obtain ⟨o, h⟩ := exists_hasOutcome std hid
    exact ⟨o, h, fun o' h' => h'.unique h⟩
  · intro v hv
    refine ⟨fun frame _ => bind_visit hv frame, fun d hd => ?_⟩
    exact ((visit_answers std hv).about d hd).nodeId
  · refine ⟨_, _, diagnostics_convert c w budget, ?_, ?_⟩
    · split
      · rfl
      · rfl
    · cases (c.convert w budget).schedule.unprocessed with
      | nil => rfl
      | cons id ids => rfl
  · rw [schedule_convert]
    exact Schedule.unprocessed_ne_nil

/-- A source without a file, a formula that reads from it, and a loop. -/
def patchy : Workflow where
  nodes := [{ id := "f", plugin := "Formula" }, { id := "x", plugin := "Sort" },
    { id := "s", plugin := "DbFileInput" }]
  edges := [{ origin := "s", dest := "f" }, { origin := "x", dest := "x" }]

/-- Each of the three outcomes, and no other for these ids; the script has the statement of the formula
and names what is left over. -/
theorem nothing_dropped_patchy :
    HasOutcome {} patchy .unlimited "s" .declined ∧ HasOutcome {} patchy .unlimited "f" .bound ∧
    HasOutcome {} patchy .unlimited "x" .unprocessed ∧
    (∀ o, HasOutcome {} patchy .unlimited "s" o → o = .declined) ∧
    (convert {} patchy .unlimited).bindings = [("f", "df_tool_f")] ∧
    (convert {} patchy .unlimited).script = Script.unlines (
      Options.imports {} ++
      ["", "df_tool_f = df_tool_s.copy()", "", "# Available DataFrames: df_tool_f", "",
        "# The following nodes could not be processed (cyclic or missing dependencies): x"]) := by
  obtain ⟨-, outcomes, bindings, -, -, -, -, script⟩ := nothing_dropped {} rfl patchy .unlimited
  have declined : HasOutcome {} patchy .unlimited "s" .declined := by decide +kernel
  have bound : HasOutcome {} patchy .unlimited "f" .bound := by decide +kernel
  refine ⟨declined, bound, by decide +kernel, ?_, ?_, script.trans (congrArg Script.unlines ?_)⟩
  · intro o h
    exact (outcomes "s" (by decide)).unique h declined
  · rw [bindings]
    decide +kernel
  · decide +kernel

end Converter

end Flowscript
