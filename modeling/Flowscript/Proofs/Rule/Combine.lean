import Flowscript.Proofs.Rule.Local
import Mathlib.Data.List.Perm.Basic

/-!
# Joins and unions

What the rules that combine inputs make of the edges into a node. A join needs two edges, a key for
each side and a frame for each origin (`Joinable`); it merges the frames of the two edges, each edge on
one side (`join_of_joinable`), and declines otherwise (`join_of_not_joinable`). The edges change sides
just when both anchors say so (`joinSides_eq`); the anchors are kept unless one edge alone has an anchor
and stands where the other side goes (`keepsAnchor_iff`). A union stacks the frames of its predecessors if
there are two or more, and declines otherwise (`union_of_two_le`, `union_of_lt_two`).
-/

namespace Flowscript.Rule

/-- The settings give this key for a side: the first entry for the side has a field, and the first of
its fields has the key for its text, or, if it has no text, for its attribute. -/
def HasKey (config : Element) (side key : String) : Prop :=
  ∃ info field,
    (config.childrenNamed "JoinInfo").find? (·.attr "connection" = some side) = some info ∧
    info.child "Field" = some field ∧ key ≠ "" ∧
    (field.text = some key ∨ field.text.getD "" = "" ∧ field.attr "field" = some key)

/-- Two edges, a key for each side, and a frame for each origin. -/
structure Joinable (config : Element) (edges : List Edge) (frame? : String → Option String) :
    Prop where
  two : edges.length = 2
  left : ∃ key, HasKey config "Left" key
  right : ∃ key, HasKey config "Right" key
  bound : ∀ e ∈ edges, (frame? e.origin).isSome

/-- The statement that merges two frames on a key for each. -/
def merge (output left right leftKey rightKey : String) : String :=
  output ++ " = pd.merge(" ++ left ++ ", " ++ right ++ ", left_on=\"" ++ leftKey ++ "\", right_on=\"" ++
    rightKey ++ "\", how=\"inner\")"

/-- A merge begins like an assignment to its output. -/
lemma merge_eq (output left right leftKey rightKey : String) :
    ∃ rest, merge output left right leftKey rightKey = output ++ " = pd.merge(" ++ rest := by
  refine ⟨left ++ ", " ++ right ++ ", left_on=\"" ++ leftKey ++ "\", right_on=\"" ++ rightKey ++
    "\", how=\"inner\")", ?_⟩
  rw [merge]
  simp only [String.append_assoc]

/-- The assignment that a join makes is a merge. -/
lemma assign_merge (output left right leftKey rightKey : String) :
    Statement.assign output ("pd.merge(" ++ left ++ ", " ++ right ++ ", left_on=\"" ++ leftKey ++
      "\", right_on=\"" ++ rightKey ++ "\", how=\"inner\")") =
        merge output left right leftKey rightKey := by
  have mark : " = pd.merge(" = " = " ++ "pd.merge(" := rfl
  rw [Statement.assign, merge, mark]
  simp only [String.append_assoc]

/-- A text that is not empty goes before what stands in for it. -/
lemma nonempty_orElse {text fallback : Option String} {key : String} :
    nonempty (nonempty text <|> fallback) = some key ↔
      key ≠ "" ∧ (text = some key ∨ text.getD "" = "" ∧ fallback = some key) := by
  rw [nonempty, Option.filter_eq_some_iff, decide_eq_true_eq, and_comm]
  refine and_congr_right fun ne => ?_
  cases text with
  | none => simp [nonempty]
  | some s =>
    by_cases empty : s = ""
    · have other : "" ≠ key := ne.symm
      simp [nonempty, empty, other]
    · have kept : s = key → key ≠ "" := fun _ => ne
      simpa [nonempty, empty] using kept

/-- The rule reads the key of a side from the settings. -/
lemma joinField?_eq_some {config : Element} {side key : String} :
    joinField? config side = some key ↔ HasKey config side key := by
  simp only [joinField?, HasKey, Element.nonemptyText, Option.bind_eq_bind, Option.bind_eq_some_iff,
    nonempty_orElse]
  constructor
  · rintro ⟨info, found, field, first, key⟩
    exact ⟨info, field, found, first, key⟩
  · rintro ⟨info, field, found, first, key⟩
    exact ⟨info, found, field, first, key⟩

/-! ## The sides of a join -/

/-- The edges of the left and the right side: they change places if both anchors say so. -/
def sides (first second : Edge) : Edge × Edge :=
  if first.destAnchor = some "Right" ∧ second.destAnchor = some "Left" then (second, first)
  else (first, second)

/-- If one edge alone has the anchor of a side, the operand of the side is the frame of its origin. -/
def KeepsAnchor (first second : Edge) (frame? : String → Option String) (side operand : String) :
    Prop :=
  ∀ p ∈ [(first, second), (second, first)], p.1.destAnchor = some side →
    p.2.destAnchor ≠ some side → frame? p.1.origin = some operand

/-- One edge alone has an anchor, and it stands where the other side goes. -/
def Displaced (first second : Edge) : Prop :=
  (first.destAnchor = some "Right" ∧ second.destAnchor ≠ some "Left" ∧
    second.destAnchor ≠ some "Right") ∨
  (second.destAnchor = some "Left" ∧ first.destAnchor ≠ some "Left" ∧
    first.destAnchor ≠ some "Right")

variable {first second : Edge}

/-- The sides that the rule takes are the origins of the two edges, exchanged if both anchors say so. -/
lemma joinSides_eq (first second : Edge) :
    joinSides first second = ((sides first second).1.origin, (sides first second).2.origin) := by
  unfold joinSides anchored? sides
  -- Only right before left is put the other way round; all other pairs keep their order.
  by_cases left : first.destAnchor = some "Left"
  · by_cases right' : second.destAnchor = some "Right"
    · simp [left, right']
    · simp [left, right']
  · by_cases right : first.destAnchor = some "Right"
    · by_cases left' : second.destAnchor = some "Left"
      · simp [right, left']
      · simp [right, left']
    · by_cases left' : second.destAnchor = some "Left"
      · simp [left, right, left']
      · simp [left, right, left']

/-- Each edge is on one of the sides. -/
lemma sides_perm (first second : Edge) :
    [(sides first second).1, (sides first second).2].Perm [first, second] := by
  unfold sides
  split
  · exact .swap first second []
  · exact .refl _

/-- With an anchor for each side, it does not matter which edge comes first. -/
lemma joinSides_exchange
    (anchors : first.destAnchor = some "Left" ∧ second.destAnchor = some "Right" ∨
      first.destAnchor = some "Right" ∧ second.destAnchor = some "Left") :
    joinSides first second = joinSides second first := by
  rw [joinSides_eq, joinSides_eq, sides, sides]
  rcases anchors with ⟨left, right⟩ | ⟨right, left⟩
  · simp [left, right]
  · simp [left, right]

/-- The anchors are kept, unless an edge that alone has one is displaced. -/
lemma keepsAnchor_iff {frame? : String → Option String} {left right : String}
    (hl : frame? (sides first second).1.origin = some left)
    (hr : frame? (sides first second).2.origin = some right) :
    KeepsAnchor first second frame? "Left" left ∧ KeepsAnchor first second frame? "Right" right ↔
      (Displaced first second → frame? first.origin = frame? second.origin) := by
  simp only [KeepsAnchor, List.forall_mem_cons, Displaced]
  unfold sides at hl hr
  split at hl
  · next crossed =>
    rw [if_pos crossed] at hr
    simp [crossed.1, crossed.2, hl, hr]
  · next straight =>
    rw [if_neg straight] at hr
    simp only [hl, hr]
    -- The sides go by the order of the edges: what is left is to tell the anchors apart.
    grind

/-! ## Joins -/

variable {c : Context}

/-- A join that can be made merges the frames of its sides. -/
lemma join_of_joinable
    (jn : Joinable c.config (c.bindings.incomingEdges c.node.id) c.bindings.frame?) :
    ∃ first second left right leftKey rightKey,
      c.bindings.incomingEdges c.node.id = [first, second] ∧
      c.bindings.frame? (sides first second).1.origin = some left ∧
      c.bindings.frame? (sides first second).2.origin = some right ∧
      HasKey c.config "Left" leftKey ∧ HasKey c.config "Right" rightKey ∧
      join c = .bound c.output [merge c.output left right leftKey rightKey] := by
  obtain ⟨two, ⟨leftKey, hl⟩, ⟨rightKey, hr⟩, bound⟩ := jn
  obtain ⟨first, second, edges⟩ := List.length_eq_two.1 two
  have frame : ∀ e ∈ [(sides first second).1, (sides first second).2],
      ∃ frame, c.bindings.frame? e.origin = some frame := by
    intro e he
    rw [(sides_perm first second).mem_iff, ← edges] at he
    exact Option.isSome_iff_exists.1 (bound e he)
  obtain ⟨left, fl⟩ := frame _ List.mem_cons_self
  obtain ⟨right, fr⟩ := frame _ (List.mem_cons_of_mem _ List.mem_cons_self)
  refine ⟨first, second, left, right, leftKey, rightKey, edges, fl, fr, hl, hr, ?_⟩
  simp only [join, edges, joinField?_eq_some.2 hl, joinField?_eq_some.2 hr, joinSides_eq, joinFrames,
    fl, fr, assign_merge]

/-- A join that lacks an edge, a key or a frame leaves no statements and no output. -/
lemma join_of_not_joinable
    (h : ¬ Joinable c.config (c.bindings.incomingEdges c.node.id) c.bindings.frame?) :
    ∃ diagnostics, join c = .declined diagnostics := by
  unfold join
  split
  · next first second edges =>
    split
    · next leftKey rightKey hl hr =>
      rw [joinSides_eq, joinFrames]
      split
      · next left right fl fr =>
        refine absurd ?_ h
        refine ⟨congrArg List.length edges, ⟨_, joinField?_eq_some.1 hl⟩,
          ⟨_, joinField?_eq_some.1 hr⟩, ?_⟩
        intro e he
        rw [edges, ← (sides_perm first second).mem_iff] at he
        rcases List.mem_cons.1 he with rfl | he
        · exact Option.isSome_of_eq_some fl
        · rw [List.mem_singleton.1 he]
          exact Option.isSome_of_eq_some fr
      · exact ⟨_, rfl⟩
    · exact ⟨_, rfl⟩
  · exact ⟨_, rfl⟩

/-- With an anchor for each side, a join is the same for both orders of its edges. -/
lemma join_exchange {b : Bindings}
    (edges : c.bindings.incomingEdges c.node.id = [first, second])
    (edges' : b.incomingEdges c.node.id = [second, first])
    (anchors : first.destAnchor = some "Left" ∧ second.destAnchor = some "Right" ∨
      first.destAnchor = some "Right" ∧ second.destAnchor = some "Left")
    (frames : ∀ e ∈ [first, second], b.frame? e.origin = c.bindings.frame? e.origin) :
    join { c with bindings := b } = join c := by
  have config : ({ c with bindings := b } : Context).config = c.config := rfl
  have frame : ∀ e ∈ [(sides first second).1, (sides first second).2],
      b.frame? e.origin = c.bindings.frame? e.origin :=
    fun e he => frames e ((sides_perm first second).mem_iff.1 he)
  simp only [join, edges, edges', config, ← joinSides_exchange anchors]
  split
  · rw [joinSides_eq]
    apply joinFrames_congr
    · exact frame _ List.mem_cons_self
    · exact frame _ (List.mem_cons_of_mem _ List.mem_cons_self)
  · rfl

/-! ## Unions -/

/-- A union with two frames or more puts them one after the other. -/
lemma union_of_two_le {frames : List String}
    (hf : (c.bindings.incoming c.node.id).filterMap c.bindings.frame? = frames)
    (two : 2 ≤ frames.length) :
    union c =
      { statements := [c.output ++ " = pd.concat([" ++ String.intercalate ", " frames ++
          "], ignore_index=True)"]
        output := some c.output
        diagnostics := ((c.bindings.incoming c.node.id).filter fun p =>
          (c.bindings.frame? p).isNone).map c.unboundInput } := by
  have mark : " = pd.concat([" = " = " ++ "pd.concat([" := rfl
  simp only [union, hf, Nat.not_lt.2 two, if_false, Statement.assign, mark, String.append_assoc]

/-- A union with fewer frames declines, and its last warning is about their number. -/
lemma union_of_lt_two {frames : List String}
    (hf : (c.bindings.incoming c.node.id).filterMap c.bindings.frame? = frames)
    (lt : frames.length < 2) :
    ∃ d, d.code = .inputCardinality ∧ union c = .declined (((c.bindings.incoming c.node.id).filter
      fun p => (c.bindings.frame? p).isNone).map c.unboundInput ++ [d]) := by
  simp only [union, hf, lt, if_true]
  exact ⟨_, rfl, rfl⟩

end Flowscript.Rule
