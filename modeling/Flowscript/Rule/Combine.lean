import Flowscript.Rule.Basic

/-!
# Combining inputs

Rules for nodes with several inputs. They look up the frames of their predecessors themselves, and
warn about each predecessor without one.
-/

namespace Flowscript.Rule

/-- Puts the rows of all inputs one after the other, in the order of the edges. At least two inputs
must have a frame. -/
def union : Rule := fun c =>
  let predecessors := c.bindings.incoming c.node.id
  let frames := predecessors.filterMap c.bindings.frame?
  let unbound := (predecessors.filter fun p => (c.bindings.frame? p).isNone).map c.unboundInput
  if frames.length < 2 then
    .declined <| unbound ++ [c.warning .inputCardinality
      ("Union node " ++ c.node.id ++ " needs at least 2 bound inputs but has " ++
        toString frames.length)]
  else
    { statements := [Statement.assign c.output
        ("pd.concat([" ++ String.intercalate ", " frames ++ "], ignore_index=True)")]
      output := some c.output
      diagnostics := unbound }

/-- The key field for one side of a join. -/
def joinField? (config : Element) (side : String) : Option String := do
  let info ← (config.childrenNamed "JoinInfo").find? fun i => i.attr "connection" = some side
  let field ← info.child "Field"
  nonempty (field.nonemptyText <|> field.attr "field")

/-- The origin of the first edge that ends at this anchor. -/
def anchored? (first second : Edge) (side : String) : Option String :=
  ([first, second].find? fun e => e.destAnchor = some side).map Edge.origin

/-- The origins of the left and the right side: by their anchors if both sides have one, else by the
order of the edges. -/
def joinSides (first second : Edge) : String × String :=
  match anchored? first second "Left", anchored? first second "Right" with
  | some left, some right => (left, right)
  | _, _ => (first.origin, second.origin)

/-- Joins the frames of two sides on their key fields. -/
def joinFrames (c : Context) (sides : String × String) (leftField rightField : String) :
    Fragment :=
  match c.bindings.frame? sides.1, c.bindings.frame? sides.2 with
  | some left, some right =>
    .bound c.output [Statement.assign c.output
      ("pd.merge(" ++ left ++ ", " ++ right ++ ", left_on=\"" ++ leftField ++ "\", right_on=\"" ++
        rightField ++ "\", how=\"inner\")")]
  | _, _ =>
    .declined <|
      ([sides.1, sides.2].filter fun p => (c.bindings.frame? p).isNone).map c.unboundInput

/-- Joins two inputs on a key field for each. -/
def join : Rule := fun c =>
  match c.bindings.incomingEdges c.node.id with
  | [first, second] =>
    match joinField? c.config "Left", joinField? c.config "Right" with
    | some leftField, some rightField => joinFrames c (joinSides first second) leftField rightField
    | _, _ => .declined [c.missing "Left and Right join fields"]
  | edges =>
    .declined [c.warning .inputCardinality
      ("Join node " ++ c.node.id ++ " expected 2 incoming connections but got " ++
        toString edges.length)]

end Flowscript.Rule
