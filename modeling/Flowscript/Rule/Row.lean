import Flowscript.Rule.Basic

/-!
# Rows

Rules for nodes that keep, order or thin out rows. Each needs a setting and declines without it.
-/

namespace Flowscript.Rule

/-- Keeps the rows that satisfy a condition. -/
def filter : Rule := fun c =>
  match c.config.textAt ["FilterExpression"] <|> c.config.textAt ["Expression"] with
  | some condition =>
    .bound c.output
      [Statement.assign c.output (c.input ++ ".query(" ++ Statement.rawLiteral condition ++ ")")]
  | none => .declined [c.missing "filter expression"]

/-- Orders the rows by a field, downwards unless the settings say otherwise. -/
def sort : Rule := fun c =>
  match c.config.textAt ["SortField"] with
  | some field =>
    let ascending := if c.config.textAt ["Ascending"] = some "True" then "True" else "False"
    .bound c.output
      [Statement.assign c.output
        (c.input ++ ".sort_values(by=\"" ++ field ++ "\", ascending=" ++ ascending ++ ")")]
  | none => .declined [c.missing "sort field"]

/-- Keeps one row for each value of a field. -/
def unique : Rule := fun c =>
  match c.config.textAt ["UniqueField"] with
  | some field =>
    .bound c.output
      [Statement.assign c.output (c.input ++ ".drop_duplicates(subset=[\"" ++ field ++ "\"])")]
  | none => .declined [c.missing "unique field"]

end Flowscript.Rule
