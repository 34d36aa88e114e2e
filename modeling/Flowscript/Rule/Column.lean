import Flowscript.Rule.Basic
import Flowscript.Text

/-!
# Columns

Rules for nodes that choose, add or convert columns. All of them start from a copy of the input, and
a setting that is missing only leaves something out.
-/

namespace Flowscript.Rule

/-- The entry that stands for all columns without an entry of their own. -/
def otherColumns : String :=
  "*Unknown"

/-- The entries of a selection: a field and whether it is selected, as written. -/
def selectFields (config : Element) : List (String × String) :=
  (config.childrenAt ["SelectFields"] "SelectField").filterMap fun f =>
    (f.attr "field").map (·, (f.attr "selected").getD "")

/-- The fields with an entry of their own that are marked so. -/
def fieldsMarked (mark : String) (fields : List (String × String)) : List String :=
  (fields.filter fun (field, selected) => field ≠ otherColumns && selected = mark).map Prod.fst

/-- Whether columns without an entry are kept. -/
def keepsOthers (fields : List (String × String)) : Bool :=
  fields.any fun (field, selected) => field = otherColumns && selected = "True"

/-- Drops the deselected columns if the others are kept, and else keeps the selected ones. -/
def select : Rule := fun c =>
  let fields := selectFields c.config
  let dropped := fieldsMarked "False" fields
  let kept := fieldsMarked "True" fields
  .bound c.output <| c.copy ::
    if keepsOthers fields && !dropped.isEmpty then
      [Statement.assign c.output
        (c.output ++ ".drop(columns=" ++ Statement.listLiteral dropped ++ ")")]
    else if kept.isEmpty then
      []
    else
      [Statement.assign c.output (c.output ++ "[" ++ Statement.listLiteral kept ++ "]")]

/-- The fields and expressions of a formula: those that stand alone, then those in a list. -/
def formulas (config : Element) : List (String × String) :=
  let pair (key : String) (f : Element) : Option (String × String) := do
    return (← f.attr key, ← f.attr "expression")
  let single := (config.childrenNamed "FormulaExpression").filterMap (pair "newField")
  let listed := (config.childrenAt ["FormulaFields"] "FormulaField").filterMap (pair "field")
  (single ++ listed).filter fun (field, expression) => field ≠ "" && expression ≠ ""

/-- Gives fields the values of expressions. -/
def formula : Rule := fun c =>
  .bound c.output <| c.copy ::
    (formulas c.config).map fun (field, expression) =>
      Statement.assignColumn c.output field
        (c.input ++ ".eval(" ++ Statement.rawLiteral expression ++ ")")

/-- The mark and the method of an aggregation. -/
def aggregation? (action : String) : Option (String × String) :=
  match action with
  | "Sum" => some ("Sum", "sum")
  | "Avg" => some ("Avg", "mean")
  | "Average" => some ("Avg", "mean")
  | "Min" => some ("Min", "min")
  | "Max" => some ("Max", "max")
  | _ => none

/-- The name with an underscore for each blank. -/
def underscored (name : String) : String :=
  name.map fun c => if Text.isBlank c then '_' else c

/-- The statement that adds one aggregate as a column. -/
def aggregate? (output : String) (field : Element) : Option String := do
  let column ← field.attr "field"
  let (mark, method) ← (field.attr "action").bind aggregation?
  return Statement.assignColumn output (mark ++ "_" ++ underscored column)
    (Statement.column output column ++ "." ++ method ++ "()")

/-- Adds the aggregates of fields as columns. Rows are not grouped. -/
def summarize : Rule := fun c =>
  .bound c.output <| c.copy ::
    (c.config.childrenAt ["SummarizeFields"] "SummarizeField").filterMap (aggregate? c.output)

/-- Adds what a pattern finds in a field, if both are set and the pattern is not blank. -/
def patternExtract : Rule := fun c =>
  let pattern := (c.config.attrAt ["RegExExpression"] "value").filter
    fun p => !(Text.trim p.toList).isEmpty
  .bound c.output <| c.copy ::
    match c.config.textAt ["Field"], pattern with
    | some field, some pattern =>
      [Statement.assignColumn c.output "regex_extract"
        (Statement.column c.input field ++ ".str.extract(" ++ Statement.rawLiteral pattern ++ ")")]
    | _, _ => []

/-- Adds what is found at the addresses in a field. -/
def remoteFetch : Rule := fun c =>
  let field := (c.config.textAt ["URLField"]).getD "URL"
  .bound c.output
    [c.copy,
      Statement.assignColumn c.output "downloaded_data"
        (Statement.column c.input field ++ ".apply(lambda url: requests.get(url).text)")]

/-- The column of `frame` converted to a type, for the types that are known. Letter case does not
matter; the words have ASCII letters only, and no other character becomes one of theirs in lower
case. -/
def converted? (frame column type : String) : Option String :=
  let value := Statement.column frame column
  match type.map Char.toLower with
  | "v_string" => some (value ++ ".astype(\"string\")")
  | "bool" => some (value ++ ".astype(\"boolean\")")
  | "boolean" => some (value ++ ".astype(\"boolean\")")
  | "double" => some ("pd.to_numeric(" ++ value ++ ", errors='coerce')")
  | "int" => some ("pd.to_numeric(" ++ value ++ ", errors='coerce', downcast='integer')")
  | "integer" => some ("pd.to_numeric(" ++ value ++ ", errors='coerce', downcast='integer')")
  | _ => none

/-- The statement that converts one field to its type. -/
def conversion? (output : String) (field : Element) : Option String := do
  let name ← field.attr "name"
  let type ← field.attr "type"
  return Statement.assignColumn output name (← converted? output name type)

/-- Converts columns to the types that the node records for them. -/
def autoField : Rule := fun c =>
  .bound c.output <| c.copy ::
    Statement.assign c.output (c.output ++ ".convert_dtypes()") ::
    (c.node.properties.childrenAt ["MetaInfo", "RecordInfo"] "Field").filterMap
      (conversion? c.output)

end Flowscript.Rule
