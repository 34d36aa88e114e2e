import Flowscript.Rule.Basic

/-!
# Tables

The rule for nodes that hold a table of their own. Each named field is a column; a record gives its
cells to the fields at the same positions.
-/

namespace Flowscript.Rule

/-- The names of the fields of a table, by position; a field may have none. -/
def tableFields (config : Element) : List (Option String) :=
  (config.childrenAt ["Fields"] "Field").map fun f => nonempty (f.attr "name")

/-- The records of a table. -/
def tableRecords (config : Element) : List Element :=
  config.childrenAt ["Data"] "r"

/-- The cells of a record, with the empty text for a cell without one. -/
def recordCells (record : Element) : List String :=
  (record.childrenNamed "c").map fun cell => cell.nonemptyText.getD ""

/-- Columns of values by their names. -/
abbrev Columns : Type :=
  List (String × List String)

namespace Columns

/-- Adds a value to the first column with this name. -/
def push (name value : String) : Columns → Columns
  | [] => []
  | (column, values) :: rest =>
    if column = name then
      (column, values ++ [value]) :: rest
    else
      (column, values) :: push name value rest

/-- Adds the cells of a record to the columns of the fields at their positions. Cells of unnamed
fields and cells behind the last field are dropped. -/
def addCells (columns : Columns) (fields : List (Option String)) (cells : List String) : Columns :=
  (fields.zip cells).foldl
    (fun columns (field, value) =>
      match field with
      | some name => push name value columns
      | none => columns)
    columns

/-- The columns of a table. -/
def ofTable (fields : List (Option String)) (records : List Element) : Columns :=
  records.foldl (fun columns record => columns.addCells fields (recordCells record))
    ((fields.filterMap fun field => field).map (·, []))

/-- The definition of one column. -/
def definition (column : String × List String) : String :=
  "    \"" ++ column.1 ++ "\": " ++ Statement.listLiteral column.2

/-- A frame with these columns. -/
def literal (columns : Columns) : String :=
  "pd.DataFrame(\x7b\n" ++ String.intercalate ",\n" (columns.map definition) ++ "\n\x7d)"

end Columns

/-- The name and the value of a table with one named field and one record whose first cell has
text. -/
def singleCell? (fields : List (Option String)) (records : List Element) :
    Option (String × String) :=
  match fields, records with
  | [some name], [record] => ((record.child "c").bind Element.nonemptyText).map (name, ·)
  | _, _ => none

/-- A frame with one column of one value. -/
def cellLiteral (name value : String) : String :=
  "pd.DataFrame(\x7b\n    \"" ++ name ++ "\": " ++ Statement.listLiteral [value] ++ "\n\x7d)"

/-- Writes a table down as a frame. A table of a single cell needs no sorting into columns. -/
def textInput : Rule := fun c =>
  let fields := tableFields c.config
  let records := tableRecords c.config
  let frame :=
    match singleCell? fields records with
    | some (name, value) => cellLiteral name value
    | none => (Columns.ofTable fields records).literal
  .bound c.output [Statement.assign c.output frame]

end Flowscript.Rule
