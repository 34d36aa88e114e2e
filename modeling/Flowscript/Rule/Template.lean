import Flowscript.Rule.Basic
import Flowscript.Text

/-!
# Templates

A node may expand a template that is named by a file. One template is known: the distance in miles
between two points on the globe. Its settings are lines `key=value` that map four fields to columns;
of several lines for one field, the last that has a value counts.
-/

namespace Flowscript

/-- The templates that can be expanded. -/
inductive Template where
  | greatArcs
deriving DecidableEq, Repr

namespace Template

/-- All known templates. -/
def catalog : List Template :=
  [.greatArcs]

/-- The file that a template is stored in. -/
def fileName : Template → String
  | .greatArcs => "GreatArcs.yxmc"

/-- The template in this file, whatever the folders in front of its name. -/
def lookup (name : String) : Option Template :=
  let file := String.ofList (Text.lastSegment (fun c => c == '/' || c == '\\') name.toList)
  catalog.find? (·.fileName = file)

end Template

namespace Rule

/-- The fields that a distance needs: two points, each with latitude and longitude. -/
def pointFields : List String :=
  ["LatitudeA", "LongitudeA", "LatitudeB", "LongitudeB"]

/-- The text with the mappings: the first value named for the points, its CDATA before its text. -/
def pointText (config : Element) : String :=
  let value := (config.childrenNamed "Value").find? fun v => v.attr "name" = some "Input.Points"
  (value.bind fun v => v.nonemptyCdata <|> v.nonemptyText).getD ""

/-- The field and the column of a line, if it has both. -/
def mapping? (line : List Char) : Option (String × String) := do
  let (key, value) ← Text.cutFirst '=' line
  let key := Text.trim key
  let value := Text.trim value
  if key.isEmpty || value.isEmpty then
    none
  else
    return (String.ofList key, String.ofList value)

/-- The mappings of a text, line by line. -/
def mappings (text : String) : List (String × String) :=
  (Text.lines text.toList).filterMap mapping?

/-- The column that a field is mapped to: the last mapping counts. -/
def columnOf? (mappings : List (String × String)) (field : String) : Option String :=
  mappings.reverse.lookup field

/-- A column of a frame as an argument on a line of its own. -/
def argument (frame column : String) : String :=
  "    " ++ frame ++ "['" ++ column ++ "']"

/-- The statement that adds the distance between two points. -/
def distance (output : String) (columns : List String) : String :=
  output ++ "['distance'] = np.vectorize(lambda lat1, lon1, lat2, lon2: " ++
    "great_circle((lat1, lon1), (lat2, lon2)).miles)(\n" ++
    String.intercalate ",\n" (columns.map (argument output)) ++ "\n)"

/-- Adds the distance between two points. -/
def greatArcs : Rule := fun c =>
  let mapped := mappings (pointText c.config)
  match pointFields.mapM (columnOf? mapped) with
  | some columns =>
    .bound c.output ["# Great Circle Distance calculation", c.copy, distance c.output columns]
  | none =>
    let missing := pointFields.filter fun field => (columnOf? mapped field).isNone
    let warning := c.warning .missingConfiguration
      ("Great-circle macro " ++ c.node.id ++ " has no mapping for " ++
        String.intercalate ", " missing)
    { statements := [c.copy]
      output := some c.output
      diagnostics := [{ warning with
        hint := some "map LatitudeA, LongitudeA, LatitudeB and LongitudeB in Input.Points" }] }

/-- For templates that are not known: a copy, and a notice. -/
def unknownTemplate (name : String) : Rule := fun c =>
  { statements := [c.copy]
    output := some c.output
    diagnostics := [{
      code := .unsupportedTemplate
      category := .unsupported
      nodeId := some c.node.id
      message := "Unsupported macro: " ++ name }] }

/-- Expands a template. -/
def template (name : String) : Rule :=
  match Template.lookup name with
  | some .greatArcs => greatArcs
  | none => unknownTemplate name

end Rule

end Flowscript
