import Flowscript.Fragment

/-!
# Scripts

A script is a header of imports and then parts: the fragments of the nodes, and remarks on the
whole. Notices about what is not supported stand as comments before the statements of their node.
-/

namespace Flowscript.Script

/-- A part of a script. -/
inductive Part where
  | fragment (f : Fragment)
  | summary (frames : List String)
  | timeout
  | unprocessed (ids : List String)
deriving DecidableEq, Repr

/-- A comment with its line end. -/
def comment (text : String) : String :=
  "# " ++ text ++ "\n"

/-- The notices of a fragment that stand in the script. -/
def notices (f : Fragment) : List String :=
  (f.diagnostics.filter (·.category = .unsupported)).map Diagnostic.message

/-- What is said about nodes that were never reached. -/
def unprocessedMessage (ids : List String) : String :=
  "The following nodes could not be processed (cyclic or missing dependencies): " ++
    String.intercalate ", " ids

/-- The text of a part. A list of no unprocessed nodes leaves no trace. -/
def Part.text : Part → String
  | .fragment f =>
    String.join ((notices f).map comment) ++ String.join (f.statements.map (· ++ "\n"))
  | .summary frames =>
    "\n" ++ comment ("Available DataFrames: " ++ String.intercalate ", " frames)
  | .timeout =>
    "\n" ++ comment
      "Conversion timed out. Some nodes may not have been processed due to potential cycles."
  | .unprocessed [] => ""
  | .unprocessed ids => "\n" ++ comment (unprocessedMessage ids)

/-- The imports, each on a line, and a blank line. -/
def header (imports : List String) : String :=
  String.join (imports.map (· ++ "\n")) ++ "\n"

/-- The script with one more part. -/
def emit (script : String) (part : Part) : String :=
  script ++ part.text

/-- The text of a script. -/
def text (imports : List String) (parts : List Part) : String :=
  parts.foldl emit (header imports)

end Flowscript.Script
