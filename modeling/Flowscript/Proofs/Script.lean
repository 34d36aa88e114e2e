import Flowscript.Script
import Mathlib.Tactic.Lemma

/-!
# Scripts by lines

A script grows part by part, at its end alone (`Script.text_append`). It is a list of lines, each with a
line end (`Script.text_eq_unlines`). `Part.lines` says which lines a part adds; an entry of such a list
may itself hold line feeds, where a name or a message does.
-/

namespace Flowscript

/-- A comment for each notice about what is not supported, and then the statements. -/
def Fragment.lines (f : Fragment) : List String :=
  (f.diagnostics.filter (·.category = .unsupported)).map ("# " ++ ·.message) ++ f.statements

namespace Script

/-- The lines with their line ends. -/
def unlines (lines : List String) : String :=
  String.join (lines.map (· ++ "\n"))

/-- The lines that a part adds to a script. -/
def Part.lines : Part → List String
  | .fragment f => f.lines
  | .summary frames => ["", "# " ++ ("Available DataFrames: " ++ String.intercalate ", " frames)]
  | .timeout => ["", "# " ++
      "Conversion timed out. Some nodes may not have been processed due to potential cycles."]
  | .unprocessed ids => if ids = [] then [] else ["", "# " ++
      ("The following nodes could not be processed (cyclic or missing dependencies): " ++
        String.intercalate ", " ids)]

/-- Lines that are put behind others. -/
lemma unlines_append (xs ys : List String) : unlines (xs ++ ys) = unlines xs ++ unlines ys := by
  rw [unlines, List.map_append, String.join_append]
  rfl

/-- A blank line and a comment. -/
lemma unlines_comment (text : String) : unlines ["", "# " ++ text] = "\n" ++ comment text := by
  simp only [unlines, comment, List.map_cons, List.map_nil, String.join_cons, String.join_nil,
    String.empty_append, String.append_empty]

/-- The text of a part are its lines. -/
lemma Part.text_eq_unlines (part : Part) : part.text = unlines part.lines := by
  cases part with
  | fragment f =>
    rw [Part.lines, Fragment.lines, unlines_append, Part.text, notices]
    simp only [unlines, List.map_map]
    rfl
  | summary frames => exact (unlines_comment _).symm
  | timeout => exact (unlines_comment _).symm
  | unprocessed ids =>
    cases ids with
    | nil => rfl
    | cons id ids => exact (unlines_comment _).symm

/-- Further parts stand behind what there was. -/
lemma text_append (imports : List String) (parts more : List Part) :
    text imports (parts ++ more) = more.foldl emit (text imports parts) :=
  List.foldl_append

/-- A list of no unprocessed nodes leaves no trace. -/
lemma emit_unprocessed_nil (script : String) : emit script (.unprocessed []) = script :=
  String.append_empty

/-- Part by part, a script grows by the lines of its parts. -/
lemma foldl_emit (parts : List Part) (script : String) :
    parts.foldl emit script = script ++ unlines (parts.flatMap Part.lines) := by
  induction parts generalizing script with
  | nil => exact String.append_empty.symm
  | cons part parts ih =>
    rw [List.foldl_cons, ih, emit, Part.text_eq_unlines, List.flatMap_cons, unlines_append,
      String.append_assoc]

/-- A script consists of the imports, an empty line and the lines of its parts. -/
lemma text_eq_unlines (imports : List String) (parts : List Part) :
    text imports parts = unlines (imports ++ [""] ++ parts.flatMap Part.lines) := by
  rw [text, foldl_emit, unlines_append, unlines_append]
  rfl

end Script

end Flowscript
