import Flowscript.Json.Writer

/-!
# Statements

The forms of script statements. Texts from a workflow are put between quotes as they are; lists of
names are written like JSON.
-/

namespace Flowscript.Statement

/-- Gives a frame a new value. -/
def assign (frame value : String) : String :=
  frame ++ " = " ++ value

/-- One column of a frame. -/
def column (frame name : String) : String :=
  frame ++ "[\"" ++ name ++ "\"]"

/-- Gives a column of a frame a new value. -/
def assignColumn (frame name value : String) : String :=
  assign (column frame name) value

/-- Makes a frame a copy of another. -/
def copy (frame source : String) : String :=
  assign frame (source ++ ".copy()")

/-- A text between single quotes in which backslashes stand for themselves. -/
def rawLiteral (text : String) : String :=
  "r'" ++ text ++ "'"

/-- A list of texts. -/
def listLiteral (items : List String) : String :=
  (Json.arr (items.map Json.str)).compact

end Flowscript.Statement
