import Flowscript.Diagnostic

/-!
# Fragments

What one node adds to a script.
-/

namespace Flowscript

/-- The statements of a node, the frame that holds its output, and notices about it. Without a
frame, the node stays unbound. -/
structure Fragment where
  statements : List String := []
  output : Option String := none
  diagnostics : List Diagnostic := []
deriving DecidableEq, Repr

namespace Fragment

/-- Statements that end with the output in a frame. -/
def bound (output : String) (statements : List String) : Fragment :=
  { statements, output := some output }

/-- Notices and nothing else. -/
def declined (diagnostics : List Diagnostic) : Fragment :=
  { diagnostics }

end Fragment

end Flowscript
