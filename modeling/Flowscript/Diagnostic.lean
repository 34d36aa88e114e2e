/-!
# Diagnostics

Notices about a workflow. None of them stops a conversion.
-/

namespace Flowscript

/-- A stable name for a kind of notice. -/
structure Code where
  text : String
deriving DecidableEq, Repr

namespace Code

/-- No rule is known for the node's kind. -/
def unsupportedKind : Code := ⟨"W0100"⟩

/-- The node expands a template that is not known. -/
def unsupportedTemplate : Code := ⟨"W0101"⟩

/-- A setting that the node's kind needs is missing or empty. -/
def missingConfiguration : Code := ⟨"W0200"⟩

/-- The node has the wrong number of inputs for its kind. -/
def inputCardinality : Code := ⟨"W0201"⟩

/-- The node reads from one that has no output. -/
def unboundInput : Code := ⟨"W0202"⟩

/-- Some nodes were never reached. -/
def unprocessedNodes : Code := ⟨"W0300"⟩

/-- The budget ran out. -/
def timeout : Code := ⟨"W0301"⟩

end Code

/-- What a notice is about. -/
inductive Category where
  | structural
  | unprocessed
  | unsupported
  | timeout
deriving DecidableEq, Repr

def Category.text : Category → String
  | .structural => "structural"
  | .unprocessed => "unprocessed"
  | .unsupported => "unsupported"
  | .timeout => "timeout"

/-- A notice, with the node that it is about if there is exactly one. -/
structure Diagnostic where
  code : Code
  category : Category
  nodeId : Option String := none
  message : String
  hint : Option String := none
deriving DecidableEq, Repr

/-- The notice as text: category, code and message, and the hint on a line of its own. -/
def Diagnostic.display (d : Diagnostic) : String :=
  d.category.text ++ "[" ++ d.code.text ++ "]: " ++ d.message ++
    (d.hint.map ("\n  hint: " ++ ·)).getD ""

end Flowscript
