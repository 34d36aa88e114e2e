import Flowscript.Bindings
import Flowscript.Fragment
import Flowscript.Options.Basic
import Flowscript.Statement

/-!
# Rules

A rule turns a node into a fragment. It sees the node, the bindings so far and the options, and
nothing else.
-/

namespace Flowscript

/-- What a rule sees. `input` is the frame that the node reads from: the one of its only
predecessor, or else the node's own; `output` is the frame that it writes to. -/
structure Context where
  node : Node
  bindings : Bindings
  options : Options
  input : String
  output : String

/-- Turns a node into a fragment. -/
abbrev Rule : Type :=
  Context → Fragment

namespace Context

/-- The settings of the node's kind; an element without any if the node has none. -/
def config (c : Context) : Element :=
  c.node.configuration.getD { name := "" }

/-- The statement that copies the input into the output. -/
def copy (c : Context) : String :=
  Statement.copy c.output c.input

/-- A warning about the node. -/
def warning (c : Context) (code : Code) (message : String) : Diagnostic :=
  { code, category := .structural, nodeId := some c.node.id, message }

/-- The warning that a setting is missing. -/
def missing (c : Context) (what : String) : Diagnostic :=
  c.warning .missingConfiguration
    (c.node.plugin ++ " node " ++ c.node.id ++ " has no " ++ what ++ " configured")

/-- The warning that a predecessor has no output. -/
def unboundInput (c : Context) (predecessor : String) : Diagnostic :=
  c.warning .unboundInput
    (c.node.plugin ++ " node " ++ c.node.id ++ " reads from node " ++ predecessor ++
      ", which produced no output")

end Context

namespace Rule

/-- For kinds without a rule: an empty frame, and a notice. -/
def unsupported : Rule := fun c =>
  { statements := [Statement.assign c.output "pd.DataFrame()"]
    output := some c.output
    diagnostics := [{
      code := .unsupportedKind
      category := .unsupported
      nodeId := some c.node.id
      message := "Unsupported node type for tool " ++ c.node.id ++ " (" ++ c.node.plugin ++ ")" }] }

end Rule

end Flowscript
