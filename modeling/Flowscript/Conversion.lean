import Flowscript.Markup.Document
import Flowscript.Rule.Catalog
import Flowscript.Schedule.Run
import Flowscript.Script
import Flowscript.Workflow.Document
import Flowscript.Workflow.Graph

/-!
# Conversions

A converter turns a workflow into a script. It visits the nodes in the order of the schedule and
gives each to its rule together with the bindings so far. Nothing stops a conversion: what goes
wrong with a node becomes a notice.
-/

namespace Flowscript

/-- Options, names for kinds, and rules. -/
structure Converter where
  options : Options := {}
  classifier : Classifier := {}
  rules : Rules := Rules.standard

/-- What a conversion yields: the script, the notices, the schedule that was followed, and the
bindings in their order. -/
structure Conversion where
  script : String
  diagnostics : List Diagnostic
  schedule : Schedule
  bindings : List (String × String)
deriving DecidableEq, Repr

/-- The frame that a node is bound to in the end. -/
def Conversion.frame? (c : Conversion) (id : String) : Option String :=
  c.bindings.lookup id

/-- The frame that a node reads from. If its predecessor is not bound, that is the frame that the
predecessor would have had, and there is a warning. -/
def Bindings.inputOf (b : Bindings) (id : String) : String × Option Diagnostic :=
  match b.singleInput id with
  | .ok (some frame) => (frame, none)
  | .ok none => (b.frameName id, none)
  | .error e =>
    let frame :=
      match e with
      | .unbound _ predecessor => b.frameName predecessor
      | .alreadyBound _ _ => b.frameName id
    (frame, some {
      code := .unboundInput
      category := .structural
      nodeId := some id
      message := e.message })

/-- Binds a node to the output of its fragment. A node that is bound already stays as it is. -/
def Bindings.settle (b : Bindings) (id : String) (f : Fragment) : Bindings :=
  match f.output with
  | none => b
  | some frame => (b.bind id frame).2

/-- The fragment with a warning about its input in front, unless it has one of its own. -/
def Fragment.withInputWarning (f : Fragment) : Option Diagnostic → Fragment
  | none => f
  | some d =>
    if f.diagnostics.any (·.code = .unboundInput) then
      f
    else
      { f with diagnostics := d :: f.diagnostics }

/-- What happens at one node: what its rule sees, and the fragment that comes of it. -/
structure Visit where
  context : Context
  fragment : Fragment

/-- The id of the node that is visited. -/
def Visit.id (v : Visit) : String :=
  v.context.node.id

/-- A translation under way: the visits so far, and the bindings, the script and the notices after
them. -/
structure Translation where
  visits : List Visit := []
  bindings : Bindings
  script : String
  diagnostics : List Diagnostic := []

namespace Converter

/-- The rule for a node: its template goes before its kind. -/
def ruleFor (c : Converter) (n : Node) : Rule :=
  match n.template with
  | some name => Rule.template name
  | none => (c.rules (c.classifier.classify n.plugin)).getD Rule.unsupported

/-- What the rule for a node sees. -/
def contextOf (c : Converter) (b : Bindings) (n : Node) : Context :=
  { node := n
    bindings := b
    options := c.options
    input := (b.inputOf n.id).1
    output := b.frameName n.id }

/-- The fragment of a node. -/
def fragmentOf (c : Converter) (b : Bindings) (n : Node) : Fragment :=
  (c.ruleFor n (c.contextOf b n)).withInputWarning (b.inputOf n.id).2

/-- The visit of a node that finds these bindings. -/
def visitNode (c : Converter) (b : Bindings) (n : Node) : Visit :=
  { context := c.contextOf b n, fragment := c.fragmentOf b n }

/-- Visits the node with this id: its fragment goes into the script, the node is bound to its output,
and its notices join those so far. -/
def visit (c : Converter) (w : Workflow) (t : Translation) (id : String) : Translation :=
  match w.node? id with
  | none => t
  | some n =>
    let v := c.visitNode t.bindings n
    { visits := t.visits ++ [v]
      script := Script.emit t.script (.fragment v.fragment)
      bindings := t.bindings.settle id v.fragment
      diagnostics := t.diagnostics ++ v.fragment.diagnostics }

/-- A translation before its first visit. -/
def start (c : Converter) (w : Workflow) : Translation :=
  { bindings := Bindings.ofWorkflow w c.options.stem, script := Script.header c.options.imports }

/-- Visits the nodes of a workflow in the order of its schedule, as far as the budget allows. -/
def translate (c : Converter) (w : Workflow) (budget : Budget) : Schedule × Translation :=
  Schedule.walk w budget (c.visit w) (c.start w)

/-- The notice that the budget ran out. -/
def timeoutNotice (visited total : Nat) : Diagnostic :=
  { code := .timeout
    category := .timeout
    message := "Conversion timed out after " ++ toString visited ++ " of " ++ toString total ++
      " nodes" }

/-- The notice that some nodes were never reached. -/
def unprocessedNotice (ids : List String) : Diagnostic :=
  { code := .unprocessedNodes
    category := .unprocessed
    message := Script.unprocessedMessage ids
    hint := some "check the workflow for cycles between these nodes" }

/-- What a translation yields, once it has come to its end: a summary goes into the script, and then a
remark and a notice each about a budget that ran out and about nodes that were never reached. -/
def finish (w : Workflow) (schedule : Schedule) (t : Translation) : Conversion :=
  let script := Script.emit t.script (.summary t.bindings.frames)
  let (script, diagnostics) :=
    if schedule.timedOut then
      (Script.emit script .timeout,
        t.diagnostics ++ [timeoutNotice schedule.order.length w.nodes.length])
    else
      (script, t.diagnostics)
  let (script, diagnostics) :=
    if schedule.unprocessed.isEmpty then
      (script, diagnostics)
    else
      (Script.emit script (.unprocessed schedule.unprocessed),
        diagnostics ++ [unprocessedNotice schedule.unprocessed])
  { script, diagnostics, schedule, bindings := t.bindings.bound }

/-- Turns a workflow into a script, as far as the budget allows. -/
def convert (c : Converter) (w : Workflow) (budget : Budget) : Conversion :=
  let (schedule, t) := c.translate w budget
  finish w schedule t

/-- Turns a workflow into a script, with a budget that may look at the world. -/
def convertM {m : Type → Type} [Monad m] (c : Converter) (w : Workflow)
    (ask : List Check → Nat → m Bool) : m Conversion := do
  let (schedule, t) ← Schedule.walkM w ask (c.visit w) (c.start w)
  return finish w schedule t

end Converter

/-- What a conversion of a document yields. If it could not be read, the script says why, and there
is no graph. -/
structure DocumentConversion where
  script : String
  graph : Option Graph := none
  diagnostics : List Diagnostic := []
deriving DecidableEq, Repr

/-- What a conversion of the workflow in a document yields. -/
def DocumentConversion.ofConversion (w : Workflow) (c : Conversion) : DocumentConversion :=
  { script := c.script, graph := some (Graph.ofWorkflow w), diagnostics := c.diagnostics }

/-- The workflow in a document. If it could not be read, the script that says why. -/
def readWorkflow (source : String) : Except String Workflow :=
  match Markup.parse source with
  | .error e => .error ("Error parsing workflow: " ++ e.message)
  | .ok document =>
    match Workflow.ofDocument document with
    | .error _ => .error "Invalid workflow document structure."
    | .ok w => .ok w

/-- Turns a document into a script, by a clock whose times are known beforehand. -/
def convertDocument (clock : Clock) (options : Options) (source : String) : DocumentConversion :=
  match readWorkflow source with
  | .error script => { script }
  | .ok w => .ofConversion w (Converter.convert { options } w (options.limit.budget clock))

/-- Turns a document into a script. The clock is started once the workflow is read, and looked at before
each visit. -/
def convertDocumentM {m : Type → Type} [Monad m] (startClock : m (Nat → m Nat)) (options : Options)
    (source : String) : m DocumentConversion := do
  match readWorkflow source with
  | .error script => return { script }
  | .ok w =>
    let clock ← startClock
    return .ofConversion w (← Converter.convertM { options } w (options.limit.ask clock))

end Flowscript
