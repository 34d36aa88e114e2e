import Flowscript.Json.Value
import Flowscript.Options.Basic
import Flowscript.Text

/-!
# Arguments

The arguments of the command. A value stands behind its flag, or is joined to it: by an equals sign,
or directly to a flag of one letter. Flags of one letter may be joined to each other. Behind `--`
nothing is a flag. No flag may be given twice. `parseArguments` takes the arguments in one by one
and stops at the first that makes no sense, or that asks for a text about the command.
-/

namespace Flowscript.Command

/-- What a run of the command is asked to do. -/
structure Arguments where
  workflow : String
  output : Option String := none
  graph : Option String := none
  options : Option String := none
  maxSteps : Option Nat := none
  timeoutMs : Option Nat := none
  verbose : Bool := false
deriving DecidableEq, Repr

/-- Why the arguments make no sense. -/
inductive UsageError where
  | unexpectedArgument (argument : String)
  | missingValue (argument : String)
  | unexpectedValue (argument : String)
  | invalidNumber (value : String)
  | repeated (flag : String)
  | conflict
  | missingWorkflow
deriving DecidableEq, Repr

def UsageError.message : UsageError → String
  | .unexpectedArgument argument => "unexpected argument '" ++ argument ++ "' found"
  | .missingValue argument => "a value is required for '" ++ argument ++ "' but none was supplied"
  | .unexpectedValue argument => "no value is expected in '" ++ argument ++ "'"
  | .invalidNumber value => "'" ++ value ++ "' is not a natural number"
  | .repeated flag => "'--" ++ flag ++ "' cannot be used multiple times"
  | .conflict => "'--max-steps' cannot be used with '--timeout-ms'"
  | .missingWorkflow => "the path of a workflow is required"

/-- Why there is nothing to run: the arguments make no sense, or ask for a text only. -/
inductive Stop where
  | usage (error : UsageError)
  | help
  | version
deriving DecidableEq, Repr

/-- The flags with a value. -/
inductive Setting where
  | output
  | graph
  | options
  | maxSteps
  | timeoutMs
deriving DecidableEq, Repr

/-- The flags. -/
inductive Flag where
  | setting (s : Setting)
  | verbose
  | help
  | version
deriving DecidableEq, Repr

/-- The long name of a flag with a value. -/
def Setting.name : Setting → String
  | .output => "output"
  | .graph => "graph"
  | .options => "options"
  | .maxSteps => "max-steps"
  | .timeoutMs => "timeout-ms"

/-- The flag with a long name. -/
def Flag.ofName? : String → Option Flag
  | "output" => some (.setting .output)
  | "graph" => some (.setting .graph)
  | "options" => some (.setting .options)
  | "max-steps" => some (.setting .maxSteps)
  | "timeout-ms" => some (.setting .timeoutMs)
  | "verbose" => some .verbose
  | "help" => some .help
  | "version" => some .version
  | _ => none

/-- The flag with a letter. -/
def Flag.ofLetter? : Char → Option Flag
  | 'o' => some (.setting .output)
  | 'g' => some (.setting .graph)
  | 'v' => some .verbose
  | 'h' => some .help
  | 'V' => some .version
  | _ => none

/-- Whether an argument is read as a flag. A single dash is not. -/
def isFlag (argument : String) : Bool :=
  match argument.toList with
  | ['-'] => false
  | '-' :: _ => true
  | _ => false

/-- A number for a limit, with a plus in front or without. -/
def number (value : String) : Except Stop Nat :=
  let digits :=
    match value.toList with
    | '+' :: digits => digits
    | digits => digits
  let n := Numeral.valueOf digits
  if digits.isEmpty || !digits.all Char.isDigit || Limit.bound ≤ n then
    .error (.usage (.invalidNumber value))
  else
    .ok n

/-- What the arguments so far have set. -/
structure Draft where
  workflow : Option String := none
  output : Option String := none
  graph : Option String := none
  options : Option String := none
  maxSteps : Option Nat := none
  timeoutMs : Option Nat := none
  verbose : Bool := false
deriving DecidableEq, Repr

namespace Draft

/-- Takes in a flag with its value. -/
def set (d : Draft) (s : Setting) (value : String) : Except Stop Draft :=
  let once {α : Type} (old : Option α) (new : α) : Except Stop (Option α) :=
    if old.isSome then .error (.usage (.repeated s.name)) else .ok (some new)
  match s with
  | .output => do return { d with output := ← once d.output value }
  | .graph => do return { d with graph := ← once d.graph value }
  | .options => do return { d with options := ← once d.options value }
  | .maxSteps => do return { d with maxSteps := ← once d.maxSteps (← number value) }
  | .timeoutMs => do return { d with timeoutMs := ← once d.timeoutMs (← number value) }

/-- Takes in a flag. One with a value is still open then. -/
def setFlag (d : Draft) : Flag → Except Stop (Draft × Option Setting)
  | .setting s => .ok (d, some s)
  | .verbose =>
    if d.verbose then
      .error (.usage (.repeated "verbose"))
    else
      .ok ({ d with verbose := true }, none)
  | .help => .error .help
  | .version => .error .version

/-- Takes in the letters behind a dash. A flag with a value takes all letters behind it for that,
less an equals sign in front; if there are none, it is still open. -/
def setLetters (d : Draft) (argument : String) :
    List Char → Except Stop (Draft × Option Setting)
  | [] => .ok (d, none)
  | c :: cs =>
    match Flag.ofLetter? c with
    | none => .error (.usage (.unexpectedArgument argument))
    | some flag => do
      let (d, pending) ← d.setFlag flag
      match pending, cs with
      | none, cs => setLetters d argument cs
      | some s, [] => return (d, some s)
      | some s, '=' :: value => return (← d.set s (String.ofList value), none)
      | some s, value => return (← d.set s (String.ofList value), none)

/-- Takes in a long flag, with a value if an equals sign is in it. -/
def setName (d : Draft) (argument : String) (cs : List Char) :
    Except Stop (Draft × Option Setting) :=
  let (name, value) :=
    match Text.cutFirst '=' cs with
    | some (name, value) => (name, some (String.ofList value))
    | none => (cs, none)
  match Flag.ofName? (String.ofList name), value with
  | none, _ => .error (.usage (.unexpectedArgument argument))
  | some flag, none => d.setFlag flag
  | some (.setting s), some value => do return (← d.set s value, none)
  | some _, some _ => .error (.usage (.unexpectedValue argument))

/-- Takes in an argument that is read as a flag. -/
def setArgument (d : Draft) (argument : String) : Except Stop (Draft × Option Setting) :=
  match argument.toList with
  | '-' :: '-' :: cs => d.setName argument cs
  | '-' :: cs => d.setLetters argument cs
  | _ => .error (.usage (.unexpectedArgument argument))

/-- Takes in the path of the workflow. -/
def setWorkflow (d : Draft) (path : String) : Except Stop Draft :=
  if d.workflow.isSome then
    .error (.usage (.unexpectedArgument path))
  else
    .ok { d with workflow := some path }

/-- The arguments, once all have been taken in. -/
def finish (d : Draft) : Except Stop Arguments :=
  match d.workflow with
  | none => .error (.usage .missingWorkflow)
  | some workflow =>
    if d.maxSteps.isSome && d.timeoutMs.isSome then
      .error (.usage .conflict)
    else
      .ok {
        workflow
        output := d.output
        graph := d.graph
        options := d.options
        maxSteps := d.maxSteps
        timeoutMs := d.timeoutMs
        verbose := d.verbose }

/-- Takes in all arguments. The value of a flag may not look like a flag itself. -/
def takeAll (d : Draft) : List String → Except Stop Arguments
  | [] => d.finish
  | argument :: rest =>
    if argument = "--" then do
      (← rest.foldlM setWorkflow d).finish
    else if isFlag argument then
      match d.setArgument argument, rest with
      | .error stop, _ => .error stop
      | .ok (d, none), rest => d.takeAll rest
      | .ok (_, some _), [] => .error (.usage (.missingValue argument))
      | .ok (d, some s), value :: rest =>
        if isFlag value then
          .error (.usage (.missingValue argument))
        else
          match d.set s value with
          | .error stop => .error stop
          | .ok d => d.takeAll rest
    else
      match d.setWorkflow argument with
      | .error stop => .error stop
      | .ok d => d.takeAll rest

end Draft

/-- What a list of arguments asks for. -/
def parseArguments (arguments : List String) : Except Stop Arguments :=
  Draft.takeAll {} arguments

end Flowscript.Command
