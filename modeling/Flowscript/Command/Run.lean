import Flowscript.Command.Arguments
import Flowscript.Command.Disk
import Flowscript.Conversion
import Flowscript.Options.Load

/-!
# The command

Reads options and a workflow, writes the script and, if asked for, the graph, and reports the
notices. The first thing that fails ends the run; what was written before stays. Files and streams
are reached through a `Host`, so the same steps run on a disk and in memory.
-/

namespace Flowscript.Command

/-- Files, streams and the clock. A file operation fails with a reason. Once started, the clock shows
the nanoseconds since then; it is told how often it was looked at before. -/
structure Host (m : Type → Type) where
  read : String → m (Except String String)
  write : String → String → m (Except String Unit)
  print : String → m Unit
  report : String → m Unit
  startClock : m (Nat → m Nat)

variable {m : Type → Type} [Monad m]

/-- The result of a file operation, with its failure described. -/
def orFail {α : Type} (result : m (Except String α)) (describe : String → String) :
    ExceptT String m α :=
  ExceptT.mk do return (← result).mapError describe

/-- Loads options from a file. -/
def loadOptions (host : Host m) (path : String) : m (Except Options.Error Options) := do
  match ← host.read path with
  | .error reason => return .error (.unreadable path reason)
  | .ok source => return Options.load source

/-- The options that the arguments ask for. A limit among the arguments goes before the one in the
file. -/
def chooseOptions (host : Host m) (a : Arguments) : ExceptT String m Options := do
  let options ←
    match a.options with
    | none => pure {}
    | some path =>
      ExceptT.mk do
        return (← loadOptions host path).mapError fun e => "Failed to load options: " ++ e.message
  match a.maxSteps, a.timeoutMs with
  | _, some milliseconds => return { options with limit := .deadline milliseconds }
  | some nodes, none => return { options with limit := .steps nodes }
  | none, none => return options

/-- Writes the script to its file, or prints it. -/
def writeScript (host : Host m) (a : Arguments) (script : String) : ExceptT String m Unit :=
  match a.output with
  | none => host.print script
  | some path =>
    orFail (host.write path script) fun reason =>
      "Failed to write script to '" ++ path ++ "': " ++ reason

/-- Writes the graph to its file, if there is one. -/
def writeGraph (host : Host m) (a : Arguments) (graph : Option Graph) : ExceptT String m Unit :=
  match a.graph, graph with
  | none, _ => return ()
  | some _, none => throw "No graph view available: the workflow could not be read"
  | some path, some graph =>
    orFail (host.write path graph.text) fun reason =>
      "Failed to write graph view to '" ++ path ++ "': " ++ reason

/-- All the work of the command, in its order. -/
def work (host : Host m) (a : Arguments) : ExceptT String m Unit := do
  let options ← chooseOptions host a
  let source ← orFail (host.read a.workflow) fun reason =>
    "Failed to read workflow file '" ++ a.workflow ++ "': " ++ reason
  let result ← convertDocumentM (m := m) host.startClock options source
  writeScript host a result.script
  writeGraph host a result.graph
  for d in result.diagnostics do
    host.report (d.display ++ "\n")

/-- A short text about the arguments. -/
def usage : String :=
  "Usage: [OPTIONS] <WORKFLOW>\n" ++
  "\n" ++
  "  -o, --output <PATH>      Write the script here instead of stdout\n" ++
  "  -g, --graph <PATH>       Also write the graph view as JSON to this path\n" ++
  "      --options <PATH>     JSON file with converter options\n" ++
  "      --max-steps <N>      Stop scheduling after this many nodes\n" ++
  "      --timeout-ms <N>     Stop scheduling after this many milliseconds\n" ++
  "  -v, --verbose            Log conversion details to stderr\n" ++
  "  -h, --help               Print help\n" ++
  "  -V, --version            Print version\n"

/-- The version of the command. -/
def version : String :=
  "0.1.0"

/-- Runs the command and returns its exit code: 0 if all went well, 1 if something failed, 2 if the
arguments make no sense. -/
def run (host : Host m) (arguments : List String) : m UInt32 := do
  match parseArguments arguments with
  | .error .help => host.print usage; return 0
  | .error .version => host.print (version ++ "\n"); return 0
  | .error (.usage e) => host.report ("error: " ++ e.message ++ "\n\n" ++ usage); return 2
  | .ok a =>
    match ← (work host a).run with
    | .ok () => return 0
    | .error message => host.report ("\nError: " ++ message ++ "\n"); return 1

/-! ## In memory -/

/-- A disk and what was printed. -/
structure Session where
  disk : Disk
  stdout : String := ""
  stderr : String := ""
deriving DecidableEq, Repr

namespace Session

/-- Adds to what was printed. -/
def print (s : Session) (text : String) : Session :=
  { s with stdout := s.stdout ++ text }

/-- Adds to what was reported. -/
def report (s : Session) (text : String) : Session :=
  { s with stderr := s.stderr ++ text }

/-- Writes to an outlet. -/
def write (s : Session) (content : String) : Disk.Outlet → Except FileError Session
  | .file place => .ok { s with disk := s.disk.write place content }
  | .device .null => .ok s
  | .device .full => .error .noSpace
  | .device .stdout => .ok (s.print content)
  | .device .stderr => .ok (s.report content)

/-- The host that works on a session. Its clock only ticks, so no answer depends on the time. -/
def host : Host (StateM Session) where
  read path := do return ((← get).disk.read path).mapError FileError.message
  write path content := do
    match (← get).disk.outlet path >>= (← get).write content with
    | .error e => return .error e.message
    | .ok s => set s; return .ok ()
  print text := modify (·.print text)
  report text := modify (·.report text)
  startClock := return fun checks => return Clock.ticking checks

end Session

/-- Runs the command on a disk. -/
def runOn (disk : Disk) (arguments : List String) : UInt32 × Session :=
  (run Session.host arguments).run { disk }

end Flowscript.Command
