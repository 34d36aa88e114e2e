import Flowscript.Rule.Basic

/-!
# Files

Rules for nodes that read a file and nodes that write one.
-/

namespace Flowscript.Rule

/-- Reads a file into the output. -/
def source : Rule := fun c =>
  match c.config.textAt ["File"] with
  | some path =>
    .bound c.output
      [Statement.assign c.output ("pd.read_csv(" ++ Statement.rawLiteral path ++ ")")]
  | none => .declined [c.missing "file path"]

/-- Copies the input and writes it to a file. -/
def sink : Rule := fun c =>
  let path := (c.config.textAt ["File"]).getD c.options.defaultOutputPath
  .bound c.output
    [c.copy, c.output ++ ".to_csv(" ++ Statement.rawLiteral path ++ ", index=False)"]

end Flowscript.Rule
