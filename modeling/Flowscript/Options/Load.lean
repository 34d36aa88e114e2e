import Flowscript.Json.Reader
import Flowscript.Options.Basic

/-!
# Options as JSON

`Options.load` reads options from a JSON text: an object with any of the four settings, or a list of
the first few of them. A setting that is given twice or with the wrong type is refused; members with
other keys are passed over.
-/

namespace Flowscript

/-- A JSON value that was read from a text. -/
abbrev Given : Type :=
  Json (Option String)

namespace Given

/-- The text, if the value is one. -/
def text? : Given → Option String
  | .str s => s
  | _ => none

/-- The texts, if the value is a list of them. -/
def texts? : Given → Option (List String)
  | .arr items => items.mapM text?
  | _ => none

/-- The number, if the value is a natural number that may stand in a limit. -/
def count? : Given → Option Nat
  | .num n => n.toNat?.filter (· < Limit.bound)
  | _ => none

/-- The values of the members with this key. -/
def valuesOf (key : String) (members : List (Option String × Given)) : List Given :=
  (members.filter (·.1 = some key)).map Prod.snd

end Given

/-- The limit of this kind with these further values. -/
def Limit.ofParts? (kind : String) (values : String → List Given) : Option Limit :=
  match kind with
  | "unlimited" => some .unlimited
  | "steps" =>
    match values "max_steps" with
    | [v] => (Given.count? v).map .steps
    | _ => none
  | "deadline" =>
    match values "millis" with
    | [v] => (Given.count? v).map .deadline
    | _ => none
  | _ => none

/-- Containers may be nested this deep in a limit, the limit itself included. -/
def Limit.depthLimit : Nat :=
  126

/-- The limit that a value describes: an object that names its kind, or a list with the kind in
front. The members of the object that are not used must be sound values all the same. -/
def Limit.ofJson? : Given → Option Limit
  | .obj members =>
    if Json.isDefinite (.obj members) && Json.depth (.obj members) ≤ depthLimit then
      match Given.valuesOf "kind" members with
      | [.str (some kind)] => ofParts? kind (Given.valuesOf · members)
      | _ => none
    else
      none
  | .arr [.str (some "unlimited")] => some .unlimited
  | .arr [.str (some "steps"), v] => (Given.count? v).map .steps
  | .arr [.str (some "deadline"), v] => (Given.count? v).map .deadline
  | _ => none

namespace Options

/-- Why options cannot be loaded. -/
inductive Error where
  | unreadable (path reason : String)
  | malformed
deriving DecidableEq, Repr

def Error.message : Error → String
  | .unreadable path reason => "Could not read options file '" ++ path ++ "': " ++ reason
  | .malformed => "Failed to parse options JSON: not an options object"

/-- A setting: its value if it is given once, the default if it is not given. -/
def setting {α : Type} (decode : Given → Option α) (default : α) : List Given → Option α
  | [] => some default
  | [v] => decode v
  | _ => none

/-- The options whose settings are given as these lists of values. -/
def ofParts? (limit stem path imports : List Given) : Option Options := do
  let default : Options := {}
  return {
    limit := ← setting Limit.ofJson? default.limit limit
    stem := ← setting Given.text? default.stem stem
    defaultOutputPath := ← setting Given.text? default.defaultOutputPath path
    imports := ← setting Given.texts? default.imports imports }

/-- The options that a JSON value describes. -/
def ofJson? : Given → Option Options
  | .obj members =>
    if members.all (·.1.isSome) then
      ofParts? (Given.valuesOf "budget" members) (Given.valuesOf "variable_prefix" members)
        (Given.valuesOf "default_output_path" members) (Given.valuesOf "imports" members)
    else
      none
  | .arr items =>
    if items.length ≤ 4 then
      ofParts? (items.take 1) ((items.drop 1).take 1) ((items.drop 2).take 1) (items.drop 3)
    else
      none
  | _ => none

/-- Loads options from a JSON text. -/
def load (source : String) : Except Error Options :=
  match (Json.read? source).bind ofJson? with
  | some options => .ok options
  | none => .error .malformed

end Options

end Flowscript
