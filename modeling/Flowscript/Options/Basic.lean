import Flowscript.Schedule.Budget

/-!
# Options

The settings that shape a script. Each has a default.
-/

namespace Flowscript

/-- How long a run may go on. -/
inductive Limit where
  | unlimited
  | steps (nodes : Nat)
  | deadline (milliseconds : Nat)
deriving DecidableEq, Repr

/-- The numbers in a limit stay below this bound, two to the power of 64. -/
def Limit.bound : Nat :=
  18446744073709551616

/-- The budget for one run, by this clock. -/
def Limit.budget (clock : Clock) : Limit → Budget
  | .unlimited => .unlimited
  | .steps nodes => .steps nodes
  | .deadline milliseconds => .deadline clock milliseconds

/-- The answer of the budget for one run, by a clock that is looked at before each visit. -/
def Limit.ask {m : Type → Type} [Monad m] (clock : Nat → m Nat) (limit : Limit) (checks : List Check)
    (visited : Nat) : m Bool := do
  let shown ← clock checks.length
  return limit.budget (fun _ => shown) checks visited

/-- The limit of a run, the stem of frame names, the path that a sink without one writes to, and the
first lines of a script. -/
structure Options where
  limit : Limit := .deadline 10000
  stem : String := "df_tool_"
  defaultOutputPath : String := "output.csv"
  imports : List String := [
    "import pandas as pd",
    "import requests",
    "from io import StringIO",
    "import numpy as np",
    "from geopy.distance import great_circle"]
deriving DecidableEq, Repr

end Flowscript
