/-!
# Budgets

A budget is asked before each node whether to stop. Its answer may depend on how many nodes have
been visited and on everything it was asked before.
-/

namespace Flowscript

/-- One question to a budget: the number of nodes visited so far, and the answer. -/
structure Check where
  steps : Nat
  exhausted : Bool
deriving DecidableEq, Repr

/-- Whether to stop, given the earlier checks in their order and the number of nodes visited. -/
def Budget : Type :=
  List Check → Nat → Bool

/-- The nanoseconds since the start of a run that a clock shows at each check. -/
def Clock : Type :=
  Nat → Nat

namespace Budget

/-- Never stops. -/
def unlimited : Budget :=
  fun _ _ => false

/-- Stops before the first node. -/
def expired : Budget :=
  fun _ _ => true

/-- Lets this many nodes pass. -/
def steps (limit : Nat) : Budget :=
  fun _ visited => limit ≤ visited

/-- Stops once more than this many milliseconds have gone by. -/
def deadline (clock : Clock) (milliseconds : Nat) : Budget :=
  fun checks _ => milliseconds * 1000000 < clock checks.length

/-- Gives these answers one after the other, and then goes on for ever. -/
def scripted (answers : List Bool) : Budget :=
  fun checks _ => answers.getD checks.length false

end Budget

/-- A clock that goes on by one nanosecond from check to check. -/
def Clock.ticking : Clock :=
  fun checks => checks + 1

end Flowscript
