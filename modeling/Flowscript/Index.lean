/-!
# Indexes

Tables that keep something for each id, as lists of pairs. Every change to such a table is made to the
first pair of its id; where there is none, one is added at the end.
-/

namespace Flowscript

/-- The table with the number at this id changed, if the id has one. -/
def adjust (f : Nat → Nat) (id : String) (table : List (String × Nat)) : List (String × Nat) :=
  table.map fun (key, n) => if key = id then (key, f n) else (key, n)

/-- The table with this value at this key, over an old one if there is one. -/
def put {κ α : Type} [DecidableEq κ] (key : κ) (value : α) : List (κ × α) → List (κ × α)
  | [] => [(key, value)]
  | (other, old) :: rest =>
    if other = key then (other, value) :: rest else (other, old) :: put key value rest

/-- The index with one more entry at the end of the list for this id. -/
def record {α : Type} (id : String) (entry : α) : List (String × List α) → List (String × List α)
  | [] => [(id, [entry])]
  | (key, entries) :: rest =>
    if key = id then (key, entries ++ [entry]) :: rest else (key, entries) :: record id entry rest

/-- The entries recorded for an id, in their order. -/
def recorded {α : Type} (index : List (String × List α)) (id : String) : List α :=
  (index.lookup id).getD []

end Flowscript
