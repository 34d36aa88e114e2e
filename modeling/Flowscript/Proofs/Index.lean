import Flowscript.Index
import Mathlib.Data.List.Basic

/-!
# What is found in an index

Each change to a table is told by what a look-up finds afterwards: `lookup_adjust`, `lookup_put`, and
`recorded_record` for an index of lists. An index that is filled entry by entry holds, at each id, the
entries that were recorded for it, in their order (`recorded_foldl_record`).
-/

namespace Flowscript

variable {α : Type}

/-- A look-up finds nothing just when no pair has the key. -/
lemma lookup_eq_none {ps : List (String × α)} {id : String} :
    ps.lookup id = none ↔ id ∉ ps.map Prod.fst := by
  rw [List.lookup_eq_none_iff, List.mem_map]
  constructor
  · rintro h ⟨p, hp, rfl⟩
    simpa using h p hp
  · intro h p hp
    exact bne_iff_ne.2 fun e => h ⟨p, hp, e.symm⟩

/-- What a look-up finds is in the table. -/
lemma mem_of_lookup {ps : List (String × α)} {id : String} {a : α} (h : ps.lookup id = some a) :
    (id, a) ∈ ps := by
  obtain ⟨qs, rs, rfl, -⟩ := List.lookup_eq_some_iff.1 h
  exact List.mem_append_right _ List.mem_cons_self

/-- A changed number is found at its own id and nowhere else. -/
lemma lookup_adjust (f : Nat → Nat) (id key : String) (table : List (String × Nat)) :
    (adjust f id table).lookup key =
      if key = id then (table.lookup key).map f else table.lookup key := by
  induction table with
  | nil => simp [adjust]
  | cons entry rest ih =>
    obtain ⟨k, n⟩ := entry
    simp only [adjust, List.map_cons] at ih ⊢
    by_cases hk : k = id <;> by_cases e : key = k <;> grind

/-- A value that is put into a table is found at its own id and nowhere else. -/
lemma lookup_put (id key : String) (value : α) (table : List (String × α)) :
    (put id value table).lookup key = if key = id then some value else table.lookup key := by
  induction table with
  | nil => by_cases e : key = id <;> grind [put]
  | cons entry rest ih =>
    obtain ⟨k, old⟩ := entry
    by_cases hk : k = id <;> by_cases e : key = k <;> grind [put]

/-- A new entry is found at the end of the list for its own id. -/
lemma recorded_record (id key : String) (entry : α) (index : List (String × List α)) :
    recorded (record id entry index) key =
      recorded index key ++ if key = id then [entry] else [] := by
  simp only [recorded]
  induction index with
  | nil => by_cases e : key = id <;> grind [record]
  | cons head rest ih =>
    obtain ⟨k, entries⟩ := head
    by_cases hk : k = id <;> by_cases e : key = k <;> grind [record]

/-- Recording one thing after the other, the list at an id grows by the entries for it. -/
lemma recorded_foldl_record {β : Type} (id : β → String) (entry : β → α) (bs : List β)
    (index : List (String × List α)) (key : String) :
    recorded (bs.foldl (fun index b => record (id b) (entry b) index) index) key =
      recorded index key ++ (bs.filter (id · = key)).map entry := by
  induction bs generalizing index with
  | nil => simp
  | cons b bs ih =>
    rw [List.foldl_cons, ih, recorded_record, List.filter_cons]
    by_cases e : key = id b
    · simp [e]
    · simp [e, Ne.symm e]

end Flowscript
