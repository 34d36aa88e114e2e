import Flowscript.Distinct
import Mathlib.Data.List.Nodup

/-!
# Distinct entries keep their keys and their order

The keys that `distinctBy` leaves are those of the list outside `seen` (`mem_keys_distinctBy`). They
stand in the order in which the list first mentions them (`keys_distinctBy_pairwise`), so none of
them stands twice (`keys_distinctBy_nodup`). An entry that is left is the first with its key
(`find?_distinctBy`). Entries can be left out by their keys before or after (`distinctBy_filter`), and
where no key repeats nothing is left out (`distinctBy_eq_self`).
-/

namespace Flowscript

variable {α : Type} {key : α → String} {seen : List String} {k : String}

/-- The keys that are left are the keys outside `seen`. -/
lemma mem_keys_distinctBy {as : List α} :
    k ∈ (distinctBy key seen as).map key ↔ k ∈ as.map key ∧ k ∉ seen := by
  induction as generalizing seen with
  | nil => simp [distinctBy]
  | cons a as ih =>
    by_cases ha : key a ∈ seen
    · rw [distinctBy, if_pos ha, ih, List.map_cons, List.mem_cons]
      refine ⟨fun ⟨hk, hs⟩ => ⟨.inr hk, hs⟩, fun ⟨hk, hs⟩ => ⟨?_, hs⟩⟩
      rcases hk with rfl | hk
      · exact absurd ha hs
      · exact hk
    · rw [distinctBy, if_neg ha, List.map_cons, List.mem_cons, ih, List.map_cons, List.mem_cons,
        List.mem_cons]
      by_cases e : k = key a
      · subst e
        exact ⟨fun _ => ⟨.inl rfl, ha⟩, fun _ => .inl rfl⟩
      · simp only [e, false_or]

/-- The entries that are kept keep their order. -/
lemma distinctBy_sublist (seen : List String) (as : List α) : (distinctBy key seen as).Sublist as := by
  induction as generalizing seen with
  | nil => exact .slnil
  | cons a as ih =>
    rw [distinctBy]
    split
    · exact .cons a (ih _)
    · exact .cons_cons a (ih _)

/-- The keys that are left stand in the order of their first mention. -/
lemma keys_distinctBy_pairwise (as : List α) :
    ((distinctBy key seen as).map key).Pairwise
      fun k l => (as.map key).idxOf k < (as.map key).idxOf l := by
  induction as generalizing seen with
  | nil => exact .nil
  | cons a as ih =>
    -- Behind `a`, positions in `a :: as` are those in `as` plus one, for all keys but that of `a`.
    have shift : ∀ {seen : List String}, key a ∈ seen →
        ((distinctBy key seen as).map key).Pairwise
          fun k l => ((a :: as).map key).idxOf k < ((a :: as).map key).idxOf l := by
      intro seen hs
      apply ih.imp_of_mem
      intro k l hk hl h
      have ne : ∀ {k}, k ∈ (distinctBy key seen as).map key → key a ≠ k :=
        fun hk e => (mem_keys_distinctBy.1 hk).2 (e ▸ hs)
      rw [List.map_cons, List.idxOf_cons_ne _ (ne hk), List.idxOf_cons_ne _ (ne hl)]
      exact Nat.succ_lt_succ h
    by_cases ha : key a ∈ seen
    · rw [distinctBy, if_pos ha]
      exact shift ha
    · rw [distinctBy, if_neg ha, List.map_cons]
      refine .cons ?_ (shift List.mem_cons_self)
      intro l hl
      have ne : key a ≠ l := fun e => (mem_keys_distinctBy.1 hl).2 (e ▸ List.mem_cons_self)
      rw [List.idxOf_cons_self, List.idxOf_cons_ne _ ne]
      exact Nat.succ_pos _

/-- No key is kept twice. -/
lemma keys_distinctBy_nodup (as : List α) : ((distinctBy key seen as).map key).Nodup := by
  apply (keys_distinctBy_pairwise as).imp
  rintro k _ h rfl
  exact Nat.lt_irrefl _ h

/-- The keys that are left are those outside `seen`, each where it stands first. -/
lemma keys_distinctBy (seen : List String) (as : List α) :
    (distinctBy key seen as).map key = ((as.map key).filter (· ∉ seen)).eraseDups := by
  induction as generalizing seen with
  | nil => rfl
  | cons a as ih =>
    by_cases ha : key a ∈ seen
    · rw [distinctBy, if_pos ha, ih, List.map_cons, List.filter_cons_of_neg (by simpa using ha)]
    · rw [distinctBy, if_neg ha, List.map_cons, ih, List.map_cons,
        List.filter_cons_of_pos (by simpa using ha), List.eraseDups_cons, List.filter_filter]
      congr 3
      funext k
      rw [Bool.eq_iff_iff]
      simp

/-- Of `seen`, only the keys of the list matter. -/
lemma distinctBy_congr {seen' : List String} {as : List α}
    (h : ∀ a ∈ as, key a ∈ seen ↔ key a ∈ seen') : distinctBy key seen as = distinctBy key seen' as := by
  induction as generalizing seen seen' with
  | nil => rfl
  | cons a as ih =>
    have tail : ∀ b ∈ as, key b ∈ seen ↔ key b ∈ seen' := fun b hb => h b (List.mem_cons_of_mem a hb)
    have head := h a List.mem_cons_self
    by_cases ha : key a ∈ seen
    · rw [distinctBy, if_pos ha, distinctBy, if_pos (head.1 ha), ih tail]
    · rw [distinctBy, if_neg ha, distinctBy, if_neg (head.not.1 ha)]
      congr 1
      apply ih
      intro b hb
      rw [List.mem_cons, List.mem_cons, tail b hb]

/-- It does not matter whether entries are left out by their keys before or after. -/
lemma distinctBy_filter (p : String → Bool) (seen : List String) (as : List α) :
    distinctBy key seen (as.filter fun a => p (key a)) =
      (distinctBy key seen as).filter fun a => p (key a) := by
  induction as generalizing seen with
  | nil => rfl
  | cons a as ih =>
    by_cases hp : p (key a) = true
    · rw [List.filter_cons, if_pos hp]
      by_cases ha : key a ∈ seen
      · rw [distinctBy, if_pos ha, distinctBy, if_pos ha, ih]
      · rw [distinctBy, if_neg ha, distinctBy, if_neg ha, List.filter_cons, if_pos hp, ih]
    · -- The key of `a` stays out anyway, whether it has been seen or not.
      have unseen : ∀ b ∈ as.filter fun a => p (key a), key b ∈ seen ↔ key b ∈ key a :: seen := by
        intro b hb
        have ne : key b ≠ key a := fun e => hp (e ▸ (List.mem_filter.1 hb).2)
        rw [List.mem_cons, or_iff_right ne]
      rw [List.filter_cons, if_neg hp]
      by_cases ha : key a ∈ seen
      · rw [distinctBy, if_pos ha, ih]
      · rw [distinctBy, if_neg ha, List.filter_cons, if_neg hp, distinctBy_congr unseen, ih]

/-- Entries with different keys all stay. -/
lemma distinctBy_eq_self {as : List α} (nodup : (as.map key).Nodup)
    (fresh : ∀ a ∈ as, key a ∉ seen) : distinctBy key seen as = as := by
  induction as generalizing seen with
  | nil => rfl
  | cons a as ih =>
    rw [List.map_cons, List.nodup_cons] at nodup
    rw [distinctBy, if_neg (fresh a List.mem_cons_self), ih nodup.2]
    intro b hb hm
    rcases List.mem_cons.1 hm with e | hm
    · exact nodup.1 (e ▸ List.mem_map_of_mem hb)
    · exact fresh b (List.mem_cons_of_mem a hb) hm

/-- Entries that are made from others are left where those are. -/
lemma distinctBy_map {β : Type} (f : β → α) (seen : List String) (bs : List β) :
    distinctBy key seen (bs.map f) = (distinctBy (fun b => key (f b)) seen bs).map f := by
  induction bs generalizing seen with
  | nil => rfl
  | cons b bs ih =>
    rw [List.map_cons, distinctBy, distinctBy, ih, ih]
    split
    · rfl
    · rfl

/-- An entry that is left is the first with its key. -/
lemma find?_distinctBy {a : α} {as : List α} (h : a ∈ distinctBy key seen as) :
    as.find? (fun b => key b = key a) = some a := by
  induction as generalizing seen with
  | nil => cases h
  | cons b as ih =>
    have fresh : key a ∉ seen := (mem_keys_distinctBy.1 (List.mem_map_of_mem h)).2
    rw [distinctBy] at h
    split at h
    · next hb =>
      have ne : key b ≠ key a := fun e => fresh (e ▸ hb)
      rw [List.find?_cons_of_neg (by simpa using ne)]
      exact ih h
    · rcases List.mem_cons.1 h with rfl | h
      · exact List.find?_cons_of_pos (by simp)
      · have ne : key b ≠ key a := fun e =>
          (mem_keys_distinctBy.1 (List.mem_map_of_mem h)).2 (e ▸ List.mem_cons_self)
        rw [List.find?_cons_of_neg (by simpa using ne)]
        exact ih h

end Flowscript
