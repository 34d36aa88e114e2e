import Flowscript.Text
import Mathlib.Data.List.TakeWhile
import Mathlib.Tactic.Lemma

/-!
# Cuts

What the cuts of a text are, in terms of what stands between them: the pieces between separators
(`segments_eq_splitOnP`) hold none of them, and a cut at the first separator (`cutFirst_eq_some`) leaves
none before it. The lines of a text are its pieces between line feeds, as far as a carriage return at
their end and an empty piece at the end of the text do not matter (`filterMap_lines`); for what is trimmed, a
carriage return at the end never does (`trim_append_blank`).
-/

namespace Flowscript.Text

variable {α : Type} {p : Char → Bool} {c : Char} {cs before after : List Char}

/-- The segments of a text are those of the library. -/
lemma segments_eq_splitOnP (p : Char → Bool) (cs : List Char) :
    segments p cs = cs.splitOnP p := by
  induction cs with
  | nil => rw [segments, List.splitOnP_nil]
  | cons c cs ih =>
    rw [segments, List.splitOnP_cons_eq_if_modifyHead, ih]
    cases h : cs.splitOnP p with
    | nil => exact absurd h (List.splitOnP_ne_nil p cs)
    | cons s ss => rfl

/-- A piece holds no separator. -/
lemma eq_false_of_mem_segments {s : List Char} (hs : s ∈ segments p cs) : ∀ x ∈ s, p x = false := by
  induction cs generalizing s with
  | nil =>
    rw [segments, List.mem_singleton] at hs
    subst hs
    exact nofun
  | cons c cs ih =>
    rw [segments] at hs
    split at hs
    · rcases List.mem_cons.1 hs with rfl | hs
      · exact nofun
      · exact ih hs
    · next hc =>
      have kept : p c = false := Bool.eq_false_iff.2 hc
      split at hs
      · next first rest eq =>
        rw [eq] at ih
        rcases List.mem_cons.1 hs with rfl | hs
        · intro x hx
          rcases List.mem_cons.1 hx with rfl | hx
          · exact kept
          · exact ih List.mem_cons_self x hx
        · exact ih (List.mem_cons_of_mem first hs)
      · rw [List.mem_singleton] at hs
        subst hs
        simpa using kept

/-- What has no separator in it is the last piece behind one. -/
lemma lastSegment_append_cons (hc : p c = true) (before : List Char) (h : ∀ x ∈ after, p x = false) :
    lastSegment p (before ++ c :: after) = after := by
  rw [lastSegment, segments_eq_splitOnP, List.splitOnP_append_cons before after hc,
    List.splitOnP_eq_singleton h]
  simp

/-- A text is cut where the first separator stands. -/
lemma cutFirst_eq_some :
    cutFirst c cs = some (before, after) ↔ cs = before ++ c :: after ∧ c ∉ before := by
  unfold cutFirst
  constructor
  · intro h
    split at h
    · cases h
    · next x rest eq =>
      cases h
      have head : x = c := by
        have stop := List.head?_dropWhile_not (· != c) cs
        rw [eq] at stop
        simpa using stop
      have whole := List.takeWhile_append_dropWhile (p := (· != c)) (l := cs)
      rw [eq, head] at whole
      refine ⟨whole.symm, fun hc => ?_⟩
      have kept := List.mem_takeWhile_imp hc
      simp at kept
  · rintro ⟨rfl, hc⟩
    have pass : ∀ x ∈ before, (x != c) = true := fun x hx => bne_iff_ne.2 fun e => hc (e ▸ hx)
    rw [List.dropWhile_append_of_pos pass, List.takeWhile_append_of_pos pass]
    simp

/-- A separator splits a text into what is split before it and behind it. -/
lemma splitOn_append_cons (c : Char) (before after : List Char) :
    (before ++ c :: after).splitOn c = before.splitOn c ++ after.splitOn c := by
  simp only [List.splitOn_eq_splitOnP]
  exact List.splitOnP_append_cons before after (beq_self_eq_true c)

/-- What is made of the lines of a text is made of the pieces between line feeds, if nothing is made of an
empty one and a carriage return at the end of one does not matter. -/
lemma filterMap_lines {f : List Char → Option α} (empty : f [] = none)
    (ret : ∀ line, f (dropReturn line) = f line) (cs : List Char) :
    (lines cs).filterMap f = (cs.splitOn '\n').filterMap f := by
  fun_induction lines cs with
  | case1 => simp [empty]
  | case2 c cs none =>
    have feed : '\n' ∉ c :: cs := by
      intro h
      have kept := List.dropWhile_eq_nil_iff.1 none _ h
      simp at kept
    rw [List.splitOn_eq_singleton feed]
  | case3 c cs x rest eq ih =>
    have cut : cutFirst '\n' (c :: cs) = some ((c :: cs).takeWhile (· != '\n'), rest) := by
      rw [cutFirst, eq]
    obtain ⟨whole, first⟩ := cutFirst_eq_some.1 cut
    have pieces : (c :: cs).splitOn '\n' =
        (c :: cs).takeWhile (· != '\n') :: rest.splitOn '\n' := by
      refine (congrArg (List.splitOn '\n') whole).trans ?_
      rw [splitOn_append_cons, List.splitOn_eq_singleton first, List.singleton_append]
    rw [pieces, List.filterMap_cons, List.filterMap_cons, ret, ih]

/-- A line is what is left of it, and perhaps a carriage return behind it. -/
lemma dropReturn_cases (line : List Char) :
    dropReturn line = line ∨ line = dropReturn line ++ ['\r'] := by
  rw [dropReturn]
  split
  · next last =>
    rw [List.getLast?_eq_some_iff] at last
    obtain ⟨front, rfl⟩ := last
    exact .inr (by simp)
  · exact .inl rfl

/-- A character to be trimmed makes no difference at the end. -/
lemma trimEnd_append_singleton (hc : p c = true) (cs : List Char) :
    trimEnd p (cs ++ [c]) = trimEnd p cs := by
  rw [trimEnd, List.reverse_concat, List.dropWhile_cons_of_pos hc, trimEnd]

/-- A blank at the end is trimmed away. -/
lemma trim_append_blank (hc : isBlank c = true) (cs : List Char) : trim (cs ++ [c]) = trim cs := by
  rw [trim, trim, List.dropWhile_append]
  split
  · next blank =>
    rw [List.isEmpty_iff.1 blank, List.dropWhile_cons_of_pos hc]
    rfl
  · exact trimEnd_append_singleton hc _

end Flowscript.Text
