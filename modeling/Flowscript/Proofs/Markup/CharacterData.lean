import Flowscript.Proofs.Markup.Printed
import Mathlib.Data.List.DropRight

/-!
# Character data

The text between two pieces of markup loses the blanks at its ends (`trimmed`), and then its references are
replaced. `Unescaped` says what a text with references stands for, wherever it stands. Two texts one after
the other stand for the two parts one after the other, if no reference is cut (`Unescaped.of_append`), but
trimming them apart also drops the blanks where they meet: `gap` is what is lost (`trimmed_append`).
-/

namespace Flowscript.Markup

variable {c : Char} {cs left right value name : List Char} {total offset : Nat}

/-! ## References -/

/-- The text with references stands for this value. -/
inductive Unescaped : List Char → List Char → Prop where
  | nil : Unescaped [] []
  | char {c : Char} {cs value : List Char} :
      c ≠ '&' →
      Unescaped cs value →
      Unescaped (c :: cs) (c :: value)
  | reference {c : Char} {name cs value : List Char} :
      (∀ d ∈ name, endsName d = false) →
      (∀ start, resolve start name = .ok c) →
      Unescaped cs value →
      Unescaped ('&' :: (name ++ ';' :: cs)) (c :: value)

/-- A name that stands for a character does so wherever it starts. -/
lemma resolve_eq_ok {start : Nat} (h : resolve start name = .ok c) (start' : Nat) :
    resolve start' name = .ok c := by
  rw [resolve.eq_def] at h ⊢
  split at h
  · exact h
  · exact h
  · exact h
  · exact h
  · exact h
  · exact h
  · cases h

/-- Replacing the references gives the value, wherever the text stands. -/
lemma Unescaped.unescapeFrom_eq (h : Unescaped cs value) (total offset : Nat) :
    unescapeFrom total offset cs = .ok value := by
  induction h generalizing offset with
  | nil => rw [unescapeFrom]
  | char amp _ ih =>
    rw [unescapeFrom_char amp, ih]
    rfl
  | reference inside means _ ih =>
    rw [unescapeFrom_reference inside (means _), ih]
    rfl

/-- Two steps succeed if the first does and the second does with its result. -/
lemma bind_eq_ok {ε α β : Type} {x : Except ε α} {f : α → Except ε β} {y : β} :
    (x >>= f) = .ok y ↔ ∃ a, x = .ok a ∧ f a = .ok y := by
  cases x with
  | error e => simp [bind, Except.bind]
  | ok a => simp [bind, Except.bind]

/-- What replacing the references gives is what the text stands for. -/
lemma unescaped_of_unescapeFrom (h : unescapeFrom total offset cs = .ok value) :
    Unescaped cs value := by
  fun_induction unescapeFrom total offset cs generalizing value with
  | case1 =>
    cases h
    exact .nil
  | case2 offset cs name rest eq =>
    rename_i ih
    obtain ⟨c, means, h⟩ := bind_eq_ok.1 h
    obtain ⟨value, tail, h⟩ := bind_eq_ok.1 h
    cases h
    have inside : ∀ d ∈ name, endsName d = false := by
      intro d hd
      simpa using List.all_eq_true.1 List.all_takeWhile d hd
    have whole : cs = name ++ ';' :: rest := by
      rw [← eq, List.takeWhile_append_dropWhile]
    rw [whole]
    exact .reference inside (resolve_eq_ok means) (ih tail)
  | case3 => cases h
  | case4 offset c cs amp ih =>
    obtain ⟨value, tail, h⟩ := bind_eq_ok.1 h
    cases h
    exact .char amp (ih tail)

/-- Replacing the references in a text gives what it stands for, or fails. -/
lemma unescape_eq_ok : unescape cs = .ok value ↔ Unescaped cs value :=
  ⟨unescaped_of_unescapeFrom, fun h => h.unescapeFrom_eq _ _⟩

/-- A text stands for one value only. -/
lemma Unescaped.unique {value' : List Char} (h : Unescaped cs value) (h' : Unescaped cs value') :
    value = value' :=
  Except.ok.inj ((unescape_eq_ok.2 h).symm.trans (unescape_eq_ok.2 h'))

/-- Without a reference, a text stands for itself. -/
lemma unescaped_self (h : '&' ∉ cs) : Unescaped cs cs := by
  induction cs with
  | nil => exact .nil
  | cons c cs ih =>
    rw [List.mem_cons, not_or] at h
    exact .char (Ne.symm h.1) (ih h.2)

/-- The text does not end inside a reference. -/
def Whole (cs : List Char) : Prop :=
  ∀ u v, cs = u ++ '&' :: v → ';' ∈ v

/-- A text stays whole without its first character. -/
lemma Whole.of_cons (h : Whole (c :: cs)) : Whole cs :=
  fun u v e => h (c :: u) v (e ▸ rfl)

/-- A text without `&` is whole. -/
lemma whole_of_plain (h : '&' ∉ cs) : Whole cs := by
  rintro u v rfl
  exact absurd (List.mem_append_right u List.mem_cons_self) h

/-- A text is whole if its last reference is closed. -/
lemma whole_of_close (h : '&' ∉ right) : Whole (left ++ ';' :: right) := by
  intro u v e
  rcases List.append_eq_append_iff.1 e with ⟨w, -, e⟩ | ⟨w, -, e⟩
  · cases w with
    | nil => exact absurd (List.cons.inj e).1 (by decide)
    | cons d w =>
      obtain rfl := (List.cons.inj e).2
      exact absurd (List.mem_append_right w List.mem_cons_self) h
  · cases w with
    | nil => exact absurd (List.cons.inj e).1 (by decide)
    | cons d w =>
      obtain rfl := (List.cons.inj e).2
      exact List.mem_append_right w List.mem_cons_self

/-- Where no reference is cut, the parts of a text stand for the parts of its value. -/
lemma Unescaped.of_append (h : Unescaped (left ++ right) value) (whole : Whole left) :
    ∃ v w, value = v ++ w ∧ Unescaped left v ∧ Unescaped right w := by
  generalize e : left ++ right = cs at h
  induction h generalizing left with
  | nil =>
    obtain ⟨rfl, rfl⟩ := List.append_eq_nil_iff.1 e
    exact ⟨[], [], rfl, .nil, .nil⟩
  | @char c cs value amp tail ih =>
    cases left with
    | nil =>
      rw [List.nil_append] at e
      exact ⟨[], _, rfl, .nil, e ▸ .char amp tail⟩
    | cons d left =>
      obtain ⟨rfl, behind⟩ := List.cons.inj e
      obtain ⟨v, w, rfl, hv, hw⟩ := ih whole.of_cons behind
      exact ⟨d :: v, w, rfl, .char amp hv, hw⟩
  | @reference c name cs value inside means tail ih =>
    cases left with
    | nil =>
      rw [List.nil_append] at e
      exact ⟨[], _, rfl, .nil, e ▸ .reference inside means tail⟩
    | cons d left =>
      obtain ⟨rfl, behind⟩ := List.cons.inj e
      have close : ';' ∈ left := whole [] left rfl
      rcases List.append_eq_append_iff.1 behind with ⟨rest, rfl, rfl⟩ | ⟨rest, rfl, eq⟩
      · exact absurd (inside ';' (List.mem_append_left rest close)) (by decide)
      · cases rest with
        | nil =>
          rw [List.append_nil] at close
          exact absurd (inside ';' close) (by decide)
        | cons d rest =>
          obtain ⟨rfl, rfl⟩ := List.cons.inj eq
          have whole' : Whole rest := fun u v e => whole ('&' :: (name ++ ';' :: u)) v (by simp [e])
          obtain ⟨v, w, rfl, hv, hw⟩ := ih whole' rfl
          exact ⟨c :: v, w, rfl, .reference inside means hv, hw⟩

/-! ## Blanks -/

/-- There is nothing but blanks. -/
def Blank (cs : List Char) : Prop :=
  ∀ c ∈ cs, Text.isSpace c = true

instance (cs : List Char) : Decidable (Blank cs) :=
  List.decidableBAll (fun c => Text.isSpace c = true) cs

/-- The text without the blanks at its ends. -/
def trimmed (cs : List Char) : List Char :=
  Text.trimEnd Text.isSpace (cs.dropWhile Text.isSpace)

/-- The blanks where two texts meet, if there are words in both of them. -/
def gap (left right : List Char) : List Char :=
  if Blank left ∨ Blank right then []
  else left.rtakeWhile Text.isSpace ++ right.takeWhile Text.isSpace

/-- A text is blank if both of its parts are. -/
lemma blank_append : Blank (left ++ right) ↔ Blank left ∧ Blank right :=
  List.forall_mem_append

/-- The blanks in front are blanks. -/
lemma blank_takeWhile (cs : List Char) : Blank (cs.takeWhile Text.isSpace) :=
  List.all_eq_true.1 List.all_takeWhile

/-- A text with a word in it keeps the word when the blanks in front are dropped. -/
lemma not_blank_dropWhile (h : ¬ Blank cs) : ¬ Blank (cs.dropWhile Text.isSpace) := by
  intro blank
  apply h
  rw [← List.takeWhile_append_dropWhile (p := Text.isSpace) (l := cs)]
  exact blank_append.2 ⟨blank_takeWhile cs, blank⟩

/-- What is lost between two texts is blank. -/
lemma blank_gap (left right : List Char) : Blank (gap left right) := by
  rw [gap]
  split
  · exact nofun
  · exact blank_append.2 ⟨fun c hc => List.mem_rtakeWhile_imp hc, blank_takeWhile right⟩

/-- The blanks in front end at the first word. -/
lemma dropWhile_append_of_not_blank (h : ¬ Blank left) (right : List Char) :
    (left ++ right).dropWhile Text.isSpace = left.dropWhile Text.isSpace ++ right := by
  rw [List.dropWhile_append, if_neg]
  rw [List.isEmpty_iff, List.dropWhile_eq_nil_iff]
  exact h

/-- The blanks at the end begin behind the last word. -/
lemma trimEnd_append (h : ¬ Blank right) (left : List Char) :
    Text.trimEnd Text.isSpace (left ++ right) = left ++ Text.trimEnd Text.isSpace right := by
  have behind : ¬ Blank right.reverse := fun blank => h fun c hc => blank c (List.mem_reverse.2 hc)
  rw [Text.trimEnd, List.reverse_append, dropWhile_append_of_not_blank behind, List.reverse_append,
    List.reverse_reverse]
  rfl

/-- Blanks behind a text are trimmed with its own. -/
lemma trimEnd_append_blank (h : Blank right) (left : List Char) :
    Text.trimEnd Text.isSpace (left ++ right) = Text.trimEnd Text.isSpace left := by
  have behind : ∀ c ∈ right.reverse, Text.isSpace c = true := fun c hc => h c (List.mem_reverse.1 hc)
  rw [Text.trimEnd, List.reverse_append, List.dropWhile_append_of_pos behind]
  rfl

/-- The blanks at the end are those behind the last word. -/
lemma rtakeWhile_append (h : ¬ Blank right) (left : List Char) :
    (left ++ right).rtakeWhile Text.isSpace = right.rtakeWhile Text.isSpace := by
  rw [List.rtakeWhile, List.reverse_append, List.takeWhile_append, if_neg, List.rtakeWhile]
  intro same
  have all := (List.takeWhile_prefix Text.isSpace).eq_of_length same
  rw [List.takeWhile_eq_self_iff] at all
  exact h fun c hc => all c (List.mem_reverse.2 hc)

/-- Behind the blanks in front stands what is left when the text is trimmed, and then the blanks at its
end. -/
lemma dropWhile_eq_trimmed (h : ¬ Blank cs) :
    cs.dropWhile Text.isSpace = trimmed cs ++ cs.rtakeWhile Text.isSpace := by
  have last := rtakeWhile_append (not_blank_dropWhile h) (cs.takeWhile Text.isSpace)
  rw [List.takeWhile_append_dropWhile] at last
  rw [last]
  exact List.rdropWhile_append_rtakeWhile.symm

/-- Of blanks nothing is left. -/
lemma trimmed_of_blank (h : Blank cs) : trimmed cs = [] := by
  rw [trimmed, List.dropWhile_eq_nil_iff.2 h]
  rfl

/-- Blanks before a text are trimmed. -/
lemma trimmed_blank_append (h : Blank left) (right : List Char) :
    trimmed (left ++ right) = trimmed right := by
  rw [trimmed, List.dropWhile_append_of_pos h, trimmed]

/-- Blanks behind a text are trimmed. -/
lemma trimmed_append_blank (h : Blank right) (left : List Char) :
    trimmed (left ++ right) = trimmed left := by
  by_cases blank : Blank left
  · rw [trimmed_blank_append blank, trimmed_of_blank h, trimmed_of_blank blank]
  · rw [trimmed, dropWhile_append_of_not_blank blank, trimEnd_append_blank h, trimmed]

/-- Trimmed apart, two texts with words lose the blanks where they meet. -/
lemma trimmed_append (hl : ¬ Blank left) (hr : ¬ Blank right) :
    trimmed (left ++ right) = trimmed left ++ (gap left right ++ trimmed right) := by
  have behind : Text.trimEnd Text.isSpace right = right.takeWhile Text.isSpace ++ trimmed right := by
    rw [trimmed, ← trimEnd_append (not_blank_dropWhile hr), List.takeWhile_append_dropWhile]
  rw [trimmed, dropWhile_append_of_not_blank hl, trimEnd_append hr, dropWhile_eq_trimmed hl, behind,
    gap, if_neg (not_or.2 ⟨hl, hr⟩)]
  simp only [List.append_assoc]

/-- No blank is part of a reference. -/
lemma Whole.trimmed (h : Whole cs) (words : ¬ Blank cs) : Whole (trimmed cs) := by
  intro u v e
  have all : cs = (cs.takeWhile Text.isSpace ++ u) ++ '&' :: (v ++ cs.rtakeWhile Text.isSpace) := by
    have split := List.takeWhile_append_dropWhile (p := Text.isSpace) (l := cs)
    rw [dropWhile_eq_trimmed words, e] at split
    simpa using split.symm
  rcases List.mem_append.1 (h _ _ all) with inside | blank
  · exact inside
  · exact absurd (List.mem_rtakeWhile_imp blank) (by decide)

end Flowscript.Markup
