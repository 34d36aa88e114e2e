import Flowscript.Proofs.Script
import Flowscript.Proofs.Text

/-!
# Comments

A comment begins with a mark and ends with a line feed, and its text is put in between as it is. So the
remarks in a script stay comments just when no message has code behind its first line
(`commented_remarks`); a message on one line always does (`OneLine.contained`).
-/

namespace Flowscript

namespace Script

/-- A line ends at a line feed, and it may end at a carriage return. -/
structure LineEnds (ends : Char → Bool) : Prop where
  feed : ends '\n' = true
  only : ∀ x, ends x = true → x = '\n' ∨ x = '\r'

/-- The lines of a text. -/
def linesOf (ends : Char → Bool) (text : String) : List (List Char) :=
  Text.segments ends text.toList

/-- Nothing of this line is run. -/
def Inert (line : List Char) : Prop :=
  line = [] ∨ line.head? = some '#'

/-- Nothing of the text is run. -/
def Commented (ends : Char → Bool) (text : String) : Prop :=
  ∀ line ∈ linesOf ends text, Inert line

/-- Nothing of the message is run, if its first line is a comment. -/
def Contained (ends : Char → Bool) (message : String) : Prop :=
  ∀ line ∈ (linesOf ends message).tail, Inert line

/-- The text has no line end. -/
def OneLine (ends : Char → Bool) (text : String) : Prop :=
  ∀ x ∈ text.toList, ends x = false

instance (line : List Char) : Decidable (Inert line) :=
  inferInstanceAs (Decidable (_ ∨ _))

instance (ends : Char → Bool) (text : String) : Decidable (Commented ends text) :=
  inferInstanceAs (Decidable (∀ line ∈ linesOf ends text, Inert line))

-- By the characters of the text, and not by all that there are.
instance (ends : Char → Bool) (text : String) : Decidable (OneLine ends text) :=
  List.decidableBAll (fun x => ends x = false) text.toList

/-- What a part says in comments. -/
def Part.remarks : Part → String
  | .fragment f => String.join ((notices f).map comment)
  | part => part.text

/-- What a part has to be run. -/
def Part.statements : Part → List String
  | .fragment f => f.statements
  | _ => []

/-- The messages in the comments of a part. -/
def Part.messages : Part → List String
  | .fragment f => notices f
  | .summary frames => ["Available DataFrames: " ++ String.intercalate ", " frames]
  | .timeout =>
    ["Conversion timed out. Some nodes may not have been processed due to potential cycles."]
  | .unprocessed ids => if ids = [] then [] else [unprocessedMessage ids]

variable {ends : Char → Bool} {a b text message : String}

/-- The comments of a part stand before its statements. -/
lemma Part.text_eq_remarks (part : Part) : part.text = part.remarks ++ unlines part.statements := by
  cases part with
  | fragment f => rfl
  | _ => exact (String.append_empty).symm

/-! ## Lines -/

/-- A line feed ends a line. -/
lemma linesOf_append (le : LineEnds ends) (a b : String) :
    linesOf ends (a ++ "\n" ++ b) = linesOf ends a ++ linesOf ends b := by
  have chars : (a ++ "\n" ++ b).toList = a.toList ++ '\n' :: b.toList := by simp
  simp only [linesOf, chars, Text.segments_eq_splitOnP]
  exact List.splitOnP_append_cons _ _ le.feed

/-- A text without a line end is one line. -/
lemma linesOf_of_oneLine (one : OneLine ends text) : linesOf ends text = [text.toList] := by
  rw [linesOf, Text.segments_eq_splitOnP]
  exact List.splitOnP_eq_singleton one

/-- On lines of their own, two texts are not run if neither of them is. -/
lemma commented_append (le : LineEnds ends) (a b : String) :
    Commented ends (a ++ "\n" ++ b) ↔ Commented ends a ∧ Commented ends b := by
  rw [Commented, linesOf_append le, List.forall_mem_append]
  rfl

/-- There is nothing to run in an empty text. -/
lemma commented_empty (ends : Char → Bool) : Commented ends "" := by
  intro line h
  rw [linesOf_of_oneLine (fun x hx => by simp at hx)] at h
  exact .inl (List.mem_singleton.1 h)

/-- No other characters end a line. -/
lemma LineEnds.eq_false (le : LineEnds ends) {x : Char} (feed : x ≠ '\n') (ret : x ≠ '\r') :
    ends x = false := by
  cases e : ends x with
  | false => rfl
  | true =>
    rcases le.only x e with rfl | rfl
    · exact absurd rfl feed
    · exact absurd rfl ret

/-- A text without line feeds and carriage returns is on one line. -/
lemma LineEnds.oneLine (le : LineEnds ends) (feed : '\n' ∉ text.toList)
    (ret : '\r' ∉ text.toList) : OneLine ends text :=
  fun _ hx => le.eq_false (ne_of_mem_of_not_mem hx feed) (ne_of_mem_of_not_mem hx ret)

/-- Two texts on one line are one line together. -/
lemma OneLine.append (ha : OneLine ends a) (hb : OneLine ends b) : OneLine ends (a ++ b) := by
  intro x hx
  rw [String.toList_append, List.mem_append] at hx
  rcases hx with hx | hx
  · exact ha x hx
  · exact hb x hx

/-- So are several with a separator in between. -/
lemma OneLine.intercalate {separator : String} {texts : List String} (hs : OneLine ends separator)
    (h : ∀ text ∈ texts, OneLine ends text) : OneLine ends (separator.intercalate texts) := by
  induction texts with
  | nil => simp [OneLine]
  | cons text texts ih =>
    have first := h text List.mem_cons_self
    have rest := ih fun t ht => h t (List.mem_cons_of_mem _ ht)
    cases texts with
    | nil => simpa using first
    | cons next texts =>
      rw [String.intercalate_cons_cons]
      exact (first.append hs).append rest

/-- A message on one line stays in its comment. -/
lemma OneLine.contained (one : OneLine ends message) : Contained ends message := by
  intro line h
  rw [linesOf_of_oneLine one] at h
  cases h

/-! ## Comments and their messages -/

/-- The mark goes to the first line of a message and to no other. -/
lemma linesOf_mark (le : LineEnds ends) (message : String) :
    ∃ line, linesOf ends ("# " ++ message) = ('#' :: line) :: (linesOf ends message).tail := by
  have hash : ends '#' = false := le.eq_false (by decide) (by decide)
  have blank : ends ' ' = false := le.eq_false (by decide) (by decide)
  have chars : ("# " ++ message).toList = '#' :: ' ' :: message.toList := by simp
  simp only [linesOf, chars, Text.segments, hash, blank]
  cases h : Text.segments ends message.toList with
  | nil =>
    rw [Text.segments_eq_splitOnP] at h
    exact absurd h (List.splitOnP_ne_nil ends _)
  | cons s ss => exact ⟨' ' :: s, rfl⟩

/-- Behind the mark of a comment, only the lines after the first can be run. -/
lemma commented_mark (le : LineEnds ends) (message : String) :
    Commented ends ("# " ++ message) ↔ Contained ends message := by
  obtain ⟨line, lines⟩ := linesOf_mark le message
  rw [Commented, lines, List.forall_mem_cons]
  constructor
  · rintro ⟨-, rest⟩
    exact rest
  · intro rest
    exact ⟨.inr rfl, rest⟩

/-- Comments are not run if each of their messages is contained. -/
lemma commented_comments (le : LineEnds ends) (messages : List String) :
    Commented ends (String.join (messages.map comment)) ↔
      ∀ message ∈ messages, Contained ends message := by
  induction messages with
  | nil => simpa using commented_empty ends
  | cons message messages ih =>
    rw [List.map_cons, String.join_cons, comment, commented_append le, commented_mark le, ih,
      List.forall_mem_cons]

/-- An empty line before a comment makes no difference. -/
lemma commented_spaced (le : LineEnds ends) (message : String) :
    Commented ends ("\n" ++ comment message) ↔ Contained ends message := by
  have spaced : "\n" ++ comment message = "" ++ "\n" ++ ("# " ++ message ++ "\n" ++ "") := by
    simp [comment]
  rw [spaced, commented_append le, commented_append le, commented_mark le]
  simp [commented_empty]

/-- The remarks of a part stay comments just when no message has code behind its first line. -/
lemma commented_remarks (le : LineEnds ends) (part : Part) :
    Commented ends part.remarks ↔ ∀ message ∈ part.messages, Contained ends message := by
  cases part with
  | fragment f => exact commented_comments le (notices f)
  | summary frames => exact (commented_spaced le _).trans List.forall_mem_singleton.symm
  | timeout => exact (commented_spaced le _).trans List.forall_mem_singleton.symm
  | unprocessed ids =>
    cases ids with
    | nil =>
      have nothing : Commented ends "" := commented_empty ends
      simpa [Part.remarks, Part.text, Part.messages] using nothing
    | cons id ids => exact (commented_spaced le _).trans List.forall_mem_singleton.symm

end Script

end Flowscript
