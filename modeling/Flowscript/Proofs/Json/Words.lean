import Flowscript.Json.Reader
import Flowscript.Json.Writer
import Flowscript.Proofs.Json.Spelling

/-!
# The words of a written value

A value that is written spells its words (`spelling_write`), whatever blanks the layout puts between
them. `Proper` says of a value that its numbers are written as JSON has them; of its texts nothing is
asked.
-/

namespace Flowscript.Json

/-! ## Texts -/

/-- A character is written as a letter behind a backslash, by its number, or as it is. -/
lemma escapeChar_cases (c : Char) :
    (∃ e, escaped? e = some c ∧ escapeChar c = ['\\', e]) ∨
    (c.toNat < 0x20 ∧ escapeChar c =
      ['\\', 'u', '0', '0', Nat.digitChar (c.toNat / 16), Nat.digitChar (c.toNat % 16)]) ∨
    (c ≠ '"' ∧ c ≠ '\\' ∧ ¬ c.toNat < 0x20 ∧ escapeChar c = [c]) := by
  fun_cases escapeChar c with
  | case1 quote => exact .inl ⟨'"', by rw [quote]; rfl, rfl⟩
  | case2 _ slash => exact .inl ⟨'\\', by rw [slash]; rfl, rfl⟩
  | case3 _ _ backspace => exact .inl ⟨'b', by rw [backspace]; rfl, rfl⟩
  | case4 _ _ _ feed => exact .inl ⟨'f', by rw [feed]; rfl, rfl⟩
  | case5 _ _ _ _ line => exact .inl ⟨'n', by rw [line]; rfl, rfl⟩
  | case6 _ _ _ _ _ ret => exact .inl ⟨'r', by rw [ret]; rfl, rfl⟩
  | case7 _ _ _ _ _ _ tab => exact .inl ⟨'t', by rw [tab]; rfl, rfl⟩
  | case8 _ _ _ _ _ _ _ control => exact .inr (.inl ⟨control, rfl⟩)
  | case9 quote slash _ _ _ _ _ control => exact .inr (.inr ⟨quote, slash, control, rfl⟩)

/-- A control character takes two zeros and two further digits. -/
lemma isUnit_control {n : Nat} (h : n < 0x20) :
    IsUnit n '0' '0' (Nat.digitChar (n / 16)) (Nat.digitChar (n % 16)) where
  lt := by omega
  first := by
    rw [Nat.div_eq_of_lt (by omega)]
    exact .inl rfl
  second := by
    rw [Nat.div_eq_of_lt (by omega)]
    exact .inl rfl
  third := by
    rw [Nat.mod_eq_of_lt (by omega)]
    exact .inl rfl
  fourth := .inl rfl

/-- The characters as they are written in quotes stand for the characters. -/
lemma spells_escape (s : List Char) : Spells (s.flatMap escapeChar) s := by
  induction s with
  | nil => exact .nil
  | cons c s ih =>
    rw [List.flatMap_cons]
    rcases escapeChar_cases c with ⟨e, he, eq⟩ | ⟨control, eq⟩ | ⟨quote, slash, control, eq⟩
    all_goals rw [eq]
    · exact .letter (escaped?_eq_some.1 he) ih
    · exact .unit (isUnit_control control) ih
    · exact .plain quote slash control ih

/-! ## Words -/

mutual

/-- The words of a value. -/
def words : Json String → List Token
  | .null => [.null]
  | .bool b => [.bool b]
  | .num n => [.num n]
  | .str s => [.str (some s)]
  | .arr [] => [.openArray, .closeArray]
  | .arr (j :: js) => .openArray :: (words j ++ itemWords js ++ [.closeArray])
  | .obj [] => [.openObject, .closeObject]
  | .obj ((k, j) :: ms) =>
    .openObject :: .str (some k) :: .colon :: (words j ++ memberWords ms ++ [.closeObject])

/-- The words of the items after the first. -/
def itemWords : List (Json String) → List Token
  | [] => []
  | j :: js => .comma :: (words j ++ itemWords js)

/-- The words of the members after the first. -/
def memberWords : List (String × Json String) → List Token
  | [] => []
  | (k, j) :: ms => .comma :: .str (some k) :: .colon :: (words j ++ memberWords ms)

end

/-- A layout that sets the parts of a value apart by blanks only. -/
structure Layout.Blank (l : Layout) : Prop where
  line : ∀ d, ∀ c ∈ l.line d, Text.isSpace c = true
  colon : ∃ bs, l.colon = ':' :: bs ∧ ∀ c ∈ bs, Text.isSpace c = true

/-- A value whose numbers are all proper. -/
inductive Proper : Json String → Prop where
  | null : Proper .null
  | bool (b : Bool) : Proper (.bool b)
  | num {n : Numeral} : n.Proper → Proper (.num n)
  | str (s : String) : Proper (.str s)
  | arr {js : List (Json String)} : (∀ j ∈ js, Proper j) → Proper (.arr js)
  | obj {ms : List (String × Json String)} : (∀ m ∈ ms, Proper m.2) → Proper (.obj ms)

/-- A text has no numbers in it that could be improper. -/
@[simp]
lemma proper_str (s : String) : Proper (.str s) :=
  .str s

/-- A list is proper if its items are. -/
@[simp]
lemma proper_arr {js : List (Json String)} : Proper (.arr js) ↔ ∀ j ∈ js, j.Proper :=
  ⟨fun | .arr h => h, .arr⟩

/-- An object is proper if the values of its members are. -/
@[simp]
lemma proper_obj {ms : List (String × Json String)} : Proper (.obj ms) ↔ ∀ m ∈ ms, m.2.Proper :=
  ⟨fun | .obj h => h, .obj⟩

variable {l : Layout} {d : Nat} {j : Json String} {js : List (Json String)}
  {ms : List (String × Json String)} {cs : List Char} {ts : List Token}

/-- The compact layout puts nothing between the words. -/
lemma Layout.compact_blank : Layout.compact.Blank :=
  ⟨nofun, [], rfl, nofun⟩

/-- The indented layout puts line feeds and blanks between the words. -/
lemma Layout.indented_blank : Layout.indented.Blank := by
  refine ⟨?_, [' '], rfl, by simp [Text.isSpace]⟩
  intro d c hc
  rcases List.mem_cons.1 hc with rfl | hc
  · rfl
  · rw [(List.mem_replicate.1 hc).2]
    rfl

/-- A text in quotes spells the word for that text. -/
lemma spelling_quoted (s : String) (h : Spelling ts cs) :
    Spelling (.str (some s) :: ts) (quoted s ++ cs) := by
  rw [quoted, List.cons_append, List.append_assoc, List.singleton_append]
  exact .str (spells_escape s.toList) h

/-- What a layout puts between a key and its value spells a colon. -/
lemma spelling_colon (bl : l.Blank) (h : Spelling ts cs) :
    Spelling (.colon :: ts) (l.colon ++ cs) := by
  obtain ⟨bs, e, hbs⟩ := bl.colon
  rw [e]
  exact .colon (h.blanks hbs)

/-- Blanks between two parts do not go on with a number. -/
lemma endsNumber_line (bl : l.Blank) (h : EndsNumber cs) : EndsNumber (l.line d ++ cs) := by
  cases e : l.line d with
  | nil => exact h
  | cons b bs =>
    have hb := bl.line d b (by rw [e]; exact List.mem_cons_self)
    simp only [Text.isSpace, Bool.or_eq_true, beq_iff_eq] at hb
    rintro c ⟨⟩
    rcases hb with ((rfl | rfl) | rfl) | rfl
    all_goals decide

/-- A number before further items ends there, since a comma comes next. -/
lemma endsNumber_items (h : EndsNumber cs) : EndsNumber (writeItems l d js ++ cs) := by
  cases js with
  | nil => exact h
  | cons j js =>
    rintro c ⟨⟩
    decide

/-- A number before further members ends there, since a comma comes next. -/
lemma endsNumber_members (h : EndsNumber cs) : EndsNumber (writeMembers l d ms ++ cs) := by
  cases ms with
  | nil => exact h
  | cons m ms =>
    rintro c ⟨⟩
    decide

/-- Wherever the value stands, it spells its words. -/
def Written (l : Layout) (j : Json String) : Prop :=
  ∀ {d ts cs}, EndsNumber cs → Spelling ts cs → Spelling (words j ++ ts) (write l d j ++ cs)

/-- The written items behind the first spell their words, if each of them does. -/
lemma spelling_items (bl : l.Blank) (hj : ∀ j ∈ js, Written l j) (he : EndsNumber cs)
    (h : Spelling ts cs) : Spelling (itemWords js ++ ts) (writeItems l d js ++ cs) := by
  induction js with
  | nil => exact h
  | cons j js ih =>
    have rest := ih fun i hi => hj i (List.mem_cons_of_mem j hi)
    have item := hj j List.mem_cons_self (d := d) (endsNumber_items he) rest
    simp only [itemWords, writeItems, List.cons_append, List.append_assoc]
    exact .comma (item.blanks (bl.line d))

/-- The written members behind the first spell their words, if each of their values does. -/
lemma spelling_members (bl : l.Blank) (hm : ∀ m ∈ ms, Written l m.2) (he : EndsNumber cs)
    (h : Spelling ts cs) : Spelling (memberWords ms ++ ts) (writeMembers l d ms ++ cs) := by
  induction ms with
  | nil => exact h
  | cons m ms ih =>
    obtain ⟨k, j⟩ := m
    have rest := ih fun i hi => hm i (List.mem_cons_of_mem _ hi)
    have item := hm (k, j) List.mem_cons_self (d := d) (endsNumber_members he) rest
    have key := spelling_quoted k (spelling_colon bl item)
    simp only [memberWords, writeMembers, List.cons_append, List.append_assoc]
    exact .comma (key.blanks (bl.line d))

/-- A closing bracket does not go on with a number. -/
lemma endsNumber_cons {c : Char} (hc : c = ']' ∨ c = '\x7d') (cs : List Char) :
    EndsNumber (c :: cs) := by
  rintro _ ⟨⟩
  rcases hc with rfl | rfl
  all_goals decide

/-- A value that is written spells its words. -/
lemma spelling_write (bl : l.Blank) (hj : j.Proper) : Written l j := by
  induction hj with
  | null => exact fun _ h => .null h
  | bool b =>
    cases b with
    | true => exact fun _ h => .yes h
    | false => exact fun _ h => .no h
  | num hn => exact fun he h => .num hn he h
  | str s => exact fun _ h => spelling_quoted s h
  | @arr js _ ih =>
    intro d ts cs _ h
    cases js with
    | nil => exact .openArray (.closeArray h)
    | cons j js =>
      have close : EndsNumber (l.line d ++ ']' :: cs) :=
        endsNumber_line bl (endsNumber_cons (.inl rfl) cs)
      have rest := spelling_items (d := d + 1) bl (fun i hi => ih i (List.mem_cons_of_mem j hi)) close
        (Spelling.blanks (bl.line d) (.closeArray h))
      have item := ih j List.mem_cons_self (d := d + 1) (endsNumber_items close) rest
      simp only [words, write, List.cons_append, List.append_assoc, List.nil_append]
      exact .openArray (item.blanks (bl.line (d + 1)))
  | @obj ms _ ih =>
    intro d ts cs _ h
    cases ms with
    | nil => exact .openObject (.closeObject h)
    | cons m ms =>
      obtain ⟨k, j⟩ := m
      have close : EndsNumber (l.line d ++ '\x7d' :: cs) :=
        endsNumber_line bl (endsNumber_cons (.inr rfl) cs)
      have rest := spelling_members (d := d + 1) bl (fun i hi => ih i (List.mem_cons_of_mem _ hi))
        close (Spelling.blanks (bl.line d) (.closeObject h))
      have item := ih (k, j) List.mem_cons_self (d := d + 1) (endsNumber_members close) rest
      have key := spelling_quoted k (spelling_colon bl item)
      simp only [words, write, List.cons_append, List.append_assoc, List.nil_append]
      exact .openObject (key.blanks (bl.line (d + 1)))

/-- In either layout and at any depth, a written value spells the words of that value. -/
lemma spelling_words (bl : l.Blank) (hj : j.Proper) (d : Nat) :
    Spelling (words j) (write l d j) := by
  have spelled : Spelling (words j ++ []) (write l d j ++ []) := spelling_write bl hj nofun .nil
  rw [List.append_nil, List.append_nil] at spelled
  exact spelled

end Flowscript.Json
