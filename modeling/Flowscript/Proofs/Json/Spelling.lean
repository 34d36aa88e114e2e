import Flowscript.Json.Token
import Mathlib.Tactic.Lemma

/-!
# The spellings of a text in JSON

A character can be spelled in several ways inside quotes (`Spells`), and any blanks may stand between
two words (`Spelling`). However the words are spelled, they are found again (`Spelling.scan_eq`): a
text in quotes as that text (`scan_quoted`), and a number as that number (`scan_number`) unless what
follows goes on with it.
-/

namespace Flowscript.Json

/-! ## Texts -/

/-- The letters that stand for a character behind a backslash. -/
def letters : List (Char × Char) :=
  [('"', '"'), ('\\', '\\'), ('/', '/'), ('b', '\x08'), ('f', '\x0c'), ('n', '\n'), ('r', '\r'),
    ('t', '\t')]

/-- The hexadecimal digit of this value, a letter in either case. -/
def IsHex (n : Nat) (c : Char) : Prop :=
  c = Nat.digitChar n ∨ c = (Nat.digitChar n).toUpper

/-- Four hexadecimal digits that make this number. -/
structure IsUnit (n : Nat) (a b c d : Char) : Prop where
  lt : n < 0x10000
  first : IsHex (n / 0x1000) a
  second : IsHex (n / 0x100 % 16) b
  third : IsHex (n / 0x10 % 16) c
  fourth : IsHex (n % 16) d

/-- What stands between two quotes, and the characters it stands for. A character stands for itself
unless it is a quote, a backslash or a control character; some have a letter; and each can be written
by its number, or as a surrogate pair if the number takes more than four digits. -/
inductive Spells : List Char → List Char → Prop where
  | nil : Spells [] []
  | plain {x : Char} {cs s : List Char} : x ≠ '"' → x ≠ '\\' → ¬ x.toNat < 0x20 → Spells cs s →
    Spells (x :: cs) (x :: s)
  | letter {e x : Char} {cs s : List Char} : (e, x) ∈ letters → Spells cs s →
    Spells ('\\' :: e :: cs) (x :: s)
  | unit {x a b c d : Char} {cs s : List Char} : IsUnit x.toNat a b c d → Spells cs s →
    Spells ('\\' :: 'u' :: a :: b :: c :: d :: cs) (x :: s)
  | pair {x a b c d a' b' c' d' : Char} {cs s : List Char} : 0x10000 ≤ x.toNat →
    IsUnit (0xd800 + (x.toNat - 0x10000) / 0x400) a b c d →
    IsUnit (0xdc00 + (x.toNat - 0x10000) % 0x400) a' b' c' d' → Spells cs s →
    Spells ('\\' :: 'u' :: a :: b :: c :: d :: '\\' :: 'u' :: a' :: b' :: c' :: d' :: cs) (x :: s)

variable {a b c d e : Char} {n : Nat} {cs s : List Char}

/-- The reader knows the letters of the table and no others. -/
lemma escaped?_eq_some : escaped? e = some c ↔ (e, c) ∈ letters := by
  constructor
  · intro h
    unfold escaped? at h
    split at h
    all_goals cases h <;> simp [letters]
  · intro h
    simp only [letters, List.mem_cons, Prod.mk.injEq, List.not_mem_nil, or_false] at h
    rcases h with h | h | h | h | h | h | h | h
    all_goals
      obtain ⟨rfl, rfl⟩ := h
      rfl

/-- A digit in either case has its value. -/
lemma digitValue?_isHex (hn : n < 16) (h : IsHex n c) : Text.digitValue? 16 c = some n := by
  have lower : ∀ n < 16, Text.digitValue? 16 (Nat.digitChar n) = some n := by decide
  have upper : ∀ n < 16, Text.digitValue? 16 (Nat.digitChar n).toUpper = some n := by decide
  rcases h with rfl | rfl
  · exact lower n hn
  · exact upper n hn

/-- Four digits are read as the number that they make. -/
lemma hexUnit?_eq (h : IsUnit n a b c d) : hexUnit? a b c d = some n := by
  have lt := h.lt
  rw [hexUnit?, digitValue?_isHex (by omega) h.first, digitValue?_isHex (by omega) h.second,
    digitValue?_isHex (by omega) h.third, digitValue?_isHex (by omega) h.fourth]
  simp only [Option.bind_eq_bind, Option.bind_some, Option.pure_def, Option.some.injEq]
  omega

/-- A backslash with a letter is read as the character that the letter stands for. -/
lemma pieces?_letter (h : (e, c) ∈ letters) (cs : List Char) :
    pieces? ('\\' :: e :: cs) = (pieces? cs).map fun q => (.char c :: q.1, q.2) := by
  have ne : e ≠ 'u' := by
    rintro rfl
    cases escaped?_eq_some.2 h
  rw [pieces?, escaped?_eq_some.2 h]
  · cases pieces? cs with
    | none => rfl
    | some q => rfl
  · intro _ _ _ _ _ hu
    exact absurd hu ne

/-- A backslash with four digits is read as a unit of 16 bits. -/
lemma pieces?_unit (h : IsUnit n a b c d) (cs : List Char) :
    pieces? ('\\' :: 'u' :: a :: b :: c :: d :: cs) =
      (pieces? cs).map fun q => (.unit n :: q.1, q.2) := by
  rw [pieces?, hexUnit?_eq h]
  cases pieces? cs with
  | none => rfl
  | some q => rfl

/-- A character that needs no escape is read as itself. -/
lemma pieces?_plain (quote : c ≠ '"') (slash : c ≠ '\\') (h : ¬ c.toNat < 0x20) (cs : List Char) :
    pieces? (c :: cs) = (pieces? cs).map fun q => (.char c :: q.1, q.2) := by
  rw [pieces?, if_neg (by simp [slash, h])]
  · cases pieces? cs with
    | none => rfl
    | some q => rfl
  · exact quote
  · intro _ _ _ _ _ hc
    exact absurd hc slash
  · intro _ _ hc
    exact absurd hc slash

/-- The number of a character is no half of a surrogate pair. -/
lemma characters?_unit (c : Char) (ps : List Piece) :
    characters? (.unit c.toNat :: ps) = (characters? ps).map (c :: ·) := by
  have valid : c.toNat < 0xd800 ∨ 0xdfff < c.toNat ∧ c.toNat < 0x110000 := c.valid
  have high : isHighUnit c.toNat = false := by
    simp only [isHighUnit, Bool.and_eq_false_iff, decide_eq_false_iff_not]
    omega
  have low : isLowUnit c.toNat = false := by
    simp only [isLowUnit, Bool.and_eq_false_iff, decide_eq_false_iff_not]
    omega
  have number : Char.ofNat c.toNat = c := Char.ofNat_toNat c
  -- Whatever piece follows, a unit that is no half of a pair is taken by itself.
  generalize c.toNat = n at high low number
  subst number
  rw [characters?.eq_def]
  split <;> simp_all

/-- The two halves of a surrogate pair denote the character that they were made from. -/
lemma characters?_pair (h : 0x10000 ≤ c.toNat) (ps : List Piece) :
    characters? (.unit (0xd800 + (c.toNat - 0x10000) / 0x400) ::
      .unit (0xdc00 + (c.toNat - 0x10000) % 0x400) :: ps) = (characters? ps).map (c :: ·) := by
  have valid : c.toNat < 0xd800 ∨ 0xdfff < c.toNat ∧ c.toNat < 0x110000 := c.valid
  have high : isHighUnit (0xd800 + (c.toNat - 0x10000) / 0x400) = true := by
    simp only [isHighUnit, Bool.and_eq_true, decide_eq_true_eq]
    omega
  have low : isLowUnit (0xdc00 + (c.toNat - 0x10000) % 0x400) = true := by
    simp only [isLowUnit, Bool.and_eq_true, decide_eq_true_eq]
    omega
  have number : 0x10000 + (0xd800 + (c.toNat - 0x10000) / 0x400 - 0xd800) * 0x400 +
      (0xdc00 + (c.toNat - 0x10000) % 0x400 - 0xdc00) = c.toNat := by
    omega
  rw [characters?, high, low, Bool.and_self, if_pos rfl, number, Char.ofNat_toNat]

/-- What stands between quotes is read as the characters it stands for. -/
lemma Spells.pieces?_eq (h : Spells cs s) (rest : List Char) : ∃ ps,
    pieces? (cs ++ '"' :: rest) = some (ps, rest) ∧ characters? ps = some s := by
  induction h with
  | nil => exact ⟨[], rfl, rfl⟩
  | @plain x cs s quote slash control _ ih =>
    obtain ⟨ps, hps, hs⟩ := ih
    refine ⟨.char x :: ps, ?_, ?_⟩
    · rw [List.cons_append, pieces?_plain quote slash control, hps]
      rfl
    · rw [characters?, hs]
      rfl
  | @letter e x cs s he _ ih =>
    obtain ⟨ps, hps, hs⟩ := ih
    refine ⟨.char x :: ps, ?_, ?_⟩
    · rw [List.cons_append, List.cons_append, pieces?_letter he, hps]
      rfl
    · rw [characters?, hs]
      rfl
  | @unit x a b c d cs s hu _ ih =>
    obtain ⟨ps, hps, hs⟩ := ih
    refine ⟨.unit x.toNat :: ps, ?_, ?_⟩
    · simp only [List.cons_append]
      rw [pieces?_unit hu, hps]
      rfl
    · rw [characters?_unit, hs]
      rfl
  | @pair x a b c d a' b' c' d' cs s large high low _ ih =>
    obtain ⟨ps, hps, hs⟩ := ih
    refine ⟨.unit _ :: .unit _ :: ps, ?_, (characters?_pair large ps).trans ?_⟩
    · simp only [List.cons_append]
      rw [pieces?_unit high, pieces?_unit low, hps]
      rfl
    · rw [hs]
      rfl

example : Spells ['\\', 'u', 'd', '8', '3', 'D', '\\', 'u', 'd', 'e', '0', '0'] ['😀'] := by
  apply Spells.pair _ _ _ .nil
  · decide
  · exact ⟨by decide, .inl (by decide), .inl (by decide), .inl (by decide), .inr (by decide)⟩
  · exact ⟨by decide, .inl (by decide), .inl (by decide), .inl (by decide), .inl (by decide)⟩

/-- A text in quotes is read as that text. -/
lemma scan_quoted {text : String} (h : Spells cs text.toList) (rest : List Char) :
    Token.scan ('"' :: (cs ++ '"' :: rest)) = (Token.scan rest).map (.str (some text) :: ·) := by
  obtain ⟨ps, hps, hs⟩ := h.pieces?_eq rest
  rw [Token.scan]
  split
  · next none =>
    rw [hps] at none
    cases none
  · next qs rest some =>
    rw [hps] at some
    cases some
    rw [hs, Option.map_some, String.ofList_toList]

/-! ## Numbers -/

/-- At least one digit and nothing else. -/
def IsDigits (ds : List Char) : Prop :=
  ds ≠ [] ∧ ∀ d ∈ ds, d.isDigit = true

/-- What follows does not go on with a number. -/
def EndsNumber (cs : List Char) : Prop :=
  ∀ c ∈ cs.head?, c.isDigit = false ∧ c ≠ '.' ∧ c ≠ 'e' ∧ c ≠ 'E'

end Flowscript.Json

namespace Flowscript

/-- The parts of a number are digits, and a zero in front stands alone. -/
structure Numeral.Proper (n : Numeral) : Prop where
  whole : Json.IsDigits n.whole
  leading : ∀ d ds, n.whole ≠ '0' :: d :: ds
  fraction : ∀ ds, n.fraction = some ds → Json.IsDigits ds
  exponent : ∀ b ds, n.exponent = some (b, ds) → Json.IsDigits ds

end Flowscript

namespace Flowscript.Json

variable {ds : List Char}

/-- A run of digits is read to its end and no further. -/
lemma digits?_append (hd : IsDigits ds) (h : ∀ c ∈ cs.head?, c.isDigit = false) :
    digits? (ds ++ cs) = some (ds, cs) := by
  have stop : cs.takeWhile Char.isDigit = [] ∧ cs.dropWhile Char.isDigit = cs := by
    cases cs with
    | nil => exact ⟨rfl, rfl⟩
    | cons c cs =>
      have hc : c.isDigit = false := h c rfl
      simp [hc]
  obtain ⟨ne, digits⟩ := hd
  rw [digits?, List.takeWhile_append_of_pos digits, List.dropWhile_append_of_pos digits, stop.1,
    stop.2, List.append_nil]
  cases ds with
  | nil => exact absurd rfl ne
  | cons d ds => rfl

/-- The digits before the point are read to their end, if there is no zero too many in front. -/
lemma whole?_append (hd : IsDigits ds) (leading : ∀ e es, ds ≠ '0' :: e :: es)
    (h : ∀ c ∈ cs.head?, c.isDigit = false) : whole? (ds ++ cs) = some (ds, cs) := by
  rw [whole?, digits?_append hd h]
  split
  · next e =>
    cases e
    exact absurd rfl (leading _ _)
  · rfl

/-- The exponent as it is written. -/
def exponentText (e : Option (Bool × List Char)) : List Char :=
  (e.map fun e => 'e' :: ((if e.1 then ['-'] else []) ++ e.2)).getD []

/-- The digits behind the point as they are written, with the point. -/
def fractionText (f : Option (List Char)) : List Char :=
  (f.map ('.' :: ·)).getD []

/-- A minus in front of digits is told from no sign at all. -/
lemma sign_append (b : Bool) (hd : IsDigits ds) (cs : List Char) :
    sign ((if b then ['-'] else []) ++ (ds ++ cs)) = (b, ds ++ cs) := by
  obtain ⟨ne, digits⟩ := hd
  cases b with
  | true => rfl
  | false =>
    cases ds with
    | nil => exact absurd rfl ne
    | cons d ds =>
      have hd : d.isDigit = true := digits d List.mem_cons_self
      rw [if_neg Bool.false_ne_true, List.nil_append, List.cons_append, sign.eq_3]
      · rintro _ ⟨⟩
        cases hd
      · rintro _ ⟨⟩
        cases hd

/-- An exponent is read as it is written, and so is the lack of one. -/
lemma exponent?_append {e : Option (Bool × List Char)} (he : ∀ b ds, e = some (b, ds) → IsDigits ds)
    (h : EndsNumber cs) : exponent? (exponentText e ++ cs) = some (e, cs) := by
  cases e with
  | none =>
    cases cs with
    | nil => rfl
    | cons c cs =>
      obtain ⟨-, -, lower, upper⟩ := h c rfl
      exact if_neg (not_or.2 ⟨lower, upper⟩)
  | some e =>
    obtain ⟨b, ds⟩ := e
    have hd := he b ds rfl
    have signed := sign_append b hd cs
    have read := digits?_append hd fun c hc => (h c hc).1
    simp [exponentText, exponent?, signed, read]

/-- The digits behind the point are read as they are written, and so is the lack of them. -/
lemma fraction?_append {f : Option (List Char)} (hf : ∀ ds, f = some ds → IsDigits ds)
    (h : ∀ c ∈ cs.head?, c.isDigit = false ∧ c ≠ '.') :
    fraction? (fractionText f ++ cs) = some (f, cs) := by
  cases f with
  | none =>
    rw [fractionText, Option.map_none, Option.getD_none, List.nil_append, fraction?.eq_2]
    rintro cs rfl
    exact (h '.' rfl).2 rfl
  | some ds =>
    have read := digits?_append (hf ds rfl) fun c hc => (h c hc).1
    simp [fractionText, fraction?, read]

/-- What follows the digits before the point does not go on with them. -/
lemma head_exponentText (e : Option (Bool × List Char)) (h : EndsNumber cs) :
    ∀ c ∈ (exponentText e ++ cs).head?, c.isDigit = false ∧ c ≠ '.' := by
  cases e with
  | none => exact fun c hc => ⟨(h c hc).1, (h c hc).2.1⟩
  | some e =>
    rintro c ⟨⟩
    decide

/-- The digits before the point end where a point, an exponent or something else follows. -/
lemma head_fractionText (f : Option (List Char)) (h : ∀ c ∈ cs.head?, c.isDigit = false ∧ c ≠ '.') :
    ∀ c ∈ (fractionText f ++ cs).head?, c.isDigit = false := by
  cases f with
  | none => exact fun c hc => (h c hc).1
  | some ds =>
    rintro c ⟨⟩
    decide

/-- A number without its sign is read as that number. -/
lemma magnitude?_append {n : Numeral} (hn : n.Proper) (h : EndsNumber cs) :
    magnitude? n.negative (n.whole ++ (fractionText n.fraction ++ (exponentText n.exponent ++ cs))) =
      some (n, cs) := by
  have behind := head_exponentText n.exponent h
  rw [magnitude?, whole?_append hn.whole hn.leading (head_fractionText n.fraction behind)]
  simp only [Option.bind_eq_bind, Option.bind_some, fraction?_append hn.fraction behind,
    exponent?_append hn.exponent h, Option.pure_def]

/-- A number is its sign, its digits and what `fractionText` and `exponentText` make of the rest. -/
lemma text_eq (n : Numeral) : n.text = (if n.negative then ['-'] else []) ++
    (n.whole ++ (fractionText n.fraction ++ exponentText n.exponent)) := by
  simp [Numeral.text, fractionText, exponentText]

/-- A minus begins a negative number. -/
lemma scan_minus {n : Numeral} {rest : List Char} (h : magnitude? true cs = some (n, rest)) :
    Token.scan ('-' :: cs) = (Token.scan rest).map (.num n :: ·) := by
  rw [Token.scan]
  split
  · next none =>
    rw [h] at none
    cases none
  · next m r some =>
    rw [h] at some
    cases some
    rfl

/-- A digit begins a number without sign. -/
lemma scan_digit {n : Numeral} {d : Char} {rest : List Char} (hd : d.isDigit = true)
    (h : magnitude? false (d :: cs) = some (n, rest)) :
    Token.scan (d :: cs) = (Token.scan rest).map (.num n :: ·) := by
  have space : Text.isSpace d = false := by
    rw [Bool.eq_false_iff]
    intro yes
    simp only [Text.isSpace, Bool.or_eq_true, beq_iff_eq] at yes
    rcases yes with ((rfl | rfl) | rfl) | rfl
    all_goals cases hd
  rw [Token.scan, if_neg (by simp [space])]
  · split
    · next none =>
      rw [h] at none
      cases none
    · next m r some =>
      rw [h] at some
      cases some
      rfl
  -- A digit begins no other word.
  all_goals
    intros
    subst_vars
    cases hd

/-- A proper number is scanned as one word, if what follows does not go on with it. -/
lemma scan_number {n : Numeral} (hn : n.Proper) (h : EndsNumber cs) :
    Token.scan (n.text ++ cs) = (Token.scan cs).map (.num n :: ·) := by
  have read := magnitude?_append hn h
  rw [text_eq]
  simp only [List.append_assoc]
  cases sign : n.negative with
  | true =>
    rw [sign] at read
    exact scan_minus read
  | false =>
    rw [sign] at read
    obtain ⟨ne, digits⟩ := hn.whole
    cases whole : n.whole with
    | nil => exact absurd whole ne
    | cons d ds =>
      rw [whole] at read digits
      exact scan_digit (digits d List.mem_cons_self) read

/-! ## Words -/

/-- A blank between words is passed over. -/
lemma scan_blank (hc : Text.isSpace c = true) (cs : List Char) :
    Token.scan (c :: cs) = Token.scan cs := by
  simp only [Text.isSpace, Bool.or_eq_true, beq_iff_eq] at hc
  rcases hc with ((rfl | rfl) | rfl) | rfl
  all_goals
    rw [Token.scan]
    · exact if_pos rfl
    all_goals simp

/-- A text that holds these words in this order, with blanks around them. A number ends before
something that does not go on with it. -/
inductive Spelling : List Token → List Char → Prop where
  | nil : Spelling [] []
  | blank {c : Char} {ts : List Token} {cs : List Char} : Text.isSpace c = true → Spelling ts cs →
    Spelling ts (c :: cs)
  | openObject {ts : List Token} {cs : List Char} : Spelling ts cs →
    Spelling (.openObject :: ts) ('\x7b' :: cs)
  | closeObject {ts : List Token} {cs : List Char} : Spelling ts cs →
    Spelling (.closeObject :: ts) ('\x7d' :: cs)
  | openArray {ts : List Token} {cs : List Char} : Spelling ts cs →
    Spelling (.openArray :: ts) ('[' :: cs)
  | closeArray {ts : List Token} {cs : List Char} : Spelling ts cs →
    Spelling (.closeArray :: ts) (']' :: cs)
  | colon {ts : List Token} {cs : List Char} : Spelling ts cs → Spelling (.colon :: ts) (':' :: cs)
  | comma {ts : List Token} {cs : List Char} : Spelling ts cs → Spelling (.comma :: ts) (',' :: cs)
  | null {ts : List Token} {cs : List Char} : Spelling ts cs →
    Spelling (.null :: ts) ('n' :: 'u' :: 'l' :: 'l' :: cs)
  | yes {ts : List Token} {cs : List Char} : Spelling ts cs →
    Spelling (.bool true :: ts) ('t' :: 'r' :: 'u' :: 'e' :: cs)
  | no {ts : List Token} {cs : List Char} : Spelling ts cs →
    Spelling (.bool false :: ts) ('f' :: 'a' :: 'l' :: 's' :: 'e' :: cs)
  | num {n : Numeral} {ts : List Token} {cs : List Char} : n.Proper → EndsNumber cs →
    Spelling ts cs → Spelling (.num n :: ts) (n.text ++ cs)
  | str {text : String} {ts : List Token} {body cs : List Char} : Spells body text.toList →
    Spelling ts cs → Spelling (.str (some text) :: ts) ('"' :: (body ++ '"' :: cs))

variable {ts : List Token} {bs : List Char}

/-- Blanks in front of a text do not change the words that it spells. -/
lemma Spelling.blanks (hbs : ∀ c ∈ bs, Text.isSpace c = true) (h : Spelling ts cs) :
    Spelling ts (bs ++ cs) := by
  induction bs with
  | nil => exact h
  | cons b bs ih =>
    exact .blank (hbs b List.mem_cons_self) (ih fun c hc => hbs c (List.mem_cons_of_mem b hc))

/-- However the words are spelled, they are found again. -/
lemma Spelling.scan_eq (h : Spelling ts cs) : Token.scan cs = some ts := by
  induction h with
  | nil => rw [Token.scan]
  | blank hc _ ih => rw [scan_blank hc, ih]
  | num hn he _ ih => rw [scan_number hn he, ih, Option.map_some]
  | str body _ ih => rw [scan_quoted body, ih, Option.map_some]
  | _ _ ih => rw [Token.scan, ih, Option.map_some]

end Flowscript.Json
