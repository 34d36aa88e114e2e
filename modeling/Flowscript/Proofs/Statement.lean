import Flowscript.Proofs.Json.Words
import Flowscript.Statement

/-!
# Lists in scripts

A list of texts is written like JSON into a script, where it is read as a list of texts in double quotes:
`readList` reads one by the rules of the script. Each character reads back as itself
(`readChar_escapeChar`), and so does a list of texts, whatever stands behind it (`readList_listLiteral`);
none of it ends a line (`visible_listLiteral`). A literal that is nothing but a list has what `denoted?`
gives.
-/

namespace Flowscript.Statement

/-! ## Readers -/

/-- What a letter behind a backslash stands for. -/
def meaning? : Char → Option Char
  | '"' => some '"'
  | '\\' => some '\\'
  | 'b' => some '\x08'
  | 'f' => some '\x0c'
  | 'n' => some '\n'
  | 'r' => some '\r'
  | 't' => some '\t'
  | _ => none

/-- The character whose number these digits are; half of a pair is none. -/
def numbered? (digits : List Char) : Option Char := do
  let values ← digits.mapM (Text.digitValue? 16)
  let number := values.foldl (fun n v => 16 * n + v) 0
  if number.isValidChar then some (Char.ofNat number) else none

/-- Reads one character of a text in quotes: the character that it denotes, and what comes behind. No line
may end inside, and there is no null character in a script. -/
def readChar : List Char → Option (Char × List Char)
  | '\\' :: 'u' :: a :: b :: c :: d :: cs => (numbered? [a, b, c, d]).map (·, cs)
  | '\\' :: e :: cs => (meaning? e).map (·, cs)
  | c :: cs => if c ∈ ['\\', '\n', '\r', '\x00'] then none else some (c, cs)
  | [] => none

/-- A character takes something away. -/
theorem readChar_length {cs rest : List Char} {c : Char} (h : readChar cs = some (c, rest)) :
    rest.length < cs.length := by
  unfold readChar at h
  split at h
  · obtain ⟨_, -, e⟩ := Option.map_eq_some_iff.1 h
    cases e
    simp only [List.length_cons]
    omega
  · obtain ⟨_, -, e⟩ := Option.map_eq_some_iff.1 h
    cases e
    simp only [List.length_cons]
    omega
  · split at h
    · cases h
    · cases h
      simp
  · cases h

/-- Reads a text up to its closing quote: the text that it denotes, and what comes behind. -/
def readQuoted (cs : List Char) : Option (List Char × List Char) :=
  if cs.head? = some '"' then
    some ([], cs.tail)
  else
    match _h : readChar cs with
    | none => none
    | some (c, rest) => (readQuoted rest).map fun (text, rest) => (c :: text, rest)
termination_by cs.length
decreasing_by exact readChar_length _h

/-- Before the closing quote, a text goes on with the next character. -/
lemma readQuoted_of_readChar {cs rest : List Char} {c : Char} (quote : cs.head? ≠ some '"')
    (h : readChar cs = some (c, rest)) :
    readQuoted cs = (readQuoted rest).map fun (text, rest) => (c :: text, rest) := by
  rw [readQuoted, if_neg quote]
  split
  · next none =>
    rw [h] at none
    cases none
  · next eq =>
    rw [h] at eq
    cases eq
    rfl

/-- The closing quote is taken away at least. -/
theorem readQuoted_length {cs text rest : List Char} (h : readQuoted cs = some (text, rest)) :
    rest.length < cs.length := by
  fun_induction readQuoted cs generalizing text with
  | case1 cs quote =>
    cases h
    cases cs with
    | nil => cases quote
    | cons c cs => simp
  | case2 => cases h
  | case3 cs quote c behind read ih =>
    obtain ⟨⟨_, _⟩, found, e⟩ := Option.map_eq_some_iff.1 h
    cases e
    exact Nat.lt_trans (ih found) (readChar_length read)

/-- Reads a text in double quotes. Three quotes in a row would begin another kind of literal. -/
def readText : List Char → Option (String × List Char)
  | '"' :: '"' :: '"' :: _ => none
  | '"' :: cs => (readQuoted cs).map fun (text, rest) => (String.ofList text, rest)
  | _ => none

/-- Both quotes are taken away. -/
theorem readText_length {cs rest : List Char} {text : String} (h : readText cs = some (text, rest)) :
    rest.length < cs.length := by
  unfold readText at h
  split at h
  · cases h
  · next inside =>
    obtain ⟨⟨_, _⟩, read, e⟩ := Option.map_eq_some_iff.1 h
    cases e
    have shorter := readQuoted_length read
    rw [List.length_cons]
    omega
  · cases h

/-- Reads texts up to a closing bracket, with a comma between them. -/
def readItems (cs : List Char) : Option (List String × List Char) :=
  match _h : readText cs with
  | some (item, ',' :: rest) => (readItems rest).map fun (items, rest) => (item :: items, rest)
  | some (item, ']' :: rest) => some ([item], rest)
  | _ => none
termination_by cs.length
decreasing_by exact Nat.lt_of_succ_lt (readText_length _h)

/-- Reads a list of texts: the texts that it denotes, and what comes behind. -/
def readList : List Char → Option (List String × List Char)
  | '[' :: ']' :: rest => some ([], rest)
  | '[' :: cs => readItems cs
  | _ => none

/-- The texts that a literal denotes, if it is a list and nothing stands behind it. -/
def denoted? (literal : String) : Option (List String) :=
  match readList literal.toList with
  | some (items, []) => some items
  | _ => none

/-! ## Written lists -/

/-- Each letter that is written behind a backslash means the same in a script. -/
lemma meaning?_of_escaped? {e c : Char} (h : Json.escaped? e = some c)
    (written : Json.escapeChar c = ['\\', e]) : meaning? e = some c := by
  unfold Json.escaped? at h
  split at h
  · exact h
  · exact h
  · cases h
    exact absurd written (by decide)
  · exact h
  · exact h
  · exact h
  · exact h
  · exact h
  · cases h

/-- A letter behind a backslash is read as what it means. -/
lemma readChar_letter {e c : Char} (h : meaning? e = some c) (cs : List Char) :
    readChar ('\\' :: e :: cs) = some (c, cs) := by
  unfold meaning? at h
  split at h
  all_goals cases h
  all_goals rfl

/-- The four digits of a control character denote it. -/
lemma numbered?_control (n : Nat) (h : n < 0x20) :
    numbered? ['0', '0', Nat.digitChar (n / 16), Nat.digitChar (n % 16)] = some (Char.ofNat n) := by
  revert n
  decide

/-- A character that needs no escape is read as itself. -/
lemma readChar_plain {c : Char} (slash : c ≠ '\\') (control : ¬ c.toNat < 0x20) (cs : List Char) :
    readChar (c :: cs) = some (c, cs) := by
  have plain : c ∉ ['\\', '\n', '\r', '\x00'] := by
    simp only [List.mem_cons, List.not_mem_nil, or_false]
    rintro (rfl | rfl | rfl | rfl)
    · exact slash rfl
    all_goals exact control (by decide)
  rw [readChar, if_neg plain]
  · rintro _ _ _ _ _ rfl
    exact fun _ => slash rfl
  · rintro _ _ rfl
    exact fun _ => slash rfl

/-- A character in quotes is read as that character. -/
lemma readChar_escapeChar (c : Char) (cs : List Char) :
    readChar (Json.escapeChar c ++ cs) = some (c, cs) := by
  rcases Json.escapeChar_cases c with ⟨e, means, eq⟩ | ⟨control, eq⟩ | ⟨-, slash, control, eq⟩
  · rw [eq]
    exact readChar_letter (meaning?_of_escaped? means eq) cs
  · have number := numbered?_control c.toNat control
    rw [Char.ofNat_toNat] at number
    rw [eq]
    exact congrArg (Option.map (·, cs)) number
  · rw [eq]
    exact readChar_plain slash control cs

/-- No character is written with a quote in front. -/
lemma head?_escapeChar (c : Char) (cs : List Char) : (Json.escapeChar c ++ cs).head? ≠ some '"' := by
  rcases Json.escapeChar_cases c with ⟨e, -, eq⟩ | ⟨-, eq⟩ | ⟨quote, -, -, eq⟩
  · simp [eq]
  · simp [eq]
  · simp [eq, quote]

/-- A written text is read up to its own closing quote. -/
lemma readQuoted_escape (text rest : List Char) :
    readQuoted (text.flatMap Json.escapeChar ++ '"' :: rest) = some (text, rest) := by
  induction text with
  | nil =>
    rw [readQuoted]
    rfl
  | cons c text ih =>
    have read := readChar_escapeChar c (text.flatMap Json.escapeChar ++ '"' :: rest)
    rw [List.flatMap_cons, List.append_assoc, readQuoted_of_readChar (head?_escapeChar c _) read, ih]
    rfl

/-- A text in quotes is read as that text, if no quote stands behind it. -/
lemma readText_quoted (text : String) {rest : List Char} (h : rest.head? ≠ some '"') :
    readText (Json.quoted text ++ rest) = some (text, rest) := by
  have inside := readQuoted_escape text.toList rest
  rw [Json.quoted, List.cons_append, List.append_assoc, List.singleton_append]
  generalize eq : text.toList.flatMap Json.escapeChar ++ '"' :: rest = cs at inside
  rw [readText, inside]
  · simp only [Option.map_some, String.ofList_toList]
  · -- Three quotes would need a quote behind an empty text, or a bare one inside.
    rintro cs rfl
    cases split : text.toList with
    | nil =>
      rw [split] at eq
      obtain ⟨-, rfl⟩ := List.cons.inj eq
      exact h rfl
    | cons c text =>
      rw [split, List.flatMap_cons, List.append_assoc] at eq
      exact head?_escapeChar c _ (congrArg List.head? eq)

/-- The texts behind the first, each behind a comma. -/
def others (items : List String) : List Char :=
  items.flatMap fun item => ',' :: Json.quoted item

/-- A closing bracket ends the list. -/
lemma readItems_last {cs rest : List Char} {item : String} (h : readText cs = some (item, ']' :: rest)) :
    readItems cs = some ([item], rest) := by
  rw [readItems]
  split
  all_goals simp_all

/-- A comma goes on with the list. -/
lemma readItems_comma {cs rest : List Char} {item : String} (h : readText cs = some (item, ',' :: rest)) :
    readItems cs = (readItems rest).map fun (items, rest) => (item :: items, rest) := by
  rw [readItems]
  split
  all_goals simp_all

/-- Each text behind the first has a comma before it. -/
lemma others_cons (item : String) (items : List String) :
    others (item :: items) = ',' :: (Json.quoted item ++ others items) :=
  rfl

/-- Written texts are read one by one, up to the closing bracket. -/
lemma readItems_written (item : String) (items : List String) (rest : List Char) :
    readItems (Json.quoted item ++ (others items ++ ']' :: rest)) = some (item :: items, rest) := by
  induction items generalizing item with
  | nil =>
    have read : readText (Json.quoted item ++ ']' :: rest) = some (item, ']' :: rest) :=
      readText_quoted item (by simp)
    exact readItems_last read
  | cons next items ih =>
    rw [others_cons, List.cons_append, List.append_assoc, readItems_comma (readText_quoted item (by simp)), ih]
    rfl

/-- The compact layout puts only a comma between two texts. -/
lemma writeItems_str (depth : Nat) (items : List String) :
    Json.writeItems .compact depth (items.map Json.str) = others items := by
  induction items with
  | nil => rfl
  | cons item items ih =>
    rw [List.map_cons, Json.writeItems, ih]
    rfl

/-- A list that is not empty is its texts in brackets. -/
lemma toList_listLiteral_cons (item : String) (items : List String) :
    (listLiteral (item :: items)).toList = '[' :: (Json.quoted item ++ (others items ++ [']'])) := by
  rw [listLiteral, Json.compact, String.toList_ofList, List.map_cons, Json.write, writeItems_str]
  simp [Json.Layout.compact, Json.write]

/-- A list of texts is read as that list, whatever stands behind it. -/
lemma readList_listLiteral (items : List String) (rest : List Char) :
    readList ((listLiteral items).toList ++ rest) = some (items, rest) := by
  cases items with
  | nil => rfl
  | cons item items =>
    rw [toList_listLiteral_cons]
    simp only [List.cons_append, List.append_assoc, List.nil_append]
    exact readItems_written item items rest

/-- The literal of a list denotes that list. -/
lemma denoted?_listLiteral (items : List String) : denoted? (listLiteral items) = some items := by
  have read := readList_listLiteral items []
  rw [List.append_nil] at read
  rw [denoted?, read]

/-- No control character is written. -/
lemma visible_escapeChar (c : Char) : ∀ x ∈ Json.escapeChar c, 0x20 ≤ x.toNat := by
  rcases Json.escapeChar_cases c with ⟨e, means, eq⟩ | ⟨control, eq⟩ | ⟨-, -, control, eq⟩
  · have letter : 0x20 ≤ e.toNat := by
      unfold Json.escaped? at means
      split at means
      case h_9 => cases means
      all_goals decide
    simpa [eq] using letter
  · have digits : ∀ n < 0x20,
        0x20 ≤ (Nat.digitChar (n / 16)).toNat ∧ 0x20 ≤ (Nat.digitChar (n % 16)).toNat := by
      decide
    simpa [eq] using digits c.toNat control
  · simpa [eq] using control

/-- So there is none in a text in quotes. -/
lemma visible_quoted (text : String) : ∀ x ∈ Json.quoted text, 0x20 ≤ x.toNat := by
  intro x hx
  rw [Json.quoted, List.mem_cons, List.mem_append, List.mem_singleton, List.mem_flatMap] at hx
  rcases hx with rfl | ⟨c, -, hx⟩ | rfl
  · decide
  · exact visible_escapeChar c x hx
  · decide

/-- Nor is there any in a list of texts. -/
lemma visible_listLiteral (items : List String) : ∀ x ∈ (listLiteral items).toList, 0x20 ≤ x.toNat := by
  cases items with
  | nil =>
    have brackets : (listLiteral []).toList = ['[', ']'] := rfl
    rw [brackets, List.forall_mem_cons, List.forall_mem_singleton]
    decide
  | cons item items =>
    intro x hx
    rw [toList_listLiteral_cons] at hx
    simp only [List.mem_cons, List.mem_append, others, List.mem_flatMap, List.not_mem_nil, or_false] at hx
    rcases hx with rfl | hx | ⟨next, -, rfl | hx⟩ | rfl
    · decide
    · exact visible_quoted item x hx
    · decide
    · exact visible_quoted next x hx
    · decide

end Flowscript.Statement
