import Flowscript.Markup.Printer
import Flowscript.Markup.Event
import Mathlib.Tactic.Lemma

/-!
# Printed tags and texts

What the reading functions make of the pieces that `Element.render` is put together from. Replacing the
references in a printed text gives the text back (`unescape_escape`), and nothing in it is taken for
markup or for a blank (`not_mem_delimiters`). A printed tag ends at its own `>` (`tagContent_printed`)
and is read as the name and the attributes it was printed from (`element_printed`). CDATA is taken apart
at each end of a section inside it (`cdataInside_of_none`, `cdataInside_of_some`).
-/

namespace Flowscript.Markup

variable {c : Char} {cs name rest : List Char} {p : Char → Bool} {total offset : Nat}

/-! ## Characters -/

/-- The characters that delimit markup, and the blanks. -/
def delimiters : List Char :=
  ['<', '>', '"', '\'', ' ', '\t', '\n', '\r']

/-- A character of a name. -/
def isWordChar (c : Char) : Bool :=
  c.isAlphanum || c == '_'

/-- A character of a printed reference, between `&` and `;`. -/
def isReferenceChar (c : Char) : Bool :=
  c.isAlphanum || c == '#'

/-- A character of a class is none of the characters outside the class. -/
lemma ne_of_class {d : Char} (hc : p c = true) (hd : p d = false) : c ≠ d := by
  rintro rfl
  rw [hc] at hd
  cases hd

/-- A character of a class is not among characters that are all outside of it. -/
lemma not_mem_of_class {ds : List Char} (hc : p c = true) (hds : ds.any p = false) : c ∉ ds :=
  fun h => List.any_eq_false.1 hds c h hc

/-- What delimits nothing is no blank. -/
lemma isSpace_eq_false (h : c ∉ delimiters) : Text.isSpace c = false := by
  simp only [delimiters, List.mem_cons, not_or] at h
  simp only [Text.isSpace, Bool.or_eq_false_iff, beq_eq_false_iff_ne]
  grind

/-- Where characters of a class end, taking and dropping them stop. -/
lemma span_append (goesOn : ∀ d ∈ cs, p d = true) (stops : ∀ c ∈ rest.head?, p c = false) :
    (cs ++ rest).takeWhile p = cs ∧ (cs ++ rest).dropWhile p = rest := by
  rw [List.takeWhile_append_of_pos goesOn, List.dropWhile_append_of_pos goesOn]
  cases rest with
  | nil => simp
  | cons c rest => simp [stops c rfl]

/-- A run of characters ends at the first that does not go on with it. -/
lemma span_eq (goesOn : ∀ d ∈ cs, p d = true) (stops : p c = false) (rest : List Char) :
    (cs ++ c :: rest).takeWhile p = cs ∧ (cs ++ c :: rest).dropWhile p = c :: rest := by
  refine span_append goesOn ?_
  rintro _ ⟨⟩
  exact stops

/-! ## References -/

/-- A character is printed as it is, or as a reference that stands for it. -/
lemma escapeChar_cases (c : Char) :
    (c ≠ '&' ∧ c ∉ delimiters ∧ escapeChar c = [c]) ∨
    ∃ name, escapeChar c = '&' :: (name ++ [';']) ∧ name.all isReferenceChar = true ∧
      ∀ start, resolve start name = .ok c := by
  unfold escapeChar
  split
  · exact .inr ⟨['a', 'm', 'p'], rfl, by decide, fun _ => rfl⟩
  · exact .inr ⟨['l', 't'], rfl, by decide, fun _ => rfl⟩
  · exact .inr ⟨['g', 't'], rfl, by decide, fun _ => rfl⟩
  · exact .inr ⟨['q', 'u', 'o', 't'], rfl, by decide, fun _ => rfl⟩
  · exact .inr ⟨['a', 'p', 'o', 's'], rfl, by decide, fun _ => rfl⟩
  · exact .inr ⟨['#', '3', '2'], rfl, by decide, fun _ => rfl⟩
  · exact .inr ⟨['#', '9'], rfl, by decide, fun _ => rfl⟩
  · exact .inr ⟨['#', '1', '0'], rfl, by decide, fun _ => rfl⟩
  · exact .inr ⟨['#', '1', '3'], rfl, by decide, fun _ => rfl⟩
  · next amp lt gt quote apos space tab line ret =>
    refine .inl ⟨amp, ?_, rfl⟩
    simp only [delimiters, List.mem_cons, List.not_mem_nil, or_false, not_or]
    exact ⟨lt, gt, quote, apos, space, tab, line, ret⟩

/-- A character other than `&` stands for itself. -/
lemma unescapeFrom_char (h : c ≠ '&') :
    unescapeFrom total offset (c :: cs) =
      (unescapeFrom total (offset + c.utf8Size) cs).map (c :: ·) := by
  rw [unescapeFrom, if_neg h]
  cases unescapeFrom total (offset + c.utf8Size) cs with
  | error f => rfl
  | ok tail => rfl

/-- The characters of a printed reference do not end its name. -/
lemma endsName_eq_false (h : isReferenceChar c = true) : endsName c = false := by
  have amp := ne_of_class h (by decide : isReferenceChar '&' = false)
  have semi := ne_of_class h (by decide : isReferenceChar ';' = false)
  simp [endsName, amp, semi]

/-- A reference is replaced by the character that its name stands for. -/
lemma unescapeFrom_reference (inside : ∀ d ∈ name, endsName d = false)
    (h : resolve (offset + 1) name = .ok c) :
    unescapeFrom total offset ('&' :: (name ++ ';' :: cs)) =
      (unescapeFrom total (offset + Text.width name + 2) cs).map (c :: ·) := by
  have goesOn : ∀ d ∈ name, (!endsName d) = true := fun d hd => by rw [inside d hd]; rfl
  obtain ⟨taken, left⟩ := span_eq goesOn (by decide : (!endsName ';') = false) cs
  rw [unescapeFrom, if_pos rfl]
  split
  · next rest eq =>
    rw [left] at eq
    cases eq
    simp only [taken, h]
    cases unescapeFrom total (offset + Text.width name + 2) cs with
    | error f => rfl
    | ok tail => rfl
  · next other => exact absurd left (other cs)

/-- Wherever it stands, a printed text has the text for its value. -/
lemma unescapeFrom_escape (cs : List Char) (total offset : Nat) :
    unescapeFrom total offset (cs.flatMap escapeChar) = .ok cs := by
  induction cs generalizing offset with
  | nil => rw [List.flatMap_nil, unescapeFrom]
  | cons c cs ih =>
    rw [List.flatMap_cons]
    rcases escapeChar_cases c with ⟨amp, -, eq⟩ | ⟨name, eq, inside, means⟩
    · rw [eq, List.singleton_append, unescapeFrom_char amp, ih]
      rfl
    · have inside : ∀ d ∈ name, endsName d = false := fun d hd =>
        endsName_eq_false (List.all_eq_true.1 inside d hd)
      rw [eq, List.cons_append, List.append_assoc, List.singleton_append,
        unescapeFrom_reference inside (means _), ih]
      rfl

/-- Replacing the references in a printed text gives the text. -/
lemma unescape_escape (s : String) : unescape (escape s) = .ok s.toList :=
  unescapeFrom_escape s.toList _ _

/-- A printed text holds neither markup nor blanks. -/
lemma not_mem_delimiters {s : String} (h : c ∈ escape s) : c ∉ delimiters := by
  obtain ⟨d, -, hc⟩ := List.mem_flatMap.1 h
  rcases escapeChar_cases d with ⟨-, inert, eq⟩ | ⟨name, eq, inside, -⟩
  · rw [eq, List.mem_singleton] at hc
    rwa [hc]
  · rw [eq, List.mem_cons, List.mem_append, List.mem_singleton] at hc
    rcases hc with rfl | hc | rfl
    · decide
    · exact not_mem_of_class (List.all_eq_true.1 inside c hc) (by decide)
    · decide

/-- A text that is not empty is not printed as nothing. -/
lemma escape_ne_nil {s : String} (h : s ≠ "") : escape s ≠ [] := by
  intro eq
  apply h
  rw [← String.toList_eq_nil_iff]
  cases cs : s.toList with
  | nil => rfl
  | cons c cs' =>
    rw [escape, cs, List.flatMap_cons] at eq
    rcases escapeChar_cases c with ⟨-, -, plain⟩ | ⟨name, reference, -⟩
    · rw [plain] at eq
      cases eq
    · rw [reference] at eq
      cases eq

/-! ## Attributes -/

/-- A word: a letter, and then letters, digits and underscores. -/
def isWord (s : String) : Bool :=
  match s.toList with
  | [] => false
  | c :: cs => c.isAlpha && cs.all isWordChar

/-- A letter may stand in a word. -/
lemma isWordChar_of_isAlpha (h : c.isAlpha = true) : isWordChar c = true := by
  simp [isWordChar, Char.isAlphanum, h]

/-- A word begins with a letter and has only characters of words in it. -/
lemma isWord_eq_true {s : String} (h : isWord s = true) :
    ∃ c cs, s.toList = c :: cs ∧ c.isAlpha = true ∧ ∀ d ∈ s.toList, isWordChar d = true := by
  rw [isWord] at h
  split at h
  · cases h
  · next c cs eq =>
    rw [Bool.and_eq_true, List.all_eq_true] at h
    refine ⟨c, cs, eq, h.1, ?_⟩
    rw [eq]
    exact List.forall_mem_cons.2 ⟨isWordChar_of_isAlpha h.1, h.2⟩

/-- A printed value ends at its own closing quote, since no quote is printed inside. -/
lemma readValue_printed (offset : Nat) (v : String) (rest : List Char) :
    readValue offset ('"' :: (escape v ++ '"' :: rest)) =
      .ok (escape v, offset + Text.width (escape v) + 2, rest) := by
  have goesOn : ∀ d ∈ escape v, (d != '"') = true := by
    intro d hd
    exact bne_iff_ne.2 fun e => not_mem_delimiters hd (e ▸ by decide)
  have blanks : ('"' :: (escape v ++ '"' :: rest)).takeWhile Text.isSpace = [] := rfl
  have start : ('"' :: (escape v ++ '"' :: rest)).dropWhile Text.isSpace =
      '"' :: (escape v ++ '"' :: rest) := rfl
  obtain ⟨taken, left⟩ := span_eq goesOn (by decide : ('"' != '"') = false) rest
  rw [readValue, blanks, start]
  simp [taken, left]

/-- There is no blank before a printed equals sign. -/
lemma readEquals_printed (offset : Nat) (rest : List Char) :
    readEquals offset ('=' :: rest) = .ok (offset + 1, rest) :=
  rfl

/-- A printed attribute is read with its key and its printed value, if the key is new. -/
lemma nextAttribute_printed {key v : String} {seen : List (List Char × Nat)} (hk : isWord key = true)
    (new : seen.lookup key.toList = none) (offset : Nat) (rest : List Char) :
    ∃ start offset', nextAttribute seen offset (attributeText (key, v) ++ rest) =
      .ok (some ({ start, key := key.toList, value := escape v }, offset', rest)) := by
  obtain ⟨c, cs, eq, -, word⟩ := isWord_eq_true hk
  rw [eq] at word new
  obtain ⟨hc, hcs⟩ := List.forall_mem_cons.1 word
  have space : Text.isSpace c = false := isSpace_eq_false (not_mem_of_class hc (by decide))
  have goesOn : ∀ d ∈ cs, (!endsKey d) = true := by
    intro d hd
    have space := isSpace_eq_false (not_mem_of_class (hcs d hd) (by decide))
    have equals := ne_of_class (hcs d hd) (by decide : isWordChar '=' = false)
    simp [endsKey, space, equals]
  obtain ⟨taken, left⟩ := span_eq goesOn (by decide : (!endsKey '=') = false)
    ('"' :: (escape v ++ '"' :: rest))
  have text : attributeText (key, v) ++ rest =
      ' ' :: c :: (cs ++ '=' :: '"' :: (escape v ++ '"' :: rest)) := by
    simp [attributeText, eq]
  have blanks : (' ' :: c :: (cs ++ '=' :: '"' :: (escape v ++ '"' :: rest))).dropWhile Text.isSpace =
      c :: (cs ++ '=' :: '"' :: (escape v ++ '"' :: rest)) := by
    rw [List.dropWhile_cons_of_pos rfl, List.dropWhile_cons_of_neg (by simp [space])]
  rw [text, nextAttribute, blanks]
  simp only [taken, left, readEquals_printed, new, readValue_printed, eq, bind, Except.bind]
  exact ⟨_, _, rfl⟩

/-- Printed attributes are read as these attributes, if no key is used twice or was used before. -/
lemma readAttributes_printed {attributes : List (String × String)} {seen : List (List Char × Nat)}
    (words : ∀ a ∈ attributes, isWord a.1 = true) (nodup : (attributes.map Prod.fst).Nodup)
    (new : ∀ a ∈ attributes, seen.lookup a.1.toList = none) (offset : Nat) :
    readAttributes seen offset (attributes.flatMap attributeText) = .ok attributes := by
  induction attributes generalizing seen offset with
  | nil =>
    rw [List.flatMap_nil, readAttributes]
    rfl
  | cons a attributes ih =>
    obtain ⟨key, v⟩ := a
    obtain ⟨word, words⟩ := List.forall_mem_cons.1 words
    obtain ⟨fresh, nodup⟩ := List.nodup_cons.1 nodup
    obtain ⟨free, new⟩ := List.forall_mem_cons.1 new
    obtain ⟨start, offset', next⟩ :=
      nextAttribute_printed (v := v) word free offset (attributes.flatMap attributeText)
    have new' : ∀ a ∈ attributes, ((key.toList, start) :: seen).lookup a.1.toList = none := by
      intro a ha
      have ne : (a.1.toList == key.toList) = false := by
        rw [beq_eq_false_iff_ne]
        intro same
        apply fresh
        exact List.mem_map.2 ⟨a, ha, String.toList_injective same⟩
      rw [List.lookup_cons, ne]
      exact new a ha
    rw [List.flatMap_cons, readAttributes]
    split
    · next eq =>
      rw [next] at eq
      cases eq
    · next eq =>
      rw [next] at eq
      cases eq
    · next eq =>
      rw [next] at eq
      cases eq
      simp only [unescape_escape, ih words nodup new', bind, Except.bind]
      rw [String.ofList_toList, String.ofList_toList]
      rfl

/-! ## Tags -/

/-- The content of a tag does not end in this text. -/
def Passes (u : List Char) : Prop :=
  ∀ cs, tagContent none (u ++ cs) = (tagContent none cs).map fun p => (u ++ p.1, p.2)

/-- The content of a tag does not end in nothing. -/
lemma Passes.nil : Passes [] := by
  intro cs
  rw [List.nil_append]
  exact Option.map_id'.symm

/-- If it ends in neither of two texts, it does not end in both together. -/
lemma Passes.append {u v : List Char} (hu : Passes u) (hv : Passes v) : Passes (u ++ v) := by
  intro cs
  rw [List.append_assoc, hu, hv, Option.map_map]
  simp [Function.comp_def]

/-- It does not end at a character that is neither `>` nor a quote. -/
lemma Passes.char (close : c ≠ '>') (quote : c ≠ '"') (apos : c ≠ '\'') : Passes [c] := by
  intro cs
  rw [List.singleton_append, tagContent, if_neg close]
  simp [quote, apos]

/-- It does not end in a word. -/
lemma Passes.word {u : List Char} (h : ∀ d ∈ u, isWordChar d = true) : Passes u := by
  induction u with
  | nil => exact .nil
  | cons c u ih =>
    obtain ⟨hc, hu⟩ := List.forall_mem_cons.1 h
    exact .append (.char (ne_of_class hc (by decide)) (ne_of_class hc (by decide))
      (ne_of_class hc (by decide))) (ih hu)

/-- Inside quotes, the content goes on to the closing quote at least. -/
lemma tagContent_quote (h : ∀ d ∈ rest, d ≠ '"') (cs : List Char) :
    tagContent (some '"') (rest ++ '"' :: cs) =
      (tagContent none cs).map fun p => (rest ++ '"' :: p.1, p.2) := by
  induction rest with
  | nil =>
    rw [List.nil_append, tagContent, if_pos rfl]
    rfl
  | cons d rest ih =>
    obtain ⟨hd, hrest⟩ := List.forall_mem_cons.1 h
    rw [List.cons_append, tagContent, if_neg hd, ih hrest, Option.map_map]
    rfl

/-- It does not end in a text in quotes, whatever is in it. -/
lemma Passes.quoted {v : List Char} (h : ∀ d ∈ v, d ≠ '"') : Passes ('"' :: (v ++ ['"'])) := by
  intro cs
  have inside := tagContent_quote h cs
  simp only [List.cons_append, List.append_assoc, List.nil_append, tagContent] at inside ⊢
  simp [inside, Function.comp_def]

/-- It does not end in a printed attribute. -/
lemma Passes.attribute {a : String × String} (h : isWord a.1 = true) : Passes (attributeText a) := by
  obtain ⟨-, -, -, -, word⟩ := isWord_eq_true h
  have value : Passes ('"' :: (escape a.2 ++ ['"'])) :=
    .quoted fun d hd e => not_mem_delimiters hd (e ▸ by decide)
  have text : attributeText a =
      [' '] ++ (a.1.toList ++ (['='] ++ ('"' :: (escape a.2 ++ ['"'])))) := by
    simp [attributeText]
  rw [text]
  exact .append (.char (by decide) (by decide) (by decide)) (.append (.word word)
    (.append (.char (by decide) (by decide) (by decide)) value))

/-- It does not end in printed attributes. -/
lemma Passes.attributes {attributes : List (String × String)}
    (h : ∀ a ∈ attributes, isWord a.1 = true) : Passes (attributes.flatMap attributeText) := by
  induction attributes with
  | nil => exact .nil
  | cons a attributes ih =>
    obtain ⟨ha, has⟩ := List.forall_mem_cons.1 h
    rw [List.flatMap_cons]
    exact .append (.attribute ha) (ih has)

/-- The content of a printed tag, between `<` and `>`. -/
def tagText (name : String) (attributes : List (String × String)) : List Char :=
  name.toList ++ attributes.flatMap attributeText

variable {tag : String} {attributes : List (String × String)}

/-- So a printed tag ends where it was closed. -/
lemma tagContent_printed (hn : isWord tag = true) (ha : ∀ a ∈ attributes, isWord a.1 = true)
    (rest : List Char) :
    tagContent none (tagText tag attributes ++ '>' :: rest) =
      some (tagText tag attributes, rest) := by
  obtain ⟨-, -, -, -, word⟩ := isWord_eq_true hn
  have passes : Passes (tagText tag attributes) := .append (.word word) (.attributes ha)
  rw [passes, tagContent, if_pos rfl]
  simp

/-- A printed tag is not taken for that of an empty element. -/
lemma getLast?_printed (hn : isWord tag = true) :
    (tagText tag attributes).getLast? ≠ some '/' := by
  rcases attributes.eq_nil_or_concat with rfl | ⟨others, a, rfl⟩
  · obtain ⟨-, -, -, -, word⟩ := isWord_eq_true hn
    rw [tagText, List.flatMap_nil, List.append_nil]
    intro last
    exact ne_of_class (word '/' (List.mem_of_getLast? last)) (by decide) rfl
  · obtain ⟨u, last⟩ : ∃ u, attributeText a = u ++ ['"'] := ⟨_, rfl⟩
    rw [tagText, List.concat_eq_append, List.flatMap_append, List.flatMap_singleton, last,
      ← List.append_assoc, ← List.append_assoc, List.getLast?_concat]
    decide

/-- The name of a printed tag is told from its attributes by the blank before them. -/
lemma ofContent_printed (hn : isWord tag = true) :
    Tag.ofContent (tagText tag attributes) =
      { name := tag, attributes := attributes.flatMap attributeText } := by
  obtain ⟨-, -, -, -, word⟩ := isWord_eq_true hn
  have goesOn : ∀ d ∈ tag.toList, (!Text.isSpace d) = true := by
    intro d hd
    rw [isSpace_eq_false (not_mem_of_class (word d hd) (by decide))]
    rfl
  have stop : (attributes.flatMap attributeText).takeWhile (!Text.isSpace ·) = [] ∧
      (attributes.flatMap attributeText).dropWhile (!Text.isSpace ·) =
        attributes.flatMap attributeText := by
    cases attributes with
    | nil => exact ⟨rfl, rfl⟩
    | cons a attributes => exact ⟨rfl, rfl⟩
  rw [Tag.ofContent, tagText, List.takeWhile_append_of_pos goesOn,
    List.dropWhile_append_of_pos goesOn, stop.1, stop.2, List.append_nil, String.ofList_toList]

/-- A printed tag is read as an element with its name and its attributes. -/
lemma element_printed (hn : isWord tag = true) (ha : ∀ a ∈ attributes, isWord a.1 = true)
    (nodup : (attributes.map Prod.fst).Nodup) :
    (Tag.ofContent (tagText tag attributes)).element = .ok { name := tag, attributes } := by
  rw [ofContent_printed hn, Tag.element, readAttributes_printed ha nodup fun _ _ => rfl]
  rfl

/-! ## CDATA -/

variable {mark before after : List Char}

/-- A cut takes the mark out and leaves what is on both sides of it. -/
lemma cutAt_eq_some (h : Text.cutAt mark cs = some (before, after)) :
    cs = before ++ (mark ++ after) := by
  induction cs generalizing before with
  | nil => cases h
  | cons c cs ih =>
    rw [Text.cutAt] at h
    split at h
    · next pre =>
      cases h
      rw [List.isPrefixOf_iff_prefix] at pre
      exact (List.prefix_iff_eq_append.1 pre).symm
    · obtain ⟨⟨b, a⟩, hcut, e⟩ := Option.map_eq_some_iff.1 h
      cases e
      rw [ih hcut, List.cons_append]

/-- What is left behind the end of a section, with its last bracket put back, is shorter. -/
lemma cutAt_shorter (h : Text.cutAt [']', ']', '>'] cs = some (before, after)) :
    ('>' :: after).length < cs.length := by
  rw [cutAt_eq_some h]
  simp
  omega

/-- A character other than a bracket begins no end of a section. -/
lemma cutAt_cons (h : c ≠ ']') (cs : List Char) :
    Text.cutAt [']', ']', '>'] (c :: cs) =
      (Text.cutAt [']', ']', '>'] cs).map fun p => (c :: p.1, p.2) := by
  rw [Text.cutAt, if_neg]
  simp [h.symm]

/-- A text without the end of a section, or of a comment, ends where that is closed. -/
lemma cutAt_append {x : Char} (hx : x ≠ '>') (h : Text.cutAt [x, x, '>'] cs = none) (rest : List Char) :
    Text.cutAt [x, x, '>'] (cs ++ ([x, x, '>'] ++ rest)) = some (cs, rest) := by
  induction cs with
  | nil => simp [Text.cutAt]
  | cons c cs ih =>
    rw [Text.cutAt] at h
    split at h
    · cases h
    · next no =>
      rw [Option.map_eq_none_iff] at h
      have no' : ¬ List.isPrefixOf [x, x, '>'] (c :: cs ++ ([x, x, '>'] ++ rest)) = true := by
        cases cs with
        | nil => simp [hx.symm]
        | cons d cs =>
          cases cs with
          | nil => simp [hx.symm]
          | cons e cs => simpa using no
      rw [List.cons_append] at no' ⊢
      rw [Text.cutAt, if_neg no', ih h]
      rfl

/-- Up to the brackets of the first end of a section, there is no end of a section. -/
lemma cutAt_before (h : Text.cutAt [']', ']', '>'] cs = some (before, after)) :
    Text.cutAt [']', ']', '>'] (before ++ [']', ']']) = none := by
  induction cs generalizing before with
  | nil => cases h
  | cons c cs ih =>
    have eq := cutAt_eq_some h
    rw [Text.cutAt] at h
    split at h
    · cases h
      rfl
    · next no =>
      obtain ⟨⟨b, a⟩, hcut, e⟩ := Option.map_eq_some_iff.1 h
      cases e
      have no' : ¬ List.isPrefixOf [']', ']', '>'] (c :: (b ++ [']', ']'])) = true := by
        rw [List.isPrefixOf_iff_prefix] at no ⊢
        intro pre
        refine no (pre.trans ⟨'>' :: after, ?_⟩)
        rw [eq]
        simp
      rw [List.cons_append, Text.cutAt, if_neg no', ih hcut]
      rfl

/-- Without the end of a section inside, CDATA is printed as it is. -/
lemma cdataInside_of_none (h : Text.cutAt [']', ']', '>'] cs = none) : cdataInside cs = cs := by
  induction cs with
  | nil => rfl
  | cons c cs ih =>
    rw [Text.cutAt] at h
    split at h
    · cases h
    · next no =>
      rw [cdataInside, ih (Option.map_eq_none_iff.1 h)]
      rintro ds rfl rfl
      exact no rfl

/-- At the first end of a section inside, one section is closed and another opened. -/
lemma cdataInside_of_some (h : Text.cutAt [']', ']', '>'] cs = some (before, after)) :
    cdataInside cs = before ++ [']', ']'] ++ [']', ']', '>'] ++
      ['<', '!', '[', 'C', 'D', 'A', 'T', 'A', '['] ++ cdataInside ('>' :: after) := by
  induction cs generalizing before with
  | nil => cases h
  | cons c cs ih =>
    rw [Text.cutAt] at h
    split at h
    · next pre =>
      obtain ⟨t, ht⟩ := List.isPrefixOf_iff_prefix.1 pre
      cases ht
      cases h
      rfl
    · next no =>
      obtain ⟨⟨b, a⟩, hcut, e⟩ := Option.map_eq_some_iff.1 h
      cases e
      rw [cdataInside, ih hcut]
      · simp
      · rintro ds rfl rfl
        exact no rfl

end Flowscript.Markup
