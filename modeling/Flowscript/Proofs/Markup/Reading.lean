import Flowscript.Proofs.Markup.CharacterData
import Flowscript.Proofs.Markup.RoundTrip

/-!
# Reading one event

What happens when an event is read and taken in. `Event.Leaves` says what an event does to the tags that
are open. A reading function that finds an event has found it in the text up to where it stops (`Found`),
so the event stays the same when the rest of the document changes (`next_found`); only a text must go on to
markup. `Builder.Takes` says what the builder makes of an event, wherever it stands.
-/

namespace Flowscript.Markup

/-! ## Texts up to a mark -/

variable {cs content before after rest mark : List Char}

/-- The content of a tag stands before a `>`, and it ends there whatever comes behind. -/
lemma tagContent_eq_some {quote : Option Char} (h : tagContent quote cs = some (content, rest)) :
    cs = content ++ '>' :: rest ∧ ∀ t, tagContent quote (content ++ '>' :: t) = some (content, t) := by
  induction cs generalizing quote content with
  | nil => cases h
  | cons c cs ih =>
    rw [tagContent.eq_def] at h
    cases quote with
    | some q =>
      obtain ⟨⟨inside, _⟩, found, e⟩ := Option.map_eq_some_iff.1 h
      cases e
      obtain ⟨rfl, again⟩ := ih found
      refine ⟨rfl, fun t => ?_⟩
      rw [List.cons_append, tagContent, again]
      rfl
    | none =>
      simp only at h
      split at h
      · next close =>
        cases h
        exact ⟨close ▸ rfl, fun t => rfl⟩
      · next goesOn =>
        obtain ⟨⟨inside, _⟩, found, e⟩ := Option.map_eq_some_iff.1 h
        cases e
        obtain ⟨rfl, again⟩ := ih found
        refine ⟨rfl, fun t => ?_⟩
        rw [List.cons_append, tagContent, if_neg goesOn]
        simp only [again, Option.map_some]

/-- The content of a document type stands before a `>`, and it ends there whatever comes behind. -/
lemma doctypeContent_eq_some {depth : Nat} (h : doctypeContent depth cs = some (content, rest)) :
    cs = content ++ '>' :: rest ∧ ∀ t, doctypeContent depth (content ++ '>' :: t) = some (content, t) := by
  induction cs generalizing depth content with
  | nil => cases h
  | cons c cs ih =>
    rw [doctypeContent] at h
    split at h
    · next close =>
      cases h
      obtain ⟨rfl, rfl⟩ := close
      exact ⟨rfl, fun t => rfl⟩
    · next goesOn =>
      obtain ⟨⟨inside, _⟩, found, e⟩ := Option.map_eq_some_iff.1 h
      cases e
      obtain ⟨rfl, again⟩ := ih found
      refine ⟨rfl, fun t => ?_⟩
      rw [List.cons_append, doctypeContent, if_neg goesOn]
      simp only [again, Option.map_some]

/-- A mark that was found first is found first, whatever comes behind it. -/
lemma cutAt_again (ne : mark ≠ []) (h : Text.cutAt mark cs = some (before, after)) (t : List Char) :
    Text.cutAt mark (before ++ (mark ++ t)) = some (before, t) := by
  induction cs generalizing before with
  | nil => cases h
  | cons c cs ih =>
    have whole := cutAt_eq_some h
    rw [Text.cutAt] at h
    split at h
    · cases h
      obtain ⟨d, ds, rfl⟩ := List.exists_cons_of_ne_nil ne
      rw [List.nil_append, List.cons_append, Text.cutAt, if_pos]
      · simp
      · simp
    · next later =>
      obtain ⟨⟨b, a⟩, found, e⟩ := Option.map_eq_some_iff.1 h
      cases e
      -- The mark does not begin here, for what it would lie in is the same.
      have later' : ¬ mark.isPrefixOf (c :: (b ++ (mark ++ t))) = true := by
        rw [List.isPrefixOf_iff_prefix] at later ⊢
        intro here
        apply later
        have inside : mark <+: c :: b ++ mark := by
          refine List.prefix_of_prefix_length_le here ⟨t, by simp⟩ ?_
          simp
          omega
        rw [whole, ← List.append_assoc]
        exact inside.trans (List.prefix_append _ _)
      rw [List.cons_append, Text.cutAt, if_neg later', ih found]
      rfl

/-! ## Events -/

/-- With the first names open before an event, the second are open behind it, innermost first. An end tag
closes the innermost of them, and has its name. -/
inductive Event.Leaves : Event → List String → List String → Prop where
  | start (tag : Tag) (opened : List String) : Leaves (.start tag) opened (tag.name :: opened)
  | empty (tag : Tag) (opened : List String) : Leaves (.empty tag) opened opened
  | stop (name : String) (opened : List String) : Leaves (.stop name) (name :: opened) opened
  | text (value : List Char) (opened : List String) : Leaves (.text value) opened opened
  | cdata (value : List Char) (opened : List String) : Leaves (.cdata value) opened opened
  | skipped (opened : List String) : Leaves .skipped opened opened

/-- What an event leaves open is determined by what was open before. -/
lemma Event.Leaves.unique {event : Event} {opened p q : List String} (hp : event.Leaves opened p)
    (hq : event.Leaves opened q) : p = q := by
  cases hp <;> cases hq <;> rfl

/-- A reading function that starts here finds this event and stops there. It finds the event in the text in
between, wherever that stands and whatever comes behind it. -/
structure Found {ε : Type} (read : Cursor → List Char → Except ε (Event × Cursor)) (s : Cursor)
    (body : List Char) (event : Event) (s' : Cursor) : Prop where
  leaves : event.Leaves s.opened s'.opened
  again : ∃ u, u ≠ [] ∧ body = u ++ s'.rest ∧ ∀ offset r t, ∃ offset',
    read { offset, opened := s.opened, rest := r } (u ++ t) =
      .ok (event, { offset := offset', opened := s'.opened, rest := t })

variable {s s' : Cursor} {body : List Char} {event : Event}

/-- A section is found up to its end. -/
lemma readCdata_found (h : s.readCdata body = .ok (event, s')) :
    Found Cursor.readCdata s body event s' := by
  rw [Cursor.readCdata] at h
  split at h
  · cases h
  · next before rest cut =>
    split at h
    · next value =>
      cases h
      have whole := cutAt_eq_some cut
      rw [← List.append_assoc] at whole
      refine ⟨.cdata .., _, by simp, whole, fun offset r t => ?_⟩
      rw [Cursor.readCdata, List.append_assoc, cutAt_again (by decide) cut]
      exact ⟨_, rfl⟩
    · cases h

/-- A comment is found up to its end. -/
lemma readComment_found (h : s.readComment body = .ok (event, s')) :
    Found Cursor.readComment s body event s' := by
  rw [Cursor.readComment.eq_def] at h
  split at h
  · next body =>
    split at h
    · cases h
    · next before rest cut =>
      cases h
      have whole : '-' :: '-' :: body = ('-' :: '-' :: (before ++ ['-', '-', '>'])) ++ rest := by
        rw [cutAt_eq_some cut]
        simp
      refine ⟨.skipped _, _, by simp, whole, fun offset r t => ?_⟩
      rw [List.cons_append, List.cons_append, List.append_assoc, Cursor.readComment,
        cutAt_again (by decide) cut]
      exact ⟨_, rfl⟩
  · cases h

/-- A document type is found up to its `>`. -/
lemma readDoctype_found (h : s.readDoctype body = .ok (event, s')) :
    Found Cursor.readDoctype s body event s' := by
  rw [Cursor.readDoctype] at h
  split at h
  · cases h
  · next content rest found =>
    split at h
    · cases h
    · next keyword =>
      split at h
      · cases h
      · next named =>
        cases h
        obtain ⟨rfl, again⟩ := doctypeContent_eq_some found
        have whole : content ++ '>' :: rest = (content ++ ['>']) ++ rest := by simp
        refine ⟨.skipped _, _, by simp, whole, fun offset r t => ?_⟩
        rw [Cursor.readDoctype, List.append_assoc, List.singleton_append, again]
        simp only [if_neg keyword, if_neg named]
        exact ⟨_, rfl⟩

/-- An instruction is found up to its end. -/
lemma readInstruction_found (h : s.readInstruction body = .ok (event, s')) :
    Found Cursor.readInstruction s body event s' := by
  rw [Cursor.readInstruction] at h
  split at h
  · cases h
  · cases h
  · next before rest ne cut =>
    cases h
    have whole := cutAt_eq_some cut
    rw [← List.append_assoc] at whole
    refine ⟨.skipped _, _, by simp, whole, fun offset r t => ?_⟩
    rw [Cursor.readInstruction, List.append_assoc, cutAt_again (by decide) cut]
    cases before with
    | nil => exact (ne rfl).elim
    | cons c before => exact ⟨_, rfl⟩

/-- An end tag is found up to its `>`, and closes the innermost name. -/
lemma readEnd_found (h : s.readEnd body = .ok (event, s')) : Found Cursor.readEnd s body event s' := by
  obtain ⟨offset, opened, r⟩ := s
  rw [Cursor.readEnd] at h
  split at h
  · cases h
  · next content rest found =>
    cases opened with
    | nil => cases h
    | cons innermost outer =>
      simp only at h
      split at h
      · next same =>
        cases h
        obtain ⟨rfl, again⟩ := tagContent_eq_some found
        have whole : content ++ '>' :: rest = (content ++ ['>']) ++ rest := by simp
        refine ⟨.stop .., _, by simp, whole, fun offset r t => ?_⟩
        rw [Cursor.readEnd, List.append_assoc, List.singleton_append, again]
        simp only [if_pos same]
        exact ⟨_, rfl⟩
      · cases h

/-- A start tag is found up to its `>`, and so is the tag of an empty element, which opens nothing. -/
lemma readStart_found (h : s.readStart body = .ok (event, s')) :
    Found Cursor.readStart s body event s' := by
  rw [Cursor.readStart] at h
  split at h
  · cases h
  · next content rest found =>
    obtain ⟨rfl, again⟩ := tagContent_eq_some found
    have whole : content ++ '>' :: rest = (content ++ ['>']) ++ rest := by simp
    split at h
    · next slash =>
      cases h
      refine ⟨.empty .., _, by simp, whole, fun offset r t => ?_⟩
      rw [Cursor.readStart, List.append_assoc, List.singleton_append, again]
      simp only [if_pos slash]
      exact ⟨_, rfl⟩
    · next open_ =>
      cases h
      refine ⟨.start .., _, by simp, whole, fun offset r t => ?_⟩
      rw [Cursor.readStart, List.append_assoc, List.singleton_append, again]
      simp only [if_neg open_]
      exact ⟨_, rfl⟩

/-- Markup that begins with `p` is what a reading function finds behind it, if the first character there
decides that this function is asked. -/
lemma Found.markup {ε : Type} {read : Cursor → List Char → Except ε (Event × Cursor)}
    (found : Found read s body event s') (p : List Char)
    (asked : ∀ (s : Cursor) ds x, ds.head? = body.head? → read s ds = .ok x →
      s.readMarkup (p ++ ds) = .ok x) :
    Found Cursor.readMarkup s (p ++ body) event s' := by
  obtain ⟨leaves, u, ne, rfl, again⟩ := found
  refine ⟨leaves, p ++ u, by simp [ne], by simp, fun offset r t => ?_⟩
  obtain ⟨offset', read⟩ := again offset r t
  refine ⟨offset', ?_⟩
  rw [List.append_assoc]
  apply asked _ _ _ _ read
  obtain ⟨c, u, rfl⟩ := List.exists_cons_of_ne_nil ne
  rfl

/-- A kind of markup that is told by its first characters is found by the reader of all markup. -/
lemma Found.markup_cons {ε : Type} {read : Cursor → List Char → Except ε (Event × Cursor)} {c : Char}
    (found : Found read s (c :: cs) event s') (p : List Char)
    (asked : ∀ (s : Cursor) ds x, read s (c :: ds) = .ok x → s.readMarkup (p ++ c :: ds) = .ok x) :
    Found Cursor.readMarkup s (p ++ c :: cs) event s' := by
  refine found.markup p fun s ds x head read => ?_
  obtain ⟨ds, rfl⟩ := List.head?_eq_some_iff.1 head
  exact asked s ds x read

/-- Whatever markup it is, it is found up to its end. -/
lemma readMarkup_found (h : s.readMarkup body = .ok (event, s')) :
    Found Cursor.readMarkup s body event s' := by
  rw [Cursor.readMarkup.eq_def] at h
  simp only at h
  split at h
  · cases h
  · have found := readCdata_found (Cursor.mapError_eq_ok h)
    exact found.markup_cons ['!'] fun s ds x => congrArg (Except.mapError _)
  · have found := readComment_found (Cursor.mapError_eq_ok h)
    exact found.markup_cons ['!'] fun s ds x => congrArg (Except.mapError _)
  · exact (readDoctype_found h).markup_cons ['!'] fun s ds x read => read
  · exact (readDoctype_found h).markup_cons ['!'] fun s ds x read => read
  · cases h
  · have found := readInstruction_found (Cursor.mapError_eq_ok h)
    exact found.markup_cons [] fun s ds x => congrArg (Except.mapError _)
  · have found := readEnd_found (Cursor.mapError_eq_ok h)
    exact found.markup ['/'] fun s ds x head => congrArg (Except.mapError _)
  · next nil cdata comment upper lower bang mark slash =>
    obtain ⟨c, cs, rfl⟩ := List.exists_cons_of_ne_nil nil
    refine (readStart_found (Cursor.mapError_eq_ok h)).markup_cons [] fun s ds x read => ?_
    rw [List.nil_append, readMarkup_tag s (fun e => bang cs (e ▸ rfl)) (fun e => mark cs (e ▸ rfl))
      (fun e => slash cs (e ▸ rfl)), read]
    rfl

/-- Markup begins here, or the document ends. -/
def AtMarkup (t : List Char) : Prop :=
  ∀ c ∈ t.head?, c = '<'

/-- Blanks in front are passed over. -/
lemma next_blanks {blanks : List Char} (h : ∀ c ∈ blanks, Text.isSpace c = true) (offset : Nat)
    (opened : List String) (rest : List Char) :
    Cursor.next { offset, opened, rest := blanks ++ rest } =
      Cursor.next { offset := offset + blanks.length, opened, rest } := by
  simp only [Cursor.next, Cursor.skipSpace, List.takeWhile_append_of_pos h, List.dropWhile_append_of_pos h,
    List.length_append, Nat.add_assoc]

/-- What is left does not begin with a character that would have been dropped. -/
lemma head?_dropWhile (p : Char → Bool) (cs : List Char) : ∀ c ∈ (cs.dropWhile p).head?, p c = false := by
  intro c hc
  have stops := List.head?_dropWhile_not p cs
  rw [hc] at stops
  simpa using stops

/-- What is read behind the blanks at a cursor. -/
lemma exists_next_eq (s : Cursor) : ∃ blanks rest offset,
    (∀ c ∈ blanks, Text.isSpace c = true) ∧ (∀ c ∈ rest.head?, Text.isSpace c = false) ∧
      s.rest = blanks ++ rest ∧ s.next = Cursor.readEvent { offset, opened := s.opened, rest } := by
  refine ⟨s.rest.takeWhile Text.isSpace, s.rest.dropWhile Text.isSpace, _, ?_,
    head?_dropWhile Text.isSpace s.rest, List.takeWhile_append_dropWhile.symm, rfl⟩
  exact List.all_eq_true.1 List.all_takeWhile

/-- Words up to the next markup are read as a text, without the blanks around them. -/
lemma yields_words {blanks word t : List Char} {opened : List String}
    (space : ∀ c ∈ blanks, Text.isSpace c = true) (ne : word ≠ [])
    (first : ∀ c ∈ word.head?, Text.isSpace c = false) (plain : '<' ∉ word) (markup : AtMarkup t) :
    Yields opened (blanks ++ (word ++ t)) (.text (Text.trimEnd Text.isSpace word)) opened t := by
  intro offset
  have goesOn : ∀ d ∈ word, (d != '<') = true := fun d hd =>
    bne_iff_ne.2 (ne_of_mem_of_not_mem hd plain)
  have stops : ∀ c ∈ t.head?, (c != '<') = false := by
    intro c hc
    rw [markup c hc]
    rfl
  obtain ⟨taken, left⟩ := span_append goesOn stops
  obtain ⟨c, cs, rfl⟩ := List.exists_cons_of_ne_nil ne
  rw [next_blanks space, next_eq first, readEvent_text rfl (bne_iff_ne.1 (goesOn c List.mem_cons_self)),
    Cursor.readText]
  simp only [taken, left]
  exact ⟨_, rfl⟩

/-- An event that comes next is found in the text in between, wherever that stands and whatever comes
behind it. Only behind a text, there must be markup again. -/
lemma next_found (h : s.next = .ok (some (event, s'))) :
    event.Leaves s.opened s'.opened ∧ ∃ u, u ≠ [] ∧ s.rest = u ++ s'.rest ∧
      ∀ t, (AtMarkup s'.rest → AtMarkup t) → Yields s.opened (u ++ t) event s'.opened t := by
  obtain ⟨blanks, rest, offset, space, first, whole, next⟩ := exists_next_eq s
  rw [next] at h
  cases rest with
  | nil => cases h
  | cons c cs =>
    by_cases markup : c = '<'
    · subst markup
      cases read : Cursor.readMarkup { offset, opened := s.opened, rest := '<' :: cs } cs with
      | error f => simp [Cursor.readEvent, read, Except.map] at h
      | ok x =>
        simp only [Cursor.readEvent, read, Except.map, Except.ok.injEq, Option.some.injEq] at h
        subst h
        obtain ⟨leaves, u, ne, rfl, again⟩ := readMarkup_found read
        refine ⟨leaves, blanks ++ '<' :: u, by simp, by simp [whole], fun t _ offset => ?_⟩
        obtain ⟨offset', read⟩ := again (offset + blanks.length) ('<' :: (u ++ t)) t
        refine ⟨offset', ?_⟩
        rw [List.append_assoc, next_blanks space, List.cons_append, next_markup, read]
        rfl
    · rw [readEvent_text rfl markup] at h
      cases h
      have word : (c :: cs).takeWhile (· != '<') = c :: cs.takeWhile (· != '<') :=
        List.takeWhile_cons_of_pos (bne_iff_ne.2 markup)
      have plain : '<' ∉ (c :: cs).takeWhile (· != '<') := fun mem =>
        absurd (List.all_eq_true.1 List.all_takeWhile '<' mem) (by decide)
      have stops : AtMarkup ((c :: cs).dropWhile (· != '<')) := fun d hd =>
        bne_eq_false_iff_eq.1 (head?_dropWhile (· != '<') (c :: cs) d hd)
      refine ⟨.text .., blanks ++ (c :: cs).takeWhile (· != '<'), by simp [word], ?_, fun t ht => ?_⟩
      · rw [List.append_assoc, List.takeWhile_append_dropWhile]
        exact whole
      · rw [List.append_assoc]
        refine yields_words space (by simp [word]) ?_ plain (ht stops)
        rw [word]
        exact first

/-! ## The builder -/

/-- The element with a text behind the text that it has. -/
def addText (value : List Char) (e : Element) : Element :=
  { e with text := some (e.text.getD "" ++ String.ofList value) }

/-- The element with CDATA behind the CDATA that it has. -/
def addCdata (value : List Char) (e : Element) : Element :=
  { e with cdata := some (e.cdata.getD "" ++ String.ofList value) }

/-- What the builder makes of an event, wherever it stands. -/
inductive Builder.Takes : Builder → Event → Builder → Prop where
  | start {b : Builder} {tag : Tag} {e : Element} :
      tag.element = .ok e → Takes b (.start tag) { b with stack := e :: b.stack }
  | empty {b : Builder} {tag : Tag} {e : Element} :
      tag.element = .ok e → Takes b (.empty tag) (b.attach e)
  | stop (e : Element) (stack : List Element) (root : Option Element) :
      Takes ⟨e :: stack, root⟩ (.stop e.name) (attach ⟨stack, root⟩ e)
  | text {b : Builder} {raw value : List Char} :
      Unescaped raw value → Takes b (.text raw) (b.modifyTop (addText value))
  | cdata (b : Builder) (value : List Char) : Takes b (.cdata value) (b.modifyTop (addCdata value))
  | skipped (b : Builder) : Takes b .skipped b

variable {b b' : Builder} {e : Element} {position : Nat}

/-- A step whose faults are located succeeds if the step does, and what follows with its result. -/
lemma located_bind_eq_ok {α β : Type} {x : Except Fault α} {f : α → Except Error β} {y : β} :
    (x.mapError (.malformed position) >>= f) = .ok y ↔ ∃ a, x = .ok a ∧ f a = .ok y := by
  rw [bind_eq_ok]
  constructor
  · rintro ⟨a, found, h⟩
    exact ⟨a, Cursor.mapError_eq_ok found, h⟩
  · rintro ⟨a, rfl, h⟩
    exact ⟨a, rfl, h⟩

/-- The builder accepts the events that it takes, at any position. -/
lemma accept_eq_ok : b.accept position event = .ok b' ↔ b.Takes event b' := by
  constructor
  · intro h
    cases event with
    | start tag =>
      obtain ⟨e, found, h⟩ := located_bind_eq_ok.1 h
      cases h
      exact .start found
    | empty tag =>
      obtain ⟨e, found, h⟩ := located_bind_eq_ok.1 h
      cases h
      exact .empty found
    | stop name =>
      obtain ⟨stack, root⟩ := b
      cases stack with
      | nil => cases h
      | cons e stack =>
        simp only [Builder.accept] at h
        split at h
        · next same =>
          cases h
          exact same ▸ .stop e stack root
        · cases h
    | text raw =>
      obtain ⟨value, found, h⟩ := located_bind_eq_ok.1 h
      cases h
      exact .text (unescape_eq_ok.1 found)
    | cdata value =>
      cases h
      exact .cdata b value
    | skipped =>
      cases h
      exact .skipped b
  · intro h
    cases h with
    | start found => exact located_bind_eq_ok.2 ⟨_, found, rfl⟩
    | empty found => exact located_bind_eq_ok.2 ⟨_, found, rfl⟩
    | stop e stack root => exact if_pos rfl
    | text found => exact located_bind_eq_ok.2 ⟨_, unescape_eq_ok.2 found, rfl⟩
    | cdata => rfl
    | skipped => rfl

/-- An element that a tag opens has the tag's name, and nothing inside. -/
lemma element_eq_ok {tag : Tag} (h : tag.element = .ok e) :
    ∃ attributes, e = { name := tag.name, attributes } := by
  rw [Tag.element] at h
  cases read : readAttributes [] (Text.width tag.name.toList) tag.attributes with
  | error f => simp [read, bind, Except.bind] at h
  | ok attributes =>
    rw [read] at h
    cases h
    exact ⟨attributes, rfl⟩

end Flowscript.Markup
