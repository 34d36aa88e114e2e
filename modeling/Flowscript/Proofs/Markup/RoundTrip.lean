import Flowscript.Markup.Document
import Flowscript.Proofs.Markup.Printed
import Mathlib.Logic.Relation

/-!
# Reading printed elements

Reading a document is a run of steps, each of which takes one event from the cursor into the builder
(`Step`). `Reaches` says that some steps lead from one stage to another. From the event that each part of
a printed element is read as (`yields_start`, `yields_text`, `yields_cdata`, `yields_stop`) follows what
the part does to the builder, and by induction on the element that reading it puts it in its place
(`Printable.reaches`). `parse_render` says that a printed document is read as the element it was printed
from.
-/

namespace Flowscript.Markup

/-! ## Steps -/

/-- One step of reading a document: an event at the cursor, taken in by the builder. -/
def Step (p q : Builder × Cursor) : Prop :=
  ∃ event, p.2.next = .ok (some (event, q.2)) ∧ p.1.accept q.2.offset event = .ok q.1

/-- What is built, which tags are open and what is left to read: all but the number of bytes. -/
structure Stage where
  builder : Builder
  opened : List String
  rest : List Char

/-- Wherever in a document the first stage is, steps lead from it to the second. -/
def Reaches (p q : Stage) : Prop :=
  ∀ offset, ∃ offset', Relation.ReflTransGen Step
    (p.builder, { offset, opened := p.opened, rest := p.rest })
    (q.builder, { offset := offset', opened := q.opened, rest := q.rest })

/-- Wherever in a document, this event comes next, and this is open and left behind it. -/
def Yields (opened : List String) (rest : List Char) (event : Event) (opened' : List String)
    (rest' : List Char) : Prop :=
  ∀ offset, ∃ offset', Cursor.next { offset, opened, rest } =
    .ok (some (event, { offset := offset', opened := opened', rest := rest' }))

variable {p q r : Stage} {b b' : Builder} {event : Event} {opened opened' : List String}
  {rest rest' : List Char} {name : String} {attributes : List (String × String)}

/-- A run takes in the next event and goes on behind it. -/
lemma run_of_next {s s' : Cursor} (h : s.next = .ok (some (event, s'))) :
    b.run s = match b.accept s'.offset event with
      | .error error => .error error
      | .ok b => b.run s' := by
  rw [Builder.run]
  split
  · next eq =>
    rw [h] at eq
    cases eq
  · next eq =>
    rw [h] at eq
    cases eq
  · next eq =>
    rw [h] at eq
    cases eq
    rfl

/-- A run goes on from a step as from its start. -/
lemma Step.run_eq {p q : Builder × Cursor} (st : Step p q) : p.1.run p.2 = q.1.run q.2 := by
  obtain ⟨event, next, accept⟩ := st
  rw [run_of_next next, accept]

/-- So it does from several steps. -/
lemma run_eq_of_steps {p q : Builder × Cursor} (steps : Relation.ReflTransGen Step p q) :
    p.1.run p.2 = q.1.run q.2 := by
  induction steps with
  | refl => rfl
  | tail _ st ih => exact ih.trans st.run_eq

namespace Reaches

/-- Each stage is reached from itself. -/
lemma refl (p : Stage) : Reaches p p :=
  fun offset => ⟨offset, .refl⟩

/-- Stages are reached one after the other. -/
lemma trans (h : Reaches p q) (h' : Reaches q r) : Reaches p r := by
  intro offset
  obtain ⟨offset', steps⟩ := h offset
  obtain ⟨offset'', steps'⟩ := h' offset'
  exact ⟨offset'', steps.trans steps'⟩

/-- One event that the builder accepts leads to the stage behind it. -/
lemma single (next : Yields opened rest event opened' rest')
    (accept : ∀ offset, b.accept offset event = .ok b') :
    Reaches ⟨b, opened, rest⟩ ⟨b', opened', rest'⟩ := by
  intro offset
  obtain ⟨offset', next⟩ := next offset
  exact ⟨offset', .single ⟨event, next, accept offset'⟩⟩

end Reaches

/-! ## Events -/

/-- Without blanks in front, the next event begins here. -/
lemma next_eq {s : Cursor} (h : ∀ c ∈ s.rest.head?, Text.isSpace c = false) :
    s.next = s.readEvent := by
  have skip : s.skipSpace = s := by
    obtain ⟨offset, opened, rest⟩ := s
    cases rest with
    | nil => rfl
    | cons c cs =>
      have hc : Text.isSpace c = false := h c rfl
      simp [Cursor.skipSpace, hc]
  rw [Cursor.next, skip]

/-- A `<` begins markup. -/
lemma next_markup (offset : Nat) (opened : List String) (body : List Char) :
    Cursor.next { offset, opened, rest := '<' :: body } =
      (Cursor.readMarkup { offset, opened, rest := '<' :: body } body).map some :=
  next_eq fun c hc => by cases hc; rfl

/-- Markup that begins with none of the three marks is a start tag. -/
lemma readMarkup_tag (s : Cursor) {c : Char} (bang : c ≠ '!') (mark : c ≠ '?') (slash : c ≠ '/')
    (cs : List Char) :
    s.readMarkup (c :: cs) = (s.readStart (c :: cs)).mapError (.malformed s.offset) := by
  rw [Cursor.readMarkup]
  all_goals
    intros
    rename_i eq
    cases eq <;> contradiction

/-- In particular, markup that begins with a letter is. -/
lemma readMarkup_letter {s : Cursor} {c : Char} (hc : c.isAlpha = true) (cs : List Char) :
    s.readMarkup (c :: cs) = (s.readStart (c :: cs)).mapError (.malformed s.offset) := by
  -- None of the characters that open other markup is a letter.
  apply readMarkup_tag
  all_goals
    rintro rfl
    cases hc

/-- A printed start tag is read as the start of an element. -/
lemma yields_start (hn : isWord name = true) (ha : ∀ a ∈ attributes, isWord a.1 = true) :
    Yields opened ('<' :: (tagText name attributes ++ '>' :: rest))
      (.start (Tag.ofContent (tagText name attributes))) (name :: opened) rest := by
  intro offset
  obtain ⟨c, cs, eq, alpha, -⟩ := isWord_eq_true hn
  have letter : ∃ ds, tagText name attributes ++ '>' :: rest = c :: ds := by
    rw [tagText, eq]
    exact ⟨_, rfl⟩
  obtain ⟨ds, hds⟩ := letter
  have content := tagContent_printed hn ha rest
  have tag : (Tag.ofContent (tagText name attributes)).name = name := by rw [ofContent_printed hn]
  rw [next_markup, hds, readMarkup_letter alpha, ← hds, Cursor.readStart, content]
  simp only [if_neg (getLast?_printed hn), tag]
  exact ⟨_, rfl⟩

/-- Without blanks, there is nothing to trim. -/
lemma trimEnd_eq {cs : List Char} (h : ∀ c ∈ cs, Text.isSpace c = false) :
    Text.trimEnd Text.isSpace cs = cs := by
  have keep : cs.reverse.dropWhile Text.isSpace = cs.reverse := by
    cases rev : cs.reverse with
    | nil => rfl
    | cons d ds =>
      have hd : d ∈ cs := List.mem_reverse.1 (rev ▸ List.mem_cons_self)
      rw [List.dropWhile_cons_of_neg (by simp [h d hd])]
  rw [Text.trimEnd, keep, List.reverse_reverse]

/-- A printed end tag is read as the end of the innermost element. -/
lemma yields_stop (hn : isWord name = true) :
    Yields (name :: opened) ('<' :: '/' :: (name.toList ++ '>' :: rest)) (.stop name) opened rest := by
  intro offset
  obtain ⟨c, cs, eq, -, word⟩ := isWord_eq_true hn
  have content : tagContent none (name.toList ++ '>' :: rest) = some (name.toList, rest) := by
    rw [Passes.word word, tagContent, if_pos rfl]
    simp
  have ends : endName name.toList = name := by
    have none : ∀ d ∈ name.toList, Text.isSpace d = false := fun d hd =>
      isSpace_eq_false (not_mem_of_class (word d hd) (by decide))
    have some : ¬ name.toList.all Text.isSpace = true := by
      rw [eq]
      simp [none c (eq ▸ List.mem_cons_self)]
    rw [endName, if_neg some, trimEnd_eq none, String.ofList_toList]
  rw [next_markup, Cursor.readMarkup, Cursor.readEnd, content]
  simp only [ends]
  exact ⟨_, rfl⟩

/-- What is no markup is text. -/
lemma readEvent_text {s : Cursor} {c : Char} {cs : List Char} (h : s.rest = c :: cs) (hc : c ≠ '<') :
    s.readEvent = .ok (some s.readText) := by
  rw [Cursor.readEvent]
  split
  · next eq =>
    rw [h] at eq
    cases eq
  · next eq =>
    rw [h] at eq
    cases eq
    exact absurd rfl hc
  · rfl

/-- Characters that delimit nothing are read as a text, up to the next markup or the end. -/
lemma yields_plain {cs : List Char} (ne : cs ≠ []) (plain : ∀ d ∈ cs, d ∉ delimiters)
    (markup : ∀ c ∈ rest.head?, c = '<') : Yields opened (cs ++ rest) (.text cs) opened rest := by
  intro offset
  have none : ∀ d ∈ cs, Text.isSpace d = false := fun d hd => isSpace_eq_false (plain d hd)
  have goesOn : ∀ d ∈ cs, (d != '<') = true := fun d hd =>
    bne_iff_ne.2 fun e => plain d hd (e ▸ by decide)
  have stops : ∀ c ∈ rest.head?, (c != '<') = false := by
    intro c hc
    rw [markup c hc]
    rfl
  obtain ⟨taken, left⟩ := span_append goesOn stops
  obtain ⟨c, ds, eq⟩ := List.exists_cons_of_ne_nil ne
  have first : c ∉ delimiters := plain c (eq ▸ List.mem_cons_self)
  have text : cs ++ rest = c :: (ds ++ rest) := by rw [eq, List.cons_append]
  have head : ∀ d ∈ (cs ++ rest).head?, Text.isSpace d = false := by
    rw [text]
    rintro _ ⟨⟩
    exact isSpace_eq_false first
  have ne : c ≠ '<' := fun e => first (e ▸ by decide)
  rw [next_eq head, readEvent_text text ne, Cursor.readText]
  simp only [taken, left, trimEnd_eq none]
  exact ⟨_, rfl⟩

/-- A printed text is read as a text. -/
lemma yields_text {t : String} (ht : t ≠ "") (markup : ∀ c ∈ rest.head?, c = '<') :
    Yields opened (escape t ++ rest) (.text (escape t)) opened rest :=
  yields_plain (escape_ne_nil ht) (fun _ => not_mem_delimiters) markup

/-- A CDATA section with this inside, and what comes behind it. -/
def sectionText (inside rest : List Char) : List Char :=
  ['<', '!', '[', 'C', 'D', 'A', 'T', 'A', '['] ++ (inside ++ ([']', ']', '>'] ++ rest))

/-- A section without an end inside is read as one CDATA event. -/
lemma yields_cdata {cs : List Char} (h : Text.cutAt [']', ']', '>'] cs = none) :
    Yields opened (sectionText cs rest) (.cdata cs) opened rest := by
  intro offset
  have cut := cutAt_append (by decide) h rest
  rw [List.cons_append, List.cons_append, List.cons_append, List.nil_append] at cut
  simp only [sectionText, List.cons_append, List.nil_append]
  rw [next_markup, Cursor.readMarkup, Cursor.readCdata]
  simp only [cutAt_cons, ne_eq, Char.reduceEq, not_false_eq_true, cut]
  exact ⟨_, rfl⟩

/-! ## Parts of elements -/

variable {e : Element} {stack : List Element} {root : Option Element}

/-- A printed start tag opens an element with its name and its attributes. -/
lemma reaches_start (hn : isWord name = true) (ha : ∀ a ∈ attributes, isWord a.1 = true)
    (nodup : (attributes.map Prod.fst).Nodup) :
    Reaches ⟨⟨stack, root⟩, opened, '<' :: (tagText name attributes ++ '>' :: rest)⟩
      ⟨⟨{ name, attributes } :: stack, root⟩, name :: opened, rest⟩ := by
  refine .single (yields_start hn ha) fun offset => ?_
  rw [Builder.accept, element_printed hn ha nodup]
  rfl

/-- A printed end tag puts the innermost element in its place. -/
lemma reaches_stop (hn : isWord name = true) (he : e.name = name) :
    Reaches ⟨⟨e :: stack, root⟩, name :: opened, '<' :: '/' :: (name.toList ++ '>' :: rest)⟩
      ⟨Builder.attach ⟨stack, root⟩ e, opened, rest⟩ :=
  .single (yields_stop hn) fun _ => if_pos he

/-- A text goes behind the text that the innermost element has. -/
lemma reaches_text {t : String} (ht : t ≠ "") (markup : ∀ c ∈ rest.head?, c = '<') :
    Reaches ⟨⟨e :: stack, root⟩, opened, escape t ++ rest⟩
      ⟨⟨{ e with text := some (e.text.getD "" ++ t) } :: stack, root⟩, opened, rest⟩ := by
  refine .single (yields_text ht markup) fun offset => ?_
  have accepted : Builder.accept ⟨e :: stack, root⟩ offset (.text (escape t)) =
      .ok ⟨{ e with text := some (e.text.getD "" ++ String.ofList t.toList) } :: stack, root⟩ := by
    rw [Builder.accept, unescape_escape]
    rfl
  rw [accepted, String.ofList_toList]

/-- A section adds its inside to the CDATA of the innermost element. -/
lemma reaches_section {cs : List Char} (h : Text.cutAt [']', ']', '>'] cs = none) :
    Reaches ⟨⟨e :: stack, root⟩, opened, sectionText cs rest⟩
      ⟨⟨{ e with cdata := some (e.cdata.getD "" ++ String.ofList cs) } :: stack, root⟩, opened, rest⟩ :=
  .single (yields_cdata h) fun _ => rfl

/-- CDATA goes behind the CDATA that the innermost element has, over however many sections it is
split. -/
lemma reaches_cdata (cs : List Char) (e : Element) :
    Reaches ⟨⟨e :: stack, root⟩, opened, sectionText (cdataInside cs) rest⟩
      ⟨⟨{ e with cdata := some (e.cdata.getD "" ++ String.ofList cs) } :: stack, root⟩, opened, rest⟩ := by
  cases h : Text.cutAt [']', ']', '>'] cs with
  | none =>
    rw [cdataInside_of_none h]
    exact reaches_section h
  | some p =>
    -- The first section ends behind the brackets of the mark; the next one begins with its `>`.
    obtain ⟨before, after⟩ := p
    have eq : cs = before ++ ([']', ']', '>'] ++ after) := cutAt_eq_some h
    have shorter := cutAt_shorter h
    have split : sectionText (cdataInside cs) rest =
        sectionText (before ++ [']', ']']) (sectionText (cdataInside ('>' :: after)) rest) := by
      simp only [sectionText, cdataInside_of_some h, List.append_assoc]
    let e' := { e with cdata := some (e.cdata.getD "" ++ String.ofList (before ++ [']', ']'])) }
    have whole : e'.cdata.getD "" ++ String.ofList ('>' :: after) =
        e.cdata.getD "" ++ String.ofList cs := by
      rw [Option.getD_some, String.append_assoc, ← String.ofList_append, eq, List.append_assoc]
      rfl
    rw [split, ← whole]
    exact (reaches_section (cutAt_before h)).trans (reaches_cdata ('>' :: after) e')
termination_by cs.length

variable {text cdata : Option String} {children es : List Element}

/-- The printed text of an element is added to it, if there is one. -/
lemma reaches_text? (ht : text ≠ some "") (markup : rest.head? = some '<') :
    Reaches ⟨⟨{ name, attributes } :: stack, root⟩, opened, (text.map escape).getD [] ++ rest⟩
      ⟨⟨{ name, attributes, text } :: stack, root⟩, opened, rest⟩ := by
  cases text with
  | none => exact .refl _
  | some t =>
    have behind : ∀ c ∈ rest.head?, c = '<' := fun c hc => Option.some.inj (hc.symm.trans markup)
    have read : Reaches ⟨⟨_ :: stack, root⟩, opened, escape t ++ rest⟩ _ :=
      reaches_text (e := { name, attributes }) (fun h => ht (h ▸ rfl)) behind
    rw [Option.getD_none, String.empty_append] at read
    exact read

/-- The printed CDATA of an element is put together again from its sections, if there is some. -/
lemma reaches_cdata? :
    Reaches ⟨⟨{ name, attributes, text } :: stack, root⟩, opened,
        (cdata.map cdataSection).getD [] ++ rest⟩
      ⟨⟨{ name, attributes, text, cdata } :: stack, root⟩, opened, rest⟩ := by
  cases cdata with
  | none => exact .refl _
  | some t =>
    have printed : cdataSection t ++ rest = sectionText (cdataInside t.toList) rest := by
      simp only [cdataSection, sectionText, List.append_assoc]
    have whole : (none : Option String).getD "" ++ String.ofList t.toList = t := by
      rw [Option.getD_none, String.empty_append, String.ofList_toList]
    have sections : Reaches ⟨⟨_ :: stack, root⟩, opened, sectionText _ rest⟩ _ :=
      reaches_cdata t.toList { name, attributes, text }
    rw [whole] at sections
    rw [Option.map_some, Option.getD_some, printed]
    exact sections

/-! ## Elements -/

/-- A printed element begins with markup. -/
lemma head?_render (e : Element) : e.render.head? = some '<' := by
  obtain ⟨name, attributes, text, cdata, children⟩ := e
  simp [Element.render]

/-- Behind its text, an element goes on with markup. -/
lemma head?_content (cdata : Option String) (children : List Element) (cs : List Char) :
    ((cdata.map cdataSection).getD [] ++ (Element.renderAll children ++ '<' :: cs)).head? =
      some '<' := by
  cases cdata with
  | some t => simp [cdataSection]
  | none =>
    cases children with
    | nil => rfl
    | cons e es => simp [Element.renderAll, head?_render]

/-- The parts of a printed element, from the left. -/
lemma render_append (rest : List Char) :
    Element.render { name, attributes, text, cdata, children } ++ rest =
      '<' :: (tagText name attributes ++ '>' :: ((text.map escape).getD [] ++
        ((cdata.map cdataSection).getD [] ++ (Element.renderAll children ++
          '<' :: '/' :: (name.toList ++ '>' :: rest))))) := by
  simp [Element.render, tagText]

/-- Elements that are complete inside an element become its last children. -/
lemma foldl_attach_cons (e : Element) (es : List Element) :
    es.foldl Builder.attach ⟨e :: stack, root⟩ =
      ⟨{ e with children := e.children ++ es } :: stack, root⟩ := by
  induction es generalizing e with
  | nil =>
    cases e
    rw [List.append_nil]
    rfl
  | cons c es ih =>
    rw [List.foldl_cons, Builder.attach]
    exact (ih _).trans (by simp [Element.withChild])

/-- Once there is a root, further elements at top level change nothing. -/
lemma foldl_attach_root (e : Element) (es : List Element) :
    es.foldl Builder.attach ⟨[], some e⟩ = ⟨[], some e⟩ := by
  induction es with
  | nil => rfl
  | cons c es ih => exact ih

/-- Elements one after the other are attached in turn if each of them is. -/
lemma reaches_all (h : ∀ e ∈ es, ∀ b opened rest,
      Reaches ⟨b, opened, e.render ++ rest⟩ ⟨b.attach e, opened, rest⟩)
    (b : Builder) (opened : List String) (rest : List Char) :
    Reaches ⟨b, opened, Element.renderAll es ++ rest⟩ ⟨es.foldl Builder.attach b, opened, rest⟩ := by
  induction es generalizing b with
  | nil => exact .refl _
  | cons e es ih =>
    rw [Element.renderAll, List.append_assoc]
    exact (h e List.mem_cons_self _ _ _).trans (ih (fun e he => h e (List.mem_cons_of_mem _ he)) _)

/-- Elements that can be printed and read again: names are words, no attribute is repeated, and an
empty text is absent. -/
inductive Printable : Element → Prop
  | mk {name : String} {attributes : List (String × String)} {text cdata : Option String}
      {children : List Element} :
      isWord name = true →
      (∀ a ∈ attributes, isWord a.1 = true) →
      (attributes.map Prod.fst).Nodup →
      text ≠ some "" →
      (∀ e ∈ children, Printable e) →
      Printable { name, attributes, text, cdata, children }

/-- Reading a printed element puts it in its place. -/
lemma Printable.reaches (he : Printable e) (b : Builder) (opened : List String) (rest : List Char) :
    Reaches ⟨b, opened, e.render ++ rest⟩ ⟨b.attach e, opened, rest⟩ := by
  induction he generalizing b opened rest with
  | @mk name attributes text cdata children hn ha nodup ht hc ih =>
    obtain ⟨stack, root⟩ := b
    have content := reaches_all ih ⟨{ name, attributes, text, cdata } :: stack, root⟩
      (name :: opened) ('<' :: '/' :: (name.toList ++ '>' :: rest))
    rw [foldl_attach_cons, List.nil_append] at content
    rw [render_append]
    exact (reaches_start hn ha nodup).trans <|
      (reaches_text? ht (head?_content ..)).trans <|
      reaches_cdata?.trans <|
      content.trans (reaches_stop hn rfl)

/-- Reading what printing writes gives the first element back, whatever elements follow it. -/
theorem parse_render (e : Element) (rest : List Element) (he : Printable e)
    (hr : ∀ r ∈ rest, Printable r) :
    parse (String.ofList (e.render ++ Element.renderAll rest)) = .ok e := by
  have source : dropMark (e.render ++ Element.renderAll rest) = e.render ++ Element.renderAll rest := by
    obtain ⟨cs, hcs⟩ := List.head?_eq_some_iff.1 (head?_render e)
    rw [hcs]
    rfl
  have steps : Reaches ⟨{}, [], e.render ++ Element.renderAll rest⟩ ⟨⟨[], some e⟩, [], []⟩ := by
    have further := reaches_all (fun r h => (hr r h).reaches) ⟨[], some e⟩ [] []
    rw [foldl_attach_root, List.append_nil] at further
    exact (he.reaches {} [] _).trans further
  obtain ⟨offset, steps⟩ := steps 0
  have done : Builder.run ⟨[], some e⟩ { offset, opened := [], rest := [] } = .ok e := by
    rw [Builder.run]
    rfl
  rw [parse, String.toList_ofList, source]
  exact (run_eq_of_steps steps).trans done

/-- Blanks at the ends of a text, quotes in an attribute, CDATA with the mark of its end inside, empty
CDATA and an element of two levels. -/
def quoted : Element where
  name := "Tool_1"
  attributes := [("x", "a \"b\" & 'c'"), ("y2", "\t<\n>")]
  text := some "  &lt; é\r\n"
  cdata := some "]]>]]]>x]]"
  children := [
    { name := "A", cdata := some "" },
    { name := "B", children := [{ name := "A", text := some " " }] }]

/-- All names in it are words, and no text in it is empty. -/
lemma printable_quoted : Printable quoted := by
  have leaf : Printable { name := "A", text := some " " } :=
    .mk (by decide) nofun .nil (by decide) nofun
  have first : Printable { name := "A", cdata := some "" } :=
    .mk (by decide) nofun .nil nofun nofun
  have second : Printable { name := "B", children := [{ name := "A", text := some " " }] } :=
    .mk (by decide) nofun .nil nofun (by simpa using leaf)
  exact .mk (by decide) (by decide) (by decide) (by decide) (by simp [first, second])

/-- It is read as itself, alone and with another element behind it. -/
theorem parse_render_quoted :
    (Printable quoted ∧ ∀ r ∈ [quoted, { name := "C" }], Printable r) ∧
      parse (String.ofList (quoted.render ++ Element.renderAll [quoted, { name := "C" }])) =
        .ok quoted := by
  have others : ∀ r ∈ [quoted, { name := "C" }], Printable r := by
    have last : Printable { name := "C" } := .mk (by decide) nofun .nil nofun nofun
    simp [printable_quoted, last]
  exact ⟨⟨printable_quoted, others⟩, parse_render quoted _ printable_quoted others⟩

end Flowscript.Markup
