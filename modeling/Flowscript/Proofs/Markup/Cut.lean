import Flowscript.Proofs.Element
import Flowscript.Proofs.Markup.Reading

/-!
# Documents that are cut off

A printed element is a row of pieces: tags, texts and sections of CDATA (`Element.pieces`). The pieces of an
element are nested, and the last of them closes its root (`Nested`, `Printable.nested`). A piece that is
there as a whole is taken into the builder (`Nested.step`), and so are all pieces before a cut
(`Nested.reaches`). Behind them, something is still open, and a piece that is cut itself is refused
(`Nested.cut`): what a reader has found in a text stays when the text goes on (`Lasting`), so it finds no end
of a tag or a section before the end of the piece. Hence no part of a printed document is taken for a
document (`truncated_refused`).
-/

namespace Flowscript

namespace Markup

/-! ## Pieces -/

/-- A piece of a printed element: a tag, a text, or one section of CDATA. -/
inductive Piece where
  | start (name : String) (attributes : List (String × String))
  | text (value : String)
  | cdata (inside : List Char)
  | stop (name : String)
deriving DecidableEq, Repr

/-- The piece as markup. -/
def Piece.print : Piece → List Char
  | .start name attributes => '<' :: (tagText name attributes ++ ['>'])
  | .text value => escape value
  | .cdata inside => sectionText inside []
  | .stop name => '<' :: '/' :: (name.toList ++ ['>'])

/-- Pieces as markup, one after the other. -/
def printed (ps : List Piece) : List Char :=
  ps.flatMap Piece.print

/-- The names that are open behind a piece, innermost first, if these are open before it. -/
def Piece.behind (opened : List String) : Piece → List String
  | .start name _ => name :: opened
  | .text _ => opened
  | .cdata _ => opened
  | .stop _ => opened.tail

/-- The sections of CDATA: one ends behind the brackets of each end of a section inside. -/
def sections (cs : List Char) : List (List Char) :=
  match _h : Text.cutAt [']', ']', '>'] cs with
  | none => [cs]
  | some (before, after) => (before ++ [']', ']']) :: sections ('>' :: after)
termination_by cs.length
decreasing_by exact cutAt_shorter _h

end Markup

open Markup

mutual

/-- The pieces of a printed element. -/
def Element.pieces : Element → List Piece
  | ⟨name, attributes, text, cdata, children⟩ =>
    .start name attributes :: ((text.map .text).toList ++
      ((cdata.map fun t => (sections t.toList).map .cdata).getD [] ++
        (Element.piecesAll children ++ [.stop name])))

/-- The pieces of elements one after the other. -/
def Element.piecesAll : List Element → List Piece
  | [] => []
  | e :: es => e.pieces ++ Element.piecesAll es

end

namespace Markup

variable {name : String} {attributes : List (String × String)} {opened : List String} {q : Piece}
  {ps qs : List Piece} {b : Builder} {t : List Char}

/-- No pieces are printed as nothing. -/
@[simp]
lemma printed_nil : printed [] = [] :=
  rfl

/-- The first piece is printed in front of the others. -/
@[simp]
lemma printed_cons (q : Piece) (ps : List Piece) : printed (q :: ps) = q.print ++ printed ps :=
  rfl

/-- Pieces are printed one after the other. -/
@[simp]
lemma printed_append (ps qs : List Piece) : printed (ps ++ qs) = printed ps ++ printed qs :=
  List.flatMap_append

/-- The sections of CDATA, printed one after the other, are the CDATA with its ends split. -/
lemma printed_sections (cs : List Char) :
    printed ((sections cs).map .cdata) = sectionText (cdataInside cs) [] := by
  fun_induction sections cs with
  | case1 cs h =>
    rw [cdataInside_of_none h]
    simp [Piece.print]
  | case2 cs before after h ih =>
    rw [List.map_cons, printed_cons, ih, cdataInside_of_some h]
    simp [Piece.print, sectionText]

/-- The text of an element, if there is one, is printed as one piece. -/
lemma printed_text? (text : Option String) :
    printed (text.map Piece.text).toList = (text.map escape).getD [] := by
  cases text with
  | none => rfl
  | some t => exact List.flatMap_singleton Piece.print (.text t)

/-- The CDATA of an element, if there is some, is printed as its sections. -/
lemma printed_cdata? (cdata : Option String) :
    printed ((cdata.map fun t => (sections t.toList).map Piece.cdata).getD []) =
      (cdata.map cdataSection).getD [] := by
  cases cdata with
  | none => rfl
  | some t =>
    have whole := printed_sections t.toList
    rw [sectionText, List.append_nil, ← List.append_assoc] at whole
    exact whole

/-- If the pieces of each element print it, the pieces of all print them all. -/
lemma printed_piecesAll {es : List Element} (h : ∀ e ∈ es, printed e.pieces = e.render) :
    printed (Element.piecesAll es) = Element.renderAll es := by
  induction es with
  | nil => rfl
  | cons e es ih =>
    rw [Element.piecesAll, printed_append, h e List.mem_cons_self,
      ih fun e he => h e (List.mem_cons_of_mem _ he), Element.renderAll]

/-- The pieces of an element make up the printed element. -/
lemma printed_pieces (e : Element) : printed e.pieces = e.render := by
  induction e with
  | mk name attributes text cdata children ih =>
    have whole : Element.render { name, attributes, text, cdata, children } ++ [] = _ :=
      render_append []
    rw [List.append_nil] at whole
    rw [whole, Element.pieces]
    simp [printed_text?, printed_cdata?, printed_piecesAll ih, Piece.print]

/-! ## Nesting -/

/-- With these names open, the pieces close all of them, and the last one at their end. A tag is one that
can be read, and behind a text comes markup. -/
inductive Nested : List String → List Piece → Prop where
  | nil : Nested [] []
  | start {name : String} {attributes : List (String × String)} {opened : List String}
      {ps : List Piece} :
      isWord name = true →
      (∀ a ∈ attributes, isWord a.1 = true) →
      (attributes.map Prod.fst).Nodup →
      Nested (name :: opened) ps →
      Nested opened (.start name attributes :: ps)
  | text {value name : String} {opened : List String} {ps : List Piece} :
      value ≠ "" →
      (printed ps).head? = some '<' →
      Nested (name :: opened) ps →
      Nested (name :: opened) (.text value :: ps)
  | cdata {inside : List Char} {name : String} {opened : List String} {ps : List Piece} :
      Text.cutAt [']', ']', '>'] inside = none →
      Nested (name :: opened) ps →
      Nested (name :: opened) (.cdata inside :: ps)
  | stop {name : String} {opened : List String} {ps : List Piece} :
      isWord name = true →
      (opened = [] → ps = []) →
      Nested opened ps →
      Nested (name :: opened) (.stop name :: ps)

/-- Sections of CDATA may stand before nested pieces while an element is open. -/
lemma Nested.sections (cs : List Char) (rest : Nested (name :: opened) ps) :
    Nested (name :: opened) ((sections cs).map .cdata ++ ps) := by
  fun_induction Markup.sections cs with
  | case1 cs h => exact .cdata h rest
  | case2 cs before after h ih => exact .cdata (cutAt_before h) ih

/-- Elements may stand before nested pieces while an element is open, if each of them may. -/
lemma Nested.all {es : List Element}
    (h : ∀ e ∈ es, ∀ ps, Nested (name :: opened) ps → Nested (name :: opened) (e.pieces ++ ps))
    (rest : Nested (name :: opened) ps) : Nested (name :: opened) (Element.piecesAll es ++ ps) := by
  induction es with
  | nil => exact rest
  | cons e es ih =>
    rw [Element.piecesAll, List.append_assoc]
    exact h e List.mem_cons_self _ (ih fun e he => h e (List.mem_cons_of_mem _ he))

/-- Printed elements are nested, if nothing is printed behind a root. -/
lemma Printable.nested {e : Element} (he : Printable e) (closed : opened = [] → ps = [])
    (rest : Nested opened ps) : Nested opened (e.pieces ++ ps) := by
  induction he generalizing opened ps with
  | @mk name attributes text cdata children hn ha nodup ht hc ih =>
    have content : Nested (name :: opened) (Element.piecesAll children ++ .stop name :: ps) :=
      .all (fun e he ps rest => ih e he nofun rest) (.stop hn closed rest)
    have cdata' : Nested (name :: opened)
        ((cdata.map fun t => (Markup.sections t.toList).map Piece.cdata).getD [] ++
          (Element.piecesAll children ++ .stop name :: ps)) := by
      cases cdata with
      | none => exact content
      | some t => exact .sections t.toList content
    have markup : (printed
        ((cdata.map fun t => (Markup.sections t.toList).map Piece.cdata).getD [] ++
          (Element.piecesAll children ++ .stop name :: ps))).head? = some '<' := by
      rw [printed_append, printed_append, printed_cdata?, printed_piecesAll fun e _ => printed_pieces e]
      exact head?_content cdata children _
    have text' : Nested (name :: opened) ((text.map Piece.text).toList ++
        ((cdata.map fun t => (Markup.sections t.toList).map Piece.cdata).getD [] ++
          (Element.piecesAll children ++ .stop name :: ps))) := by
      cases text with
      | none => exact cdata'
      | some t => exact .text (fun e => ht (e ▸ rfl)) markup cdata'
    have whole : Nested opened (.start name attributes :: _) := .start hn ha nodup text'
    rw [Element.pieces]
    simpa using whole

/-! ## Pieces that are there as a whole -/

/-- The builder has elements with these names open; if there are none, it has no root yet. -/
structure Builder.Holds (b : Builder) (opened : List String) : Prop where
  names : b.stack.map Element.name = opened
  fresh : opened = [] → b.root = none

/-- While an element is open, nothing is asked of the root. -/
lemma Builder.Holds.of_cons (names : b.stack.map Element.name = name :: opened) :
    b.Holds (name :: opened) :=
  ⟨names, fun none => absurd none (List.cons_ne_nil name opened)⟩

/-- A piece in front of others is taken in, and leaves something open. -/
lemma Nested.step (h : Nested opened (q :: ps)) (ne : ps ≠ []) (hb : b.Holds opened)
    (ht : t <+: printed ps) :
    ∃ b' : Builder, b'.Holds (q.behind opened) ∧ q.behind opened ≠ [] ∧ Nested (q.behind opened) ps ∧
      Reaches ⟨b, opened, q.print ++ t⟩ ⟨b', q.behind opened, t⟩ := by
  obtain ⟨stack, root⟩ := b
  obtain ⟨names, -⟩ := hb
  cases h with
  | @start name attributes _ _ hn ha nodup rest =>
    refine ⟨⟨{ name, attributes } :: stack, root⟩, .of_cons (congrArg (name :: ·) names),
      List.cons_ne_nil _ _, rest, ?_⟩
    rw [Piece.print, List.cons_append, List.append_assoc, List.singleton_append]
    exact reaches_start hn ha nodup
  | @text value name outer _ some markup rest =>
    obtain ⟨e, stack, rfl, rfl, rfl⟩ := List.map_eq_cons_iff.1 names
    refine ⟨⟨{ e with text := _ } :: stack, root⟩, .of_cons rfl, List.cons_ne_nil _ _, rest,
      reaches_text some ?_⟩
    -- What is left begins as the pieces behind the text do, or is empty.
    intro c hc
    obtain ⟨cs, rfl⟩ := List.head?_eq_some_iff.1 hc
    obtain ⟨ds, whole⟩ := ht
    rw [← whole] at markup
    exact Option.some.inj markup
  | @cdata inside name outer _ whole rest =>
    obtain ⟨e, stack, rfl, rfl, rfl⟩ := List.map_eq_cons_iff.1 names
    have text : (Piece.cdata inside).print ++ t = sectionText inside t := by
      simp [Piece.print, sectionText]
    rw [text]
    exact ⟨_, .of_cons rfl, List.cons_ne_nil _ _, rest, reaches_section whole⟩
  | @stop name outer _ hn closed rest =>
    obtain ⟨e, stack, rfl, rfl, rfl⟩ := List.map_eq_cons_iff.1 names
    have read : Reaches
        ⟨⟨e :: stack, root⟩, e.name :: stack.map Element.name, (Piece.stop e.name).print ++ t⟩
        ⟨Builder.attach ⟨stack, root⟩ e, stack.map Element.name, t⟩ := by
      rw [Piece.print, List.cons_append, List.cons_append, List.append_assoc, List.singleton_append]
      exact reaches_stop hn rfl
    cases stack with
    | nil => exact absurd (closed rfl) ne
    | cons parent stack => exact ⟨_, .of_cons rfl, List.cons_ne_nil _ _, rest, read⟩

/-- All pieces before others are taken in. -/
lemma Nested.reaches (h : Nested opened (ps ++ qs)) (ne : qs ≠ []) (hb : b.Holds opened)
    (ht : t <+: printed qs) :
    ∃ b' : Builder, b'.Holds (ps.foldl Piece.behind opened) ∧
      (opened ≠ [] ∨ ps ≠ [] → ps.foldl Piece.behind opened ≠ []) ∧
      Nested (ps.foldl Piece.behind opened) qs ∧
      Reaches ⟨b, opened, printed ps ++ t⟩ ⟨b', ps.foldl Piece.behind opened, t⟩ := by
  induction ps generalizing opened b with
  | nil => exact ⟨b, hb, fun some => some.resolve_right (· rfl), h, .refl _⟩
  | cons q ps ih =>
    have begins : printed ps ++ t <+: printed (ps ++ qs) := by
      rw [printed_append]
      exact (List.prefix_append_right_inj _).2 ht
    obtain ⟨b₁, holds₁, open₁, nested₁, first⟩ :=
      h.step (List.append_ne_nil_of_right_ne_nil ps ne) hb begins
    obtain ⟨b₂, holds₂, open₂, nested₂, others⟩ := ih nested₁ holds₁
    refine ⟨b₂, holds₂, fun _ => open₂ (.inl open₁), nested₂, ?_⟩
    rw [printed_cons, List.append_assoc]
    exact first.trans others

/-! ## Pieces that are cut -/

/-- What is found in a text stays when the text goes on. -/
def Lasting (find : List Char → Option (List Char × List Char)) : Prop :=
  ∀ u v before after, find u = some (before, after) → find (u ++ v) = some (before, after ++ v)

/-- What is found at the end of a text is not found before. -/
lemma Lasting.eq_none {find : List Char → Option (List Char × List Char)} {u v before : List Char}
    (h : Lasting find) (whole : find (u ++ v) = some (before, [])) (ne : v ≠ []) : find u = none := by
  cases found : find u with
  | none => rfl
  | some p =>
    obtain ⟨before', after⟩ := p
    have later := h u v before' after found
    rw [whole, Option.some.injEq, Prod.mk.injEq] at later
    exact absurd (List.append_eq_nil_iff.1 later.2.symm).2 ne

/-- The end of a tag stays where it was found. -/
lemma lasting_tagContent (quote : Option Char) : Lasting (tagContent quote) := by
  intro u v before after found
  obtain ⟨rfl, again⟩ := tagContent_eq_some found
  rw [List.append_assoc, List.cons_append]
  exact again (after ++ v)

/-- A mark stays where it was found. -/
lemma lasting_cutAt {mark : List Char} (ne : mark ≠ []) : Lasting (Text.cutAt mark) := by
  intro u v before after found
  rw [cutAt_eq_some found, List.append_assoc, List.append_assoc]
  exact cutAt_again ne found (after ++ v)

variable {u v : List Char}

/-- A start tag that is cut is refused. -/
lemma readMarkup_start_cut (s : Cursor) (hn : isWord name = true)
    (ha : ∀ a ∈ attributes, isWord a.1 = true) (cut : u ++ v = tagText name attributes ++ ['>'])
    (ne : v ≠ []) : ∃ error, s.readMarkup u = .error error := by
  have whole : tagContent none (u ++ v) = some (tagText name attributes, []) :=
    cut ▸ tagContent_printed hn ha []
  have open_ : tagContent none u = none := (lasting_tagContent none).eq_none whole ne
  cases u with
  | nil => exact ⟨_, rfl⟩
  | cons c u =>
    obtain ⟨d, ds, eq, alpha, -⟩ := isWord_eq_true hn
    rw [tagText, eq] at cut
    obtain ⟨rfl, -⟩ := List.cons.inj cut
    rw [readMarkup_letter alpha, Cursor.readStart, open_]
    exact ⟨_, rfl⟩

/-- An end tag that is cut is refused. -/
lemma readMarkup_stop_cut (s : Cursor) (hn : isWord name = true)
    (cut : u ++ v = '/' :: (name.toList ++ ['>'])) (ne : v ≠ []) :
    ∃ error, s.readMarkup u = .error error := by
  cases u with
  | nil => exact ⟨_, rfl⟩
  | cons c u =>
    obtain ⟨slash, behind⟩ : c = '/' ∧ u ++ v = name.toList ++ ['>'] := by simpa using cut
    have text : tagText name [] = name.toList := List.append_nil _
    have whole : tagContent none (u ++ v) = some (name.toList, []) := by
      rw [behind, ← text]
      exact tagContent_printed hn (List.forall_mem_nil _) []
    have open_ : tagContent none u = none := (lasting_tagContent none).eq_none whole ne
    rw [slash, Cursor.readMarkup, Cursor.readEnd, open_]
    exact ⟨_, rfl⟩

/-- A section ends at its own end, if there is none inside. -/
lemma cutAt_section {inside : List Char} (h : Text.cutAt [']', ']', '>'] inside = none) :
    Text.cutAt [']', ']', '>'] ('[' :: 'C' :: 'D' :: 'A' :: 'T' :: 'A' :: '[' ::
      (inside ++ [']', ']', '>'])) = some ('[' :: 'C' :: 'D' :: 'A' :: 'T' :: 'A' :: '[' :: inside, []) := by
  have ends := cutAt_append (by decide) h []
  rw [List.append_nil] at ends
  simp only [cutAt_cons, ne_eq, Char.reduceEq, not_false_eq_true, ends, Option.map_some]

/-- A section that is cut is refused. -/
lemma readMarkup_cdata_cut (s : Cursor) {inside : List Char}
    (h : Text.cutAt [']', ']', '>'] inside = none)
    (cut : '<' :: (u ++ v) = sectionText inside []) (ne : v ≠ []) :
    ∃ error, s.readMarkup u = .error error := by
  cases u with
  | nil => exact ⟨_, rfl⟩
  | cons c u =>
    obtain ⟨bang, behind⟩ : c = '!' ∧ u ++ v =
        '[' :: 'C' :: 'D' :: 'A' :: 'T' :: 'A' :: '[' :: (inside ++ [']', ']', '>']) := by
      simpa [sectionText] using cut
    subst bang
    have whole := cutAt_section h
    rw [← behind] at whole
    have open_ : Text.cutAt [']', ']', '>'] u = none := (lasting_cutAt (by decide)).eq_none whole ne
    cases u with
    | nil => exact ⟨_, rfl⟩
    | cons d u =>
      obtain ⟨bracket, -⟩ := List.cons.inj behind
      subst bracket
      rw [Cursor.readMarkup, Cursor.readCdata, open_]
      exact ⟨_, rfl⟩

/-- A run ends with the first fault that the reader finds. -/
lemma run_of_next_error {s : Cursor} {error : Error} (h : s.next = .error error) :
    b.run s = .error error := by
  rw [Builder.run]
  split
  · next eq =>
    rw [h] at eq
    cases eq
    rfl
  · next eq =>
    rw [h] at eq
    cases eq
  · next eq =>
    rw [h] at eq
    cases eq

/-- With nothing left to read, the builder is asked for its root. -/
lemma run_nil (b : Builder) (offset : Nat) (opened : List String) :
    b.run { offset, opened, rest := [] } = b.finish := by
  rw [Builder.run]
  rfl

/-- A builder with an open element has no root to give. -/
lemma Builder.Holds.finish_eq (hb : b.Holds (name :: opened)) :
    b.finish = .error (.unexpectedEnd name) := by
  obtain ⟨stack, root⟩ := b
  obtain ⟨e, stack, rfl, rfl, -⟩ := List.map_eq_cons_iff.1 hb.names
  rfl

/-- What is open, or missing, at the end of the document is an error. -/
lemma Builder.Holds.finish_error (hb : b.Holds opened) : ∃ error, b.finish = .error error := by
  cases opened with
  | cons name opened => exact ⟨_, hb.finish_eq⟩
  | nil =>
    obtain ⟨stack, root⟩ := b
    obtain rfl := List.map_eq_nil_iff.1 hb.names
    obtain rfl := hb.fresh rfl
    exact ⟨_, rfl⟩

/-- A text that is cut has a reference that is cut, or the document ends in an open element. -/
lemma run_text_cut {cs : List Char} (hb : b.Holds (name :: opened)) (ne : cs ≠ [])
    (plain : ∀ d ∈ cs, d ∉ delimiters) (offset : Nat) :
    ∃ error, b.run { offset, opened := name :: opened, rest := cs } = .error error := by
  have whole : Yields (name :: opened) (cs ++ []) (.text cs) (name :: opened) [] :=
    yields_plain ne plain nofun
  obtain ⟨offset', next⟩ := whole offset
  rw [List.append_nil] at next
  rw [run_of_next next, Builder.accept]
  cases unescape cs with
  | error fault => exact ⟨_, rfl⟩
  | ok value =>
    obtain ⟨stack, root⟩ := b
    obtain ⟨e, stack, rfl, rfl, -⟩ := List.map_eq_cons_iff.1 hb.names
    exact ⟨_, run_nil _ offset' _⟩

/-- Markup that is cut is refused where it begins. -/
lemma run_markup_cut (cut : ∀ s : Cursor, ∃ error, s.readMarkup u = .error error) (offset : Nat) :
    ∃ error, b.run { offset, opened, rest := '<' :: u } = .error error := by
  obtain ⟨error, refused⟩ := cut { offset, opened, rest := '<' :: u }
  refine ⟨error, run_of_next_error ?_⟩
  rw [next_markup, refused]
  rfl

/-- A piece that is cut, or missing, is refused. -/
lemma Nested.cut (h : Nested opened (q :: ps)) (hb : b.Holds opened) (ht : t <+: q.print)
    (ne : t ≠ q.print) (offset : Nat) :
    ∃ error, b.run { offset, opened, rest := t } = .error error := by
  obtain ⟨v, whole⟩ := ht
  have left : v ≠ [] := by
    rintro rfl
    rw [List.append_nil] at whole
    exact ne whole
  cases t with
  | nil =>
    rw [run_nil]
    exact hb.finish_error
  | cons c u =>
    cases h with
    | start hn ha nodup rest =>
      obtain ⟨rfl, behind⟩ := List.cons.inj whole
      exact run_markup_cut (fun s => readMarkup_start_cut s hn ha behind left) offset
    | text some markup rest =>
      refine run_text_cut hb (List.cons_ne_nil c u) ?_ offset
      intro d hd
      have inside : d ∈ escape _ := whole ▸ List.mem_append_left v hd
      exact not_mem_delimiters inside
    | cdata none rest =>
      have bracket : c = '<' := (List.cons.inj whole).1
      subst bracket
      exact run_markup_cut (fun s => readMarkup_cdata_cut s none whole left) offset
    | stop hn closed rest =>
      obtain ⟨rfl, behind⟩ := List.cons.inj whole
      exact run_markup_cut (fun s => readMarkup_stop_cut s hn behind left) offset

/-! ## Documents -/

/-- A cut through pieces goes through one of them, or between it and the one before. -/
lemma exists_cut {p : List Char} (hp : p <+: printed ps) (ne : p ≠ printed ps) :
    ∃ before q after t, ps = before ++ q :: after ∧ p = printed before ++ t ∧ t <+: q.print ∧
      t ≠ q.print := by
  induction ps generalizing p with
  | nil => exact absurd (List.prefix_nil.1 hp) ne
  | cons q ps ih =>
    rw [printed_cons] at hp ne
    by_cases long : q.print <+: p
    · obtain ⟨u, rfl⟩ := long
      have hu : u <+: printed ps := (List.prefix_append_right_inj _).1 hp
      have nu : u ≠ printed ps := fun e => ne (e ▸ rfl)
      obtain ⟨before, r, after, t, rfl, rfl, ht, nt⟩ := ih hu nu
      exact ⟨q :: before, r, after, t, rfl, (List.append_assoc ..).symm, ht, nt⟩
    · have short := (List.prefix_or_prefix_of_prefix hp (List.prefix_append _ _)).resolve_right long
      exact ⟨[], q, ps, p, rfl, rfl, short, fun e => long (e ▸ List.prefix_rfl)⟩

/-- A part of a printed element begins with no byte order mark. -/
lemma parse_eq_run {e : Element} {p : List Char} (hp : p <+: e.render) :
    parse (String.ofList p) = Builder.run {} { rest := p } := by
  rw [parse, String.toList_ofList]
  cases p with
  | nil => rfl
  | cons c p =>
    obtain ⟨cs, whole⟩ := List.head?_eq_some_iff.1 (head?_render e)
    rw [whole] at hp
    obtain ⟨rfl, -⟩ := List.cons_prefix_cons.1 hp
    rfl

/-- A printed document that is cut is read up to the cut. -/
lemma Printable.exists_run {e : Element} (he : Printable e) (hps : e.pieces = ps ++ qs) (ne : qs ≠ [])
    (ht : t <+: printed qs) :
    ∃ b : Builder, b.Holds (ps.foldl Piece.behind []) ∧ (ps ≠ [] → ps.foldl Piece.behind [] ≠ []) ∧
      Nested (ps.foldl Piece.behind []) qs ∧
      ∃ offset, parse (String.ofList (printed ps ++ t)) =
        b.run { offset, opened := ps.foldl Piece.behind [], rest := t } := by
  have nested : Nested [] (e.pieces ++ []) := he.nested (fun _ => rfl) .nil
  rw [List.append_nil, hps] at nested
  have begins : printed ps ++ t <+: e.render := by
    rw [← printed_pieces, hps, printed_append]
    exact (List.prefix_append_right_inj _).2 ht
  have empty : Builder.Holds {} [] := ⟨rfl, fun _ => rfl⟩
  obtain ⟨b, holds, opens, rest, reaches⟩ := nested.reaches ne empty ht
  obtain ⟨offset, steps⟩ := reaches 0
  refine ⟨b, holds, fun some => opens (.inr some), rest, offset, ?_⟩
  rw [parse_eq_run begins]
  exact run_eq_of_steps steps

/-- No part of a printed document is taken for a document. If it ends behind a whole piece of it, a tag, a
text or a section of CDATA, the error names the innermost element that is open there. -/
theorem truncated_refused (e : Element) (he : Printable e) :
    (∀ p, p <+: e.render → p ≠ e.render → ∃ error, parse (String.ofList p) = .error error) ∧
    e.render = printed e.pieces ∧
    ∀ ps qs, e.pieces = ps ++ qs → ps ≠ [] → qs ≠ [] →
      ∃ name outer, ps.foldl Piece.behind [] = name :: outer ∧
        parse (String.ofList (printed ps)) = .error (.unexpectedEnd name) := by
  refine ⟨?_, (printed_pieces e).symm, ?_⟩
  · intro p hp ne
    rw [← printed_pieces] at hp ne
    obtain ⟨before, q, after, t, whole, rfl, ht, cut⟩ := exists_cut hp ne
    have begins : t <+: printed (q :: after) := ht.trans (List.prefix_append _ _)
    obtain ⟨b, holds, -, nested, offset, run⟩ := he.exists_run whole (List.cons_ne_nil q after) begins
    rw [run]
    exact nested.cut holds ht cut offset
  · intro ps qs whole some more
    obtain ⟨b, holds, opens, -, offset, run⟩ := he.exists_run whole more List.nil_prefix
    obtain ⟨name, outer, innermost⟩ := List.exists_cons_of_ne_nil (opens some)
    rw [List.append_nil, run_nil] at run
    rw [innermost] at holds
    exact ⟨name, outer, innermost, run.trans holds.finish_eq⟩

/-- Cut behind the text of the innermost element, and cut inside an attribute of the root. -/
theorem truncated_refused_quoted :
    Printable quoted ∧
    (quoted.pieces.take 11).getLast? = some (.text " ") ∧
    (quoted.pieces.take 11).foldl Piece.behind [] = ["A", "B", "Tool_1"] ∧
    parse (String.ofList (printed (quoted.pieces.take 11))) = .error (.unexpectedEnd "A") ∧
    quoted.render.take 13 = "<Tool_1 x=\"a&".toList ∧
    ∃ error, parse (String.ofList (quoted.render.take 13)) = .error error := by
  obtain ⟨cut, -, ends⟩ := truncated_refused quoted printable_quoted
  have names : (quoted.pieces.take 11).foldl Piece.behind [] = ["A", "B", "Tool_1"] := by
    decide +kernel
  have begins : quoted.render.take 13 <+: quoted.render := List.take_prefix 13 _
  have inside : quoted.render.take 13 ≠ quoted.render := by decide +kernel
  obtain ⟨name, outer, innermost, error⟩ := ends (quoted.pieces.take 11) (quoted.pieces.drop 11)
    (List.take_append_drop 11 _).symm (by decide +kernel) (by decide +kernel)
  rw [names] at innermost
  cases innermost
  exact ⟨printable_quoted, by decide +kernel, names, error, by decide +kernel,
    cut _ begins inside⟩

end Markup

end Flowscript
