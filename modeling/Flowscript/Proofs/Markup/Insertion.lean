import Flowscript.Proofs.Markup.Cut
import Flowscript.Proofs.Markup.Nesting

/-!
# Comments inside texts

A comment is passed over, but it ends the text before it. `Ends` says that a document, from here on, is read
to its end and gives an element, wherever it stands. The document around a place is read in the same way with
and without a comment there (`Trace.reaches`), and two builders that agree on what is open take the same
events (`Simulation.ends`). So what becomes of the comment is decided where the text is taken in
(`Builder.Absorbs.split`): the blanks around the comment are lost if there are words on both sides of it.
`comment_unnoticed_iff` says that nothing else changes.
-/

namespace Flowscript

/-- The second element is the first, with a part of the text of one element in it taken out. -/
inductive Element.Loses (part : List Char) : Element → Element → Prop where
  | text (e : Element) (before behind : List Char) :
      Loses part { e with text := some (String.ofList (before ++ (part ++ behind))) }
        { e with text := some (String.ofList (before ++ behind)) }
  | child (e : Element) (first last : List Element) {child child' : Element} :
      Loses part child child' →
      Loses part { e with children := first ++ child :: last } { e with children := first ++ child' :: last }

namespace Element.Loses

variable {part : List Char} {e e' : Element}

/-- What is lost is never part of a name. -/
lemma name_eq (h : e.Loses part e') : e'.name = e.name := by
  cases h <;> rfl

/-- A part that is lost stays lost when more text is added. -/
lemma addText (h : e.Loses part e') (value : List Char) :
    (Markup.addText value e).Loses part (Markup.addText value e') := by
  cases h with
  | text e before behind =>
    have more : Loses part _ _ := .text e before (behind ++ value)
    simpa only [Markup.addText, Option.getD_some, ← String.ofList_append, List.append_assoc] using more
  | child e first last inner => exact .child (Markup.addText value e) first last inner

/-- A part that is lost stays lost when CDATA is added. -/
lemma addCdata (h : e.Loses part e') (value : List Char) :
    (Markup.addCdata value e).Loses part (Markup.addCdata value e') := by
  cases h with
  | text e before behind => exact .text (Markup.addCdata value e) before behind
  | child e first last inner => exact .child (Markup.addCdata value e) first last inner

/-- A part that is lost stays lost when a child is added. -/
lemma withChild (h : e.Loses part e') (x : Element) :
    (e.withChild x).Loses part (e'.withChild x) := by
  cases h with
  | text e before behind => exact .text (e.withChild x) before behind
  | child e first last inner =>
    have more := Loses.child e first (last ++ [x]) inner
    simpa only [Element.withChild, List.append_assoc, List.cons_append] using more

/-- Taking out a part that is not empty makes another element. -/
lemma ne (h : e.Loses part e') (nonempty : part ≠ []) : e' ≠ e := by
  induction h with
  | text e before behind =>
    intro same
    have texts := congrArg Element.text same
    simp only [Option.some.injEq, String.ofList_inj, List.append_cancel_left_eq] at texts
    exact nonempty (List.self_eq_append_left.1 texts)
  | child e first last inner ih =>
    intro same
    have children := congrArg Element.children same
    simp only [List.append_cancel_left_eq, List.cons.injEq, and_true] at children
    exact ih children

end Element.Loses

namespace Markup

variable {b b' c c' : Builder} {s s' : Cursor} {e e' : Element} {event : Event} {p q : Stage}
  {opened opened' : List String} {rest rest' left right part : List Char} {source : String}
  {events : List Event}

/-! ## Runs to the end -/

/-- At the end of the document, the builder is asked for its root. -/
lemma run_of_next_none (h : s.next = .ok none) : b.run s = b.finish := by
  rw [Builder.run]
  split
  · next eq =>
    rw [h] at eq
    cases eq
  · rfl
  · next eq =>
    rw [h] at eq
    cases eq

/-- There is no event in blanks alone. -/
lemma next_of_blank (h : Blank rest) (offset : Nat) (opened : List String) :
    Cursor.next { offset, opened, rest } = .ok none := by
  have none := next_blanks h offset opened []
  rw [List.append_nil] at none
  exact none

/-- Where there is no event, there are only blanks. -/
lemma blank_of_next (h : s.next = .ok none) : Blank s.rest := by
  obtain ⟨blanks, rest, offset, space, -, whole, next⟩ := exists_next_eq s
  rw [next, Cursor.readEvent.eq_def] at h
  split at h
  · next nil =>
    obtain rfl : rest = [] := nil
    rw [whole, List.append_nil]
    exact space
  · next body _ =>
    cases read : Cursor.readMarkup { offset, opened := s.opened, rest } body with
    | error f => simp [read, Except.map] at h
    | ok x => simp [read, Except.map] at h
  · cases h

/-- A run depends on its cursor only by the events that it still gives. -/
lemma run_congr (h : s.next = s'.next) : b.run s = b.run s' := by
  cases next : s'.next with
  | error error => rw [run_of_next_error (h.trans next), run_of_next_error next]
  | ok found =>
    cases found with
    | none => rw [run_of_next_none (h.trans next), run_of_next_none next]
    | some x => rw [run_of_next (h.trans next), run_of_next next]

/-- From this stage on, the document is read to its end and gives this element, wherever it stands. -/
def Ends (p : Stage) (e : Element) : Prop :=
  ∀ offset, p.builder.run { offset, opened := p.opened, rest := p.rest } = .ok e

/-- If a document is read to its end from one place, then from any. -/
lemma ends_of_run (h : b.run s = .ok e) : Ends ⟨b, s.opened, s.rest⟩ e := by
  intro offset
  fun_induction Builder.run b s generalizing offset with
  | case1 => cases h
  | case2 b s next =>
    rw [run_of_next_none (next_of_blank (blank_of_next next) offset s.opened)]
    exact h
  | case3 => cases h
  | case4 b s event s' next b' accept ih =>
    -- The same event comes next at the other offset, and the builder takes it there as well.
    obtain ⟨-, u, -, whole, again⟩ := next_found next
    obtain ⟨offset', next'⟩ := again s'.rest id offset
    rw [← whole] at next'
    rw [run_of_next next', accept_eq_ok.2 (accept_eq_ok.1 accept)]
    exact ih h offset'

/-- A stage ends like any stage that is reached from it. -/
lemma Reaches.ends_iff (h : Reaches p q) : Ends p e ↔ Ends q e := by
  obtain ⟨offset, steps⟩ := h 0
  have same := run_eq_of_steps steps
  constructor
  · intro ends
    exact ends_of_run (same.symm.trans (ends 0))
  · intro ends
    exact ends_of_run (same.trans (ends offset))

/-- A stage ends like the one behind its next event, if the builder takes the event. -/
lemma Yields.ends_iff (h : Yields opened rest event opened' rest') :
    Ends ⟨b, opened, rest⟩ e ↔ ∃ b', b.Takes event b' ∧ Ends ⟨b', opened', rest'⟩ e := by
  obtain ⟨offset, next⟩ := h 0
  constructor
  · intro ends
    have run := ends 0
    rw [run_of_next next] at run
    cases accept : b.accept offset event with
    | error error =>
      rw [accept] at run
      cases run
    | ok b' =>
      rw [accept] at run
      exact ⟨b', accept_eq_ok.1 accept, ends_of_run run⟩
  · rintro ⟨b', takes, ends⟩
    refine (Reaches.single h fun _ => accept_eq_ok.2 takes).ends_iff.2 ends

/-- Blanks make no difference. -/
lemma ends_blanks (h : Blank left) : Ends ⟨b, opened, left ++ rest⟩ e ↔ Ends ⟨b, opened, rest⟩ e := by
  have same := run_congr (b := b) (next_blanks h 0 opened rest)
  constructor
  · intro ends
    exact ends_of_run (same.symm.trans (ends 0))
  · intro ends
    exact ends_of_run (same.trans (ends _))

/-! ## Texts and comments -/

/-- What the builder makes of the text between two pieces of markup. -/
inductive Builder.Absorbs (b : Builder) (cs : List Char) : Builder → Prop where
  | blank : Blank cs → Absorbs b cs b
  | words {value : List Char} :
      ¬ Blank cs →
      Unescaped (trimmed cs) value →
      Absorbs b cs (b.modifyTop (addText value))

/-- Text up to the next markup goes into the builder. -/
lemma ends_text (plain : '<' ∉ left) (markup : AtMarkup rest) :
    Ends ⟨b, opened, left ++ rest⟩ e ↔ ∃ b', b.Absorbs left b' ∧ Ends ⟨b', opened, rest⟩ e := by
  by_cases blank : Blank left
  · rw [ends_blanks blank]
    constructor
    · exact fun ends => ⟨b, .blank blank, ends⟩
    · rintro ⟨b', absorbs, ends⟩
      cases absorbs with
      | blank => exact ends
      | words words => exact absurd blank words
  · have ne : left.dropWhile Text.isSpace ≠ [] := fun nil => blank (List.dropWhile_eq_nil_iff.1 nil)
    have yields : Yields opened _ _ opened rest := yields_words (blank_takeWhile left) ne
      (head?_dropWhile Text.isSpace left) (fun mem => plain ((List.dropWhile_sublist _).mem mem)) markup
    rw [← List.append_assoc, List.takeWhile_append_dropWhile] at yields
    rw [yields.ends_iff]
    constructor
    · rintro ⟨b', takes, ends⟩
      cases takes with
      | text found => exact ⟨_, .words blank found, ends⟩
    · rintro ⟨b', absorbs, ends⟩
      cases absorbs with
      | blank h => exact absurd h blank
      | words _ found => exact ⟨_, .text found, ends⟩

/-- A comment. -/
def comment (inside : List Char) : List Char :=
  ['<', '!', '-', '-'] ++ (inside ++ ['-', '-', '>'])

/-- Without two dashes in a row, there is no end of a comment. -/
lemma cutAt_dashes {inside : List Char} (h : ¬ ['-', '-'] <:+: inside) :
    Text.cutAt ['-', '-', '>'] inside = none := by
  cases cut : Text.cutAt ['-', '-', '>'] inside with
  | none => rfl
  | some found => exact absurd ⟨found.1, '>' :: found.2, by rw [cutAt_eq_some cut]; simp⟩ h

/-- A comment without two dashes inside is one event, which changes nothing. -/
lemma yields_comment {inside : List Char} (h : ¬ ['-', '-'] <:+: inside) (opened : List String)
    (t : List Char) : Yields opened (comment inside ++ t) .skipped opened t := by
  intro offset
  have cut := cutAt_append (by decide) (cutAt_dashes h) t
  have whole : comment inside ++ t = '<' :: '!' :: '-' :: '-' :: (inside ++ (['-', '-', '>'] ++ t)) := by
    simp [comment]
  rw [whole, next_markup, Cursor.readMarkup, Cursor.readComment, cut]
  exact ⟨_, rfl⟩

/-- A comment makes no difference where markup may stand. -/
lemma ends_comment {inside : List Char} (h : ¬ ['-', '-'] <:+: inside) :
    Ends ⟨b, opened, comment inside ++ rest⟩ e ↔ Ends ⟨b, opened, rest⟩ e := by
  rw [(yields_comment h opened rest).ends_iff]
  constructor
  · rintro ⟨b', takes, ends⟩
    cases takes
    exact ends
  · exact fun ends => ⟨b, .skipped b, ends⟩

/-- Two texts that are added one after the other are one text. -/
lemma modifyTop_addText (b : Builder) (v w : List Char) :
    (b.modifyTop (addText v)).modifyTop (addText w) = b.modifyTop (addText (v ++ w)) := by
  obtain ⟨stack, root⟩ := b
  cases stack with
  | nil => rfl
  | cons top stack => simp [Builder.modifyTop, addText, String.ofList_append, String.append_assoc]

/-- A text that is cut between references is taken in with the blanks at the cut missing. -/
lemma Builder.Absorbs.split (h : b.Absorbs (left ++ right) b') (whole : Whole left) :
    ∃ b₁ b₂, b.Absorbs left b₁ ∧ b₁.Absorbs right b₂ ∧
      (gap left right = [] ∧ b₂ = b' ∨
        ∃ v w, b' = b.modifyTop (addText (v ++ (gap left right ++ w))) ∧
          b₂ = b.modifyTop (addText (v ++ w))) := by
  cases h with
  | blank blank =>
    obtain ⟨hl, hr⟩ := blank_append.1 blank
    exact ⟨b, b, .blank hl, .blank hr, .inl ⟨if_pos (.inl hl), rfl⟩⟩
  | @words value words found =>
    by_cases hl : Blank left
    · have hr : ¬ Blank right := fun hr => words (blank_append.2 ⟨hl, hr⟩)
      rw [trimmed_blank_append hl] at found
      exact ⟨b, _, .blank hl, .words hr found, .inl ⟨if_pos (.inl hl), rfl⟩⟩
    · by_cases hr : Blank right
      · rw [trimmed_append_blank hr] at found
        exact ⟨_, _, .words hl found, .blank hr, .inl ⟨if_pos (.inr hr), rfl⟩⟩
      · -- The text is two words with the gap between them, and all three parts keep their references.
        rw [trimmed_append hl hr] at found
        obtain ⟨v, behind, rfl, hv, found⟩ := found.of_append (whole.trimmed hl)
        have blanks : '&' ∉ gap left right := fun mem => absurd (blank_gap left right _ mem) (by decide)
        obtain ⟨g, w, rfl, hg, hw⟩ := found.of_append (whole_of_plain blanks)
        rw [hg.unique (unescaped_self blanks)]
        exact ⟨_, _, .words hl hv, .words hr hw, .inr ⟨v, w, rfl, modifyTop_addText b v w⟩⟩

/-! ## Builders that take the same events -/

/-- Related builders take the same events to related builders, and end in related elements. -/
structure Simulation (R : Builder → Builder → Prop) (Q : Element → Element → Prop) : Prop where
  takes : ∀ {b c event b'}, R b c → b.Takes event b' → ∃ c', c.Takes event c' ∧ R b' c'
  finish : ∀ {b c e}, R b c → b.finish = .ok e → ∃ e', c.finish = .ok e' ∧ Q e e'

/-- A run from a related builder succeeds as well, with a related element. -/
lemma Simulation.run {R : Builder → Builder → Prop} {Q : Element → Element → Prop} (sim : Simulation R Q)
    (related : R b c) (h : b.run s = .ok e) : ∃ e', c.run s = .ok e' ∧ Q e e' := by
  fun_induction Builder.run b s generalizing c with
  | case1 => cases h
  | case2 b s next =>
    rw [run_of_next_none next]
    exact sim.finish related h
  | case3 => cases h
  | case4 b s event s' next b' accept ih =>
    obtain ⟨c', takes, related'⟩ := sim.takes related (accept_eq_ok.1 accept)
    rw [run_of_next next, accept_eq_ok.2 takes]
    exact ih related' h

/-- A stage with a related builder ends as well, with a related element. -/
lemma Simulation.ends {R : Builder → Builder → Prop} {Q : Element → Element → Prop} (sim : Simulation R Q)
    (related : R b c) (h : Ends ⟨b, opened, rest⟩ e) : ∃ e', Ends ⟨c, opened, rest⟩ e' ∧ Q e e' := by
  obtain ⟨e', run, hQ⟩ := sim.run related (h 0)
  exact ⟨e', ends_of_run run, hQ⟩

/-- A run ends in an element if nothing is open and the element is the root. -/
lemma finish_eq_ok : b.finish = .ok e ↔ b = ⟨[], some e⟩ := by
  obtain ⟨stack, root⟩ := b
  cases stack with
  | cons x stack => simp [Builder.finish]
  | nil => cases root <;> simp [Builder.finish]

/-- An end tag with the name of the innermost open element closes it. -/
lemma takes_stop {x : Element} {name : String} (h : x.name = name) (stack : List Element)
    (root : Option Element) :
    Builder.Takes ⟨x :: stack, root⟩ (.stop name) (Builder.attach ⟨stack, root⟩ x) :=
  h ▸ .stop x stack root

/-- The root is found and the same names are open: what follows is dropped. -/
structure Settled (b c : Builder) : Prop where
  found : b.root ≠ none
  root : c.root = b.root
  names : c.names = b.names

/-- A root that was found stays the root when an element is complete. -/
lemma root_attach (found : b.root ≠ none) (e : Element) : (b.attach e).root = b.root := by
  obtain ⟨stack, root⟩ := b
  cases stack with
  | cons parent outer => rfl
  | nil =>
    cases root with
    | none => exact absurd rfl found
    | some r => rfl

/-- A change to an open element does not touch the root. -/
lemma root_modifyTop (f : Element → Element) (b : Builder) : (b.modifyTop f).root = b.root := by
  obtain ⟨stack, root⟩ := b
  cases stack <;> rfl

/-- Builders with one root stay settled when elements are complete, whatever these are. -/
lemma Settled.attach (h : Settled b c) (e e' : Element) : Settled (b.attach e) (c.attach e') := by
  have same := root_attach h.found e
  have same' := root_attach (h.root ▸ h.found) e'
  refine ⟨same ▸ h.found, ?_, ?_⟩
  · rw [same, same', h.root]
  · rw [names_attach, names_attach, h.names]

/-- They stay settled when open elements change, if these keep their names. -/
lemma Settled.modifyTop (h : Settled b c) {f g : Element → Element} (hf : ∀ e, (f e).name = e.name)
    (hg : ∀ e, (g e).name = e.name) : Settled (b.modifyTop f) (c.modifyTop g) := by
  refine ⟨?_, ?_, ?_⟩
  · rw [root_modifyTop]
    exact h.found
  · rw [root_modifyTop, root_modifyTop, h.root]
  · rw [names_modifyTop hf, names_modifyTop hg, h.names]

/-- So builders that have their root already end in the same element. -/
lemma settled_simulation : Simulation Settled (fun e e' => e' = e) where
  takes {b c event b'} h takes := by
    cases takes with
    | start made =>
      refine ⟨_, .start made, h.found, h.root, ?_⟩
      exact congrArg (_ :: ·) h.names
    | empty made => exact ⟨_, .empty made, h.attach _ _⟩
    | stop e stack root =>
      obtain ⟨stack', root'⟩ := c
      obtain ⟨e', stack', rfl, same, names⟩ := List.map_eq_cons_iff.1 h.names
      have outer : Settled ⟨stack, root⟩ ⟨stack', root'⟩ := ⟨h.found, h.root, names⟩
      exact ⟨_, takes_stop same stack' root', outer.attach e e'⟩
    | text found => exact ⟨_, .text found, h.modifyTop (fun _ => rfl) fun _ => rfl⟩
    | cdata => exact ⟨_, .cdata .., h.modifyTop (fun _ => rfl) fun _ => rfl⟩
    | skipped => exact ⟨c, .skipped c, h⟩
  finish {b c e} h done := by
    rw [finish_eq_ok] at done
    subst done
    obtain ⟨stack, root⟩ := c
    obtain rfl : stack = [] := List.map_eq_nil_iff.1 h.names
    obtain rfl : root = some e := h.root
    exact ⟨e, rfl, rfl⟩

/-- A part of a text is taken out in an open element, or in the root. -/
inductive Builder.Loses (part : List Char) : Builder → Builder → Prop where
  | opened (inner : List Element) {e e' : Element} (outer : List Element) :
      e.Loses part e' →
      Loses part ⟨inner ++ e :: outer, none⟩ ⟨inner ++ e' :: outer, none⟩
  | root (stack : List Element) {e e' : Element} :
      e.Loses part e' →
      Loses part ⟨stack, some e⟩ ⟨stack, some e'⟩

/-- What one builder lost stays lost when both change their innermost element in the same way. -/
lemma Builder.Loses.modifyTop (h : b.Loses part c) {f : Element → Element}
    (keeps : ∀ {e e'}, Element.Loses part e e' → Element.Loses part (f e) (f e')) :
    (b.modifyTop f).Loses part (c.modifyTop f) := by
  cases h with
  | opened inner outer lost =>
    cases inner with
    | nil => exact .opened [] outer (keeps lost)
    | cons x inner => exact .opened (f x :: inner) outer lost
  | root stack lost =>
    cases stack with
    | nil => exact .root [] lost
    | cons x stack => exact .root (f x :: stack) lost

/-- What one builder lost stays lost when both complete the same element. -/
lemma Builder.Loses.attach (h : b.Loses part c) (x : Element) : (b.attach x).Loses part (c.attach x) := by
  cases h with
  | opened inner outer lost =>
    cases inner with
    | nil => exact .opened [] outer (lost.withChild x)
    | cons y inner => exact .opened (y.withChild x :: inner) outer lost
  | root stack lost =>
    cases stack with
    | nil => exact .root [] lost
    | cons y stack => exact .root (y.withChild x :: stack) lost

/-- When the element is closed, the loss is in its parent, or in the root. -/
lemma loses_attach (h : e.Loses part e') (outer : List Element) :
    (Builder.attach ⟨outer, none⟩ e).Loses part (Builder.attach ⟨outer, none⟩ e') := by
  cases outer with
  | nil => exact .root [] h
  | cons parent outer => exact .opened [] outer (.child parent parent.children [] h)

/-- So builders that differ by a lost part end in elements that differ by it. -/
lemma loses_simulation (part : List Char) : Simulation (Builder.Loses part) (Element.Loses part) where
  takes {b c event b'} h takes := by
    cases takes with
    | start made =>
      refine ⟨_, .start made, ?_⟩
      cases h with
      | opened inner outer lost => exact .opened (_ :: inner) outer lost
      | root stack lost => exact .root (_ :: stack) lost
    | empty made => exact ⟨_, .empty made, h.attach _⟩
    | stop x stack root =>
      generalize eq : Builder.mk (x :: stack) root = b at h
      cases h with
      | opened inner outer lost =>
        cases inner with
        | nil =>
          cases eq
          exact ⟨_, takes_stop lost.name_eq _ none, loses_attach lost _⟩
        | cons y inner =>
          cases eq
          exact ⟨_, .stop x _ none, (Builder.Loses.opened inner outer lost).attach x⟩
      | root stack lost =>
        cases eq
        exact ⟨_, .stop x _ _, (Builder.Loses.root _ lost).attach x⟩
    | text found => exact ⟨_, .text found, h.modifyTop fun lost => lost.addText _⟩
    | cdata => exact ⟨_, .cdata .., h.modifyTop fun lost => lost.addCdata _⟩
    | skipped => exact ⟨c, .skipped c, h⟩
  finish {b c e} h done := by
    rw [finish_eq_ok] at done
    subst done
    generalize eq : Builder.mk [] (some e) = b at h
    cases h with
    | opened inner outer lost => simp at eq
    | root stack lost =>
      cases eq
      exact ⟨_, rfl, lost⟩

/-! ## Places in a document -/

/-- Whether markup comes next is told by the first character. -/
lemma atMarkup_append (ne : left ≠ []) : AtMarkup (left ++ rest) ↔ AtMarkup left := by
  obtain ⟨c, cs, rfl⟩ := List.exists_cons_of_ne_nil ne
  rfl

/-- What a document was read as so far does not depend on what comes now. -/
lemma Trace.reaches (h : Trace source events b s) : ∃ u,
    dropMark source.toList = u ++ s.rest ∧ (u = [] → s.opened = []) ∧
      ∀ t, (AtMarkup s.rest → AtMarkup t) → Reaches ⟨{}, [], u ++ t⟩ ⟨b, s.opened, t⟩ := by
  induction h with
  | start => exact ⟨[], rfl, fun _ => rfl, fun t _ => .refl _⟩
  | @step events event b b' s s' trace next accept ih =>
    obtain ⟨u, whole, -, reaches⟩ := ih
    obtain ⟨-, v, ne, behind, again⟩ := next_found next
    refine ⟨u ++ v, ?_, fun nil => absurd (List.append_eq_nil_iff.1 nil).2 ne, fun t markup => ?_⟩
    · rw [whole, behind, List.append_assoc]
    · have first : AtMarkup s.rest → AtMarkup (v ++ t) := by
        rw [behind, atMarkup_append ne, atMarkup_append ne]
        exact id
      rw [List.append_assoc]
      refine (reaches (v ++ t) first).trans (.single (again t markup) fun _ => ?_)
      exact accept_eq_ok.2 (accept_eq_ok.1 accept)

/-- A byte order mark is dropped from the front, whatever comes behind. -/
lemma dropMark_append (ne : left ≠ []) (t : List Char) : dropMark (left ++ t) = dropMark left ++ t := by
  obtain ⟨c, cs, rfl⟩ := List.exists_cons_of_ne_nil ne
  by_cases mark : c = '\ufeff'
  · subst mark
    rfl
  · have keep (ds : List Char) : dropMark (c :: ds) = c :: ds := by
      rw [dropMark]
      exact fun es eq => mark (List.cons.inj eq).1
    rw [List.cons_append, keep, keep, List.cons_append]

/-- Without the mark, a document is not longer. -/
lemma length_dropMark (cs : List Char) : (dropMark cs).length ≤ cs.length := by
  rw [dropMark.eq_def]
  split
  · exact Nat.le_succ _
  · exact Nat.le_refl _

/-- A document is read as an element if the stage at its start ends in it. -/
lemma parse_eq_ok : parse source = .ok e ↔ Ends ⟨{}, [], dropMark source.toList⟩ e :=
  ⟨ends_of_run, fun h => h 0⟩

/-- A place in the text of an element: these characters come before it, and the text it is in goes from
`left` to `right`. It is not inside a reference. The builder is the one before that text. -/
structure InText (before left right after : List Char) (b : Builder) : Prop where
  reached : ∃ events s, Trace (String.ofList (before ++ (left ++ (right ++ after)))) events b s ∧
    s.opened ≠ [] ∧ s.rest = left ++ (right ++ after)
  plain : '<' ∉ left ++ right
  markup : AtMarkup after
  whole : Whole left

variable {before after inside : List Char}

/-- Around a place in a text, some element is open. -/
lemma InText.stack (place : InText before left right after b) : b.stack ≠ [] := by
  obtain ⟨events, s, trace, inner, -⟩ := place.reached
  intro nil
  apply inner
  rw [← trace.unclosed.2, Builder.names, nil]
  rfl

/-- Reading a document that is the same up to the text ends as reading from the text on does. -/
lemma InText.parse_iff (place : InText before left right after b) {t : List Char}
    (h : AtMarkup (left ++ (right ++ after)) → AtMarkup t) :
    parse (String.ofList (before ++ t)) = .ok e ↔ Ends ⟨b, b.names, t⟩ e := by
  obtain ⟨events, s, trace, inner, behind⟩ := place.reached
  obtain ⟨u, whole, start, reaches⟩ := trace.reaches
  rw [behind, String.toList_ofList] at whole
  rw [behind, ← trace.unclosed.2] at reaches
  have ne : before ≠ [] := by
    rintro rfl
    have short := length_dropMark (left ++ (right ++ after))
    rw [List.nil_append] at whole
    rw [whole, List.length_append] at short
    exact inner (start (List.length_eq_zero_iff.1 (by omega)))
  rw [dropMark_append ne, List.append_cancel_right_eq] at whole
  rw [parse_eq_ok, String.toList_ofList, dropMark_append ne, whole]
  exact (reaches t h).ends_iff

/-- The text on both sides of a comment is taken in apart. -/
lemma InText.parse_comment (place : InText before left right after b) (closed : ¬ ['-', '-'] <:+: inside)
    {b₁ b₂ : Builder} (hl : b.Absorbs left b₁) (hr : b₁.Absorbs right b₂) (h : Ends ⟨b₂, b.names, after⟩ e) :
    parse (String.ofList (before ++ (left ++ (comment inside ++ (right ++ after))))) = .ok e := by
  obtain ⟨hpl, hpr⟩ := not_or.1 (mt List.mem_append.2 place.plain)
  have atComment : AtMarkup (comment inside ++ (right ++ after)) := fun c hc => (Option.some.inj hc).symm
  have markup : AtMarkup (left ++ (right ++ after)) →
      AtMarkup (left ++ (comment inside ++ (right ++ after))) := by
    cases left with
    | nil => exact fun _ => atComment
    | cons c left => exact id
  rw [place.parse_iff markup, ends_text hpl atComment]
  refine ⟨b₁, hl, ?_⟩
  rw [ends_comment closed, ends_text hpr place.markup]
  exact ⟨b₂, hr, h⟩

/-- Two builders whose innermost texts differ by a part differ by that part alone. -/
lemma loses_words (inner : b.stack ≠ []) (root : b.root = none) (v part w : List Char) :
    (b.modifyTop (addText (v ++ (part ++ w)))).Loses part (b.modifyTop (addText (v ++ w))) := by
  obtain ⟨stack, _⟩ := b
  obtain rfl := root
  obtain ⟨top, outer, rfl⟩ := List.exists_cons_of_ne_nil inner
  have lost : Element.Loses part _ _ := .text top ((top.text.getD "").toList ++ v) w
  simp only [List.append_assoc, String.ofList_append, String.ofList_toList] at lost
  refine .opened [] outer ?_
  simpa only [addText, String.ofList_append, String.append_assoc] using lost

/-- A comment in the text of an element is noticed only where blanks are lost with it: there are words on
both sides of it in the text, and blanks next to it. Then the element that is read is the same but for these
blanks. Behind the root, nothing is noticed at all. -/
theorem comment_unnoticed_iff
    (accepted : parse (String.ofList (before ++ (left ++ (right ++ after)))) = .ok e)
    (place : InText before left right after b) (closed : ¬ ['-', '-'] <:+: inside) :
    ∃ e', parse (String.ofList (before ++ (left ++ (comment inside ++ (right ++ after))))) = .ok e' ∧
      (e' = e ↔ b.root ≠ none ∨ gap left right = []) ∧ (e' ≠ e → e.Loses (gap left right) e') := by
  have read := (place.parse_iff id).1 accepted
  rw [← List.append_assoc, ends_text place.plain place.markup] at read
  obtain ⟨b', absorbs, ends⟩ := read
  obtain ⟨b₁, b₂, hl, hr, cut⟩ := absorbs.split place.whole
  have inserted {e' : Element} := place.parse_comment closed hl hr (e := e')
  by_cases noGap : gap left right = []
  · -- Nothing is lost, so the builder is the same behind the text.
    have same : b₂ = b' := by
      rcases cut with ⟨-, same⟩ | ⟨v, w, rfl, rfl⟩
      · exact same
      · rw [noGap, List.nil_append]
    refine ⟨e, inserted (same ▸ ends), ?_, fun ne => absurd rfl ne⟩
    simp only [noGap, or_true]
  · obtain ⟨v, w, rfl, rfl⟩ := cut.resolve_left fun h => noGap h.1
    -- The gap is lost in an element that becomes part of the root, or in one that is dropped.
    by_cases root : b.root = none
    · have lost := loses_words place.stack root v (gap left right) w
      obtain ⟨e', ends', loses⟩ := (loses_simulation _).ends lost ends
      refine ⟨e', inserted ends', ?_, fun _ => loses⟩
      simp only [root, noGap, or_false, ne_eq, not_true_eq_false, iff_false]
      exact loses.ne noGap
    · have settled : Settled (b.modifyTop (addText (v ++ (gap left right ++ w))))
          (b.modifyTop (addText (v ++ w))) :=
        Settled.modifyTop ⟨root, rfl, rfl⟩ (fun _ => rfl) fun _ => rfl
      obtain ⟨e', ends', same⟩ := settled_simulation.ends settled ends
      refine ⟨e', inserted ends', ?_, fun ne => absurd same ne⟩
      simp only [same, ne_eq, root, not_false_eq_true, true_or]

/-- Behind a reference in an inner element; the comment begins and ends with a dash. -/
theorem comment_unnoticed_iff_spaced : ∃ b e e',
    InText "<r>k<a>".toList "x &amp; ".toList "y".toList "</a></r>".toList b ∧
    parse "<r>k<a>x &amp; y</a></r>" = .ok e ∧ parse "<r>k<a>x &amp; <!---> d--->y</a></r>" = .ok e' ∧
    e' ≠ e ∧ e.Loses [' '] e' := by
  have outer : Trace "<r>k<a>x &amp; y</a></r>" [.start ⟨"r", []⟩] ⟨[{ name := "r" }], none⟩
      { offset := 3, opened := ["r"], rest := "k<a>x &amp; y</a></r>".toList } :=
    @Trace.step _ [] _ _ _ _ _ .start (by decide +kernel) (by decide +kernel)
  have text : Trace "<r>k<a>x &amp; y</a></r>" [.start ⟨"r", []⟩, .text ['k']]
      ⟨[{ name := "r", text := some "k" }], none⟩
      { offset := 4, opened := ["r"], rest := "<a>x &amp; y</a></r>".toList } :=
    @Trace.step _ [_] _ _ _ _ _ outer (by decide +kernel) (by decide +kernel)
  have inner : Trace "<r>k<a>x &amp; y</a></r>" [.start ⟨"r", []⟩, .text ['k'], .start ⟨"a", []⟩]
      ⟨[{ name := "a" }, { name := "r", text := some "k" }], none⟩
      { offset := 7, opened := ["a", "r"], rest := "x &amp; y</a></r>".toList } :=
    @Trace.step _ [_, _] _ _ _ _ _ text (by decide +kernel) (by decide +kernel)
  have place : InText "<r>k<a>".toList "x &amp; ".toList "y".toList "</a></r>".toList _ :=
    ⟨⟨_, _, inner, by decide, rfl⟩, by decide, fun c hc => (Option.some.inj hc).symm,
      @whole_of_close "x &amp".toList [' '] (by decide)⟩
  have accepted : parse (String.ofList
        ("<r>k<a>".toList ++ ("x &amp; ".toList ++ ("y".toList ++ "</a></r>".toList)))) =
      .ok { name := "r", text := some "k", children := [{ name := "a", text := some "x & y" }] } := by
    decide +kernel
  have closed : ¬ ['-', '-'] <:+: "-> d-".toList := by decide
  obtain ⟨e', parsed, unnoticed, loses⟩ := comment_unnoticed_iff accepted place closed
  have ne := mt unnoticed.1 (by decide)
  exact ⟨_, _, e', place, accepted, parsed, ne, loses ne⟩

/-- A comment between two words changes the text, although it does not belong to it. -/
theorem comment_drops_blank :
    InText "<a>".toList "x ".toList "y".toList "</a>".toList ⟨[{ name := "a" }], none⟩ ∧
    parse "<a>x y</a>" = .ok { name := "a", text := some "x y" } ∧
    parse "<a>x <!--c-->y</a>" = .ok { name := "a", text := some "xy" } := by
  have first : Trace "<a>x y</a>" [.start ⟨"a", []⟩] ⟨[{ name := "a" }], none⟩
      { offset := 3, opened := ["a"], rest := "x y</a>".toList } :=
    @Trace.step _ [] _ _ _ _ _ .start (by decide +kernel) (by decide +kernel)
  refine ⟨?_, by decide +kernel, by decide +kernel⟩
  exact ⟨⟨_, _, first, by decide, rfl⟩, by decide, fun c hc => (Option.some.inj hc).symm,
    whole_of_plain (by decide)⟩

end Markup

end Flowscript
