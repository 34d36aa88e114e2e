import Flowscript.Proofs.Markup.Reading
import Mathlib.Data.List.Basic

/-!
# Open tags

While a document is read, two stacks tell what is open: the cursor has names and refuses end tags by them,
and the builder has elements and puts what is complete into them. Both follow the events in the same way
(`next_found`, `Builder.Takes.leaves`), so behind any events of a document both have the names of the tags
that were opened and not closed (`Trace.unclosed`). An end tag that the cursor lets through therefore closes
the innermost element of the builder, and the builder never refuses one (`tags_never_mismatched`).
-/

namespace Flowscript.Markup

/-- Tags with these names were opened by the events and not closed, innermost first. -/
inductive Unclosed : List Event → List String → Prop where
  | nil : Unclosed [] []
  | concat {events : List Event} {event : Event} {opened opened' : List String} :
      Unclosed events opened →
      event.Leaves opened opened' →
      Unclosed (events ++ [event]) opened'

/-- The names of the elements that are open, innermost first. -/
def Builder.names (b : Builder) : List String :=
  b.stack.map Element.name

/-- Reading the source has brought these events, and led to this builder and this cursor. -/
inductive Trace (source : String) : List Event → Builder → Cursor → Prop where
  | start : Trace source [] {} { rest := dropMark source.toList }
  | step {events : List Event} {event : Event} {b b' : Builder} {s s' : Cursor} :
      Trace source events b s →
      s.next = .ok (some (event, s')) →
      b.accept s'.offset event = .ok b' →
      Trace source (events ++ [event]) b' s'

variable {source : String} {events : List Event} {event : Event} {b b' : Builder} {s s' : Cursor}
  {opened : List String} {position : Nat} {error : Error}

/-- A complete element leaves the same elements open. -/
lemma names_attach (b : Builder) (e : Element) : (b.attach e).names = b.names := by
  obtain ⟨stack, root⟩ := b
  cases stack with
  | nil => rfl
  | cons parent stack => rfl

/-- A change that keeps names leaves the same names open. -/
lemma names_modifyTop {f : Element → Element} (h : ∀ e, (f e).name = e.name) (b : Builder) :
    (b.modifyTop f).names = b.names := by
  obtain ⟨stack, root⟩ := b
  cases stack with
  | nil => rfl
  | cons top stack => exact congrArg (· :: stack.map Element.name) (h top)

/-- The builder has the elements open that the event leaves open. -/
lemma Builder.Takes.leaves (h : b.Takes event b') : event.Leaves b.names b'.names := by
  cases h with
  | @start _ tag e found =>
    obtain ⟨attributes, rfl⟩ := element_eq_ok found
    exact .start tag b.names
  | @empty _ tag e found =>
    rw [names_attach]
    exact .empty tag b.names
  | stop e stack root =>
    rw [names_attach]
    exact .stop e.name _
  | @text _ raw value found =>
    rw [names_modifyTop (f := addText value) fun _ => rfl]
    exact .text raw b.names
  | cdata _ value =>
    rw [names_modifyTop (f := addCdata value) fun _ => rfl]
    exact .cdata value b.names
  | skipped => exact .skipped b.names

/-- If the cursor and the builder agree on what is open, they do so behind the next event. -/
lemma names_step (same : b.names = s.opened) (next : s.next = .ok (some (event, s')))
    (accept : b.accept position event = .ok b') : b'.names = s'.opened := by
  have leaves := (accept_eq_ok.1 accept).leaves
  rw [same] at leaves
  exact leaves.unique (next_found next).1

/-- Behind the events of a document, both stacks have the names of the unclosed tags. -/
lemma Trace.unclosed (h : Trace source events b s) : Unclosed events s.opened ∧ b.names = s.opened := by
  induction h with
  | start => exact ⟨.nil, rfl⟩
  | step trace next accept ih =>
    obtain ⟨unclosed, same⟩ := ih
    exact ⟨.concat unclosed (next_found next).1, names_step same next accept⟩

/-- The element that an end tag closes. -/
lemma exists_innermost {name : String} (same : b.names = s.opened)
    (next : s.next = .ok (some (.stop name, s'))) : ∃ e outer, b.stack = e :: outer ∧ e.name = name := by
  obtain ⟨leaves, -⟩ := next_found next
  generalize s.opened = opened at same leaves
  cases leaves
  obtain ⟨e, outer, stack, named, -⟩ := List.map_eq_cons_iff.1 same
  exact ⟨e, outer, stack, named⟩

/-! ## Errors -/

/-- The error is not about the end tag of another element. -/
def Error.NotMismatched (error : Error) : Prop :=
  ∀ expected found, error ≠ .mismatchedTag expected found

/-- A fault in the markup is no error of that kind. -/
lemma notMismatched_malformed (position : Nat) (fault : Fault) :
    (Error.malformed position fault).NotMismatched := by
  intro expected found same
  cases same

/-- Nor is any fault of a reading function that is located in the document. -/
lemma located_error {α : Type} {r : Except Fault α} (h : r.mapError (.malformed position) = .error error) :
    error.NotMismatched := by
  cases r with
  | ok a => cases h
  | error fault =>
    cases h
    exact notMismatched_malformed _ _

/-- Nor is one of a step that succeeds or has a fault of its own. -/
lemma located_bind_error {α β : Type} {r : Except Fault α} {f : α → β}
    (h : (r.mapError (.malformed position) >>= fun a => pure (f a)) = .error error) :
    error.NotMismatched := by
  cases r with
  | ok a => cases h
  | error fault =>
    cases h
    exact notMismatched_malformed _ _

/-- A document type has no end tag to be refused. -/
lemma readDoctype_error {body : List Char} (h : s.readDoctype body = .error error) :
    error.NotMismatched := by
  rw [Cursor.readDoctype] at h
  split at h
  · cases h
    exact notMismatched_malformed _ _
  · split at h
    · cases h
      exact notMismatched_malformed _ _
    · split at h
      · cases h
        exact notMismatched_malformed _ _
      · cases h

/-- What the cursor refuses is never reported as the end tag of another element. -/
lemma readMarkup_error {body : List Char} (h : s.readMarkup body = .error error) :
    error.NotMismatched := by
  rw [Cursor.readMarkup.eq_def] at h
  simp only at h
  split at h
  · cases h
    exact notMismatched_malformed _ _
  · exact located_error h
  · exact located_error h
  · exact readDoctype_error h
  · exact readDoctype_error h
  · cases h
    exact notMismatched_malformed _ _
  · exact located_error h
  · exact located_error h
  · exact located_error h

/-- The cursor reports end tags of other elements as faults in the markup. -/
lemma next_error (h : s.next = .error error) : error.NotMismatched := by
  rw [Cursor.next, Cursor.readEvent.eq_def] at h
  split at h
  · cases h
  · next body _ =>
    cases read : s.skipSpace.readMarkup body with
    | ok x => simp [read, Except.map] at h
    | error e =>
      simp only [read, Except.map, Except.error.injEq] at h
      exact h ▸ readMarkup_error read
  · cases h

/-- The builder refuses no event that leaves tags open in the way of its elements. -/
lemma accept_error (leaves : event.Leaves b.names opened) (h : b.accept position event = .error error) :
    error.NotMismatched := by
  cases event with
  | start tag => exact located_bind_error h
  | empty tag => exact located_bind_error h
  | stop name =>
    obtain ⟨stack, root⟩ := b
    generalize same : Builder.names ⟨stack, root⟩ = names at leaves
    cases leaves
    obtain ⟨e, outer, rfl, rfl, -⟩ := List.map_eq_cons_iff.1 same
    have closed : Builder.accept ⟨e :: outer, root⟩ position (.stop e.name) = .ok _ := if_pos rfl
    rw [closed] at h
    cases h
  | text value => exact located_bind_error h
  | cdata value => cases h
  | skipped => cases h

/-- At the end of a document, elements may be open or missing, but no tags are compared. -/
lemma finish_error (h : b.finish = .error error) : error.NotMismatched := by
  rw [Builder.finish.eq_def] at h
  split at h
  · cases h
    exact nofun
  · cases h
  · cases h
    exact nofun

/-- Where the cursor and the builder agree on what is open, reading on never ends in an end tag of another
element. -/
lemma run_error (same : b.names = s.opened) (h : b.run s = .error error) : error.NotMismatched := by
  fun_induction Builder.run b s with
  | case1 b s e next =>
    cases h
    exact next_error next
  | case2 b s next => exact finish_error h
  | case3 b s event s' next e accept =>
    cases h
    have leaves := (next_found next).1
    rw [← same] at leaves
    exact accept_error leaves accept
  | case4 b s event s' next b' accept ih => exact ih (names_step same next accept) h

/-- No document is refused for an end tag that the builder cannot place. Whatever events have been read, the
names of the elements on its stack are those of the tags that were opened and not closed, and an end tag
that comes next closes the innermost of these elements. -/
theorem tags_never_mismatched (source : String) :
    (∀ expected found, parse source ≠ .error (.mismatchedTag expected found)) ∧
    ∀ events b s, Trace source events b s →
      Unclosed events (b.stack.map Element.name) ∧ b.stack.map Element.name = s.opened ∧
      ∀ name s', s.next = .ok (some (.stop name, s')) →
        ∃ e outer, b.stack = e :: outer ∧ e.name = name := by
  refine ⟨fun expected found h => run_error rfl h expected found rfl, ?_⟩
  intro events b s trace
  obtain ⟨unclosed, same⟩ := trace.unclosed
  refine ⟨?_, same, fun name s' next => exists_innermost same next⟩
  rw [← same] at unclosed
  exact unclosed

/-- Behind a complete element, one with an empty element inside; its other child is about to be closed. -/
theorem tags_never_mismatched_inner :
    ∃ events b s s', Trace "<a/><c><b/><a></a>" events b s ∧ Unclosed events ["a", "c"] ∧
      s.next = .ok (some (.stop "a", s')) ∧ ∃ e outer, b.stack = e :: outer ∧ e.name = "a" := by
  have first : Trace "<a/><c><b/><a></a>" [.empty ⟨"a", []⟩] ⟨[], some { name := "a" }⟩
      { offset := 4, rest := "<c><b/><a></a>".toList } :=
    @Trace.step _ [] _ _ _ _ _ .start (by decide +kernel) (by decide +kernel)
  have outer : Trace "<a/><c><b/><a></a>" [.empty ⟨"a", []⟩, .start ⟨"c", []⟩]
      ⟨[{ name := "c" }], some { name := "a" }⟩
      { offset := 7, opened := ["c"], rest := "<b/><a></a>".toList } :=
    @Trace.step _ [_] _ _ _ _ _ first (by decide +kernel) (by decide +kernel)
  have child : Trace "<a/><c><b/><a></a>" [.empty ⟨"a", []⟩, .start ⟨"c", []⟩, .empty ⟨"b", []⟩]
      ⟨[{ name := "c", children := [{ name := "b" }] }], some { name := "a" }⟩
      { offset := 11, opened := ["c"], rest := "<a></a>".toList } :=
    @Trace.step _ [_, _] _ _ _ _ _ outer (by decide +kernel) (by decide +kernel)
  have inner : Trace "<a/><c><b/><a></a>"
      [.empty ⟨"a", []⟩, .start ⟨"c", []⟩, .empty ⟨"b", []⟩, .start ⟨"a", []⟩]
      ⟨[{ name := "a" }, { name := "c", children := [{ name := "b" }] }], some { name := "a" }⟩
      { offset := 14, opened := ["a", "c"], rest := "</a>".toList } :=
    @Trace.step _ [_, _, _] _ _ _ _ _ child (by decide +kernel) (by decide +kernel)
  obtain ⟨-, behind⟩ := tags_never_mismatched "<a/><c><b/><a></a>"
  obtain ⟨unclosed, -, closes⟩ := behind _ _ _ inner
  have next : Cursor.next { offset := 14, opened := ["a", "c"], rest := "</a>".toList } =
      .ok (some (.stop "a", { offset := 18, opened := ["c"], rest := [] })) := by decide +kernel
  exact ⟨_, _, _, _, inner, unclosed, next, closes _ _ next⟩

end Flowscript.Markup
