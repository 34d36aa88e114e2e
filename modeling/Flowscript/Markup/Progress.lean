import Flowscript.Markup.Event

/-!
# Progress

Every event takes something away from the text that is left (`Cursor.next_length`), so reading a
document ends.
-/

namespace Flowscript.Markup

/-- The `>` is taken away at least. -/
theorem tagContent_length {quote : Option Char} {cs content rest : List Char}
    (h : tagContent quote cs = some (content, rest)) : rest.length < cs.length := by
  induction cs generalizing quote content with
  | nil => simp [tagContent] at h
  | cons c cs ih =>
    unfold tagContent at h
    simp only [List.length_cons]
    split at h
    · obtain ⟨⟨b, r⟩, hr, e⟩ := Option.map_eq_some_iff.1 h
      simp only [Prod.mk.injEq] at e
      have := ih (e.2 ▸ hr)
      omega
    · split at h
      · simp only [Option.some.injEq, Prod.mk.injEq] at h
        simp [h.2]
      · obtain ⟨⟨b, r⟩, hr, e⟩ := Option.map_eq_some_iff.1 h
        simp only [Prod.mk.injEq] at e
        have := ih (e.2 ▸ hr)
        omega

/-- The `>` that closes it is taken away at least. -/
theorem doctypeContent_length {depth : Nat} {cs content rest : List Char}
    (h : doctypeContent depth cs = some (content, rest)) : rest.length < cs.length := by
  induction cs generalizing depth content with
  | nil => simp [doctypeContent] at h
  | cons c cs ih =>
    unfold doctypeContent at h
    simp only [List.length_cons]
    split at h
    · simp only [Option.some.injEq, Prod.mk.injEq] at h
      simp [h.2]
    · obtain ⟨⟨b, r⟩, hr, e⟩ := Option.map_eq_some_iff.1 h
      simp only [Prod.mk.injEq] at e
      have := ih (e.2 ▸ hr)
      omega

namespace Cursor

/-- A section takes its end away. -/
theorem readCdata_length {s s' : Cursor} {body : List Char} {e : Event}
    (h : s.readCdata body = .ok (e, s')) : s'.rest.length < body.length := by
  unfold readCdata at h
  split at h
  · simp at h
  · next hc =>
    split at h
    · simp only [Except.ok.injEq, Prod.mk.injEq] at h
      rw [← h.2]
      exact Text.cutAt_length (by simp) hc
    · simp at h

/-- A comment takes its end away. -/
theorem readComment_length {s s' : Cursor} {body : List Char} {e : Event}
    (h : s.readComment body = .ok (e, s')) : s'.rest.length < body.length := by
  unfold readComment at h
  split at h
  · split at h
    · simp at h
    · next hc =>
      simp only [Except.ok.injEq, Prod.mk.injEq] at h
      have := Text.cutAt_length (by simp) hc
      rw [← h.2]
      simp only [past, List.length_cons]
      omega
  · simp at h

/-- A document type takes its `>` away. -/
theorem readDoctype_length {s s' : Cursor} {body : List Char} {e : Event}
    (h : s.readDoctype body = .ok (e, s')) : s'.rest.length < body.length := by
  unfold readDoctype at h
  split at h
  · simp at h
  · next hc =>
    split at h
    · simp at h
    · split at h
      · simp at h
      · simp only [Except.ok.injEq, Prod.mk.injEq] at h
        rw [← h.2]
        exact doctypeContent_length hc

/-- An instruction takes its end away. -/
theorem readInstruction_length {s s' : Cursor} {body : List Char} {e : Event}
    (h : s.readInstruction body = .ok (e, s')) : s'.rest.length < body.length := by
  unfold readInstruction at h
  split at h
  · simp at h
  · simp at h
  · next hc =>
    simp only [Except.ok.injEq, Prod.mk.injEq] at h
    rw [← h.2]
    exact Text.cutAt_length (by simp) hc

/-- An end tag takes its `>` away. -/
theorem readEnd_length {s s' : Cursor} {body : List Char} {e : Event}
    (h : s.readEnd body = .ok (e, s')) : s'.rest.length < body.length := by
  unfold readEnd at h
  split at h
  · simp at h
  · next hc =>
    split at h
    · simp at h
    · split at h
      · simp only [Except.ok.injEq, Prod.mk.injEq] at h
        rw [← h.2]
        exact tagContent_length hc
      · simp at h

/-- A start tag takes its `>` away, and so does the tag of an empty element. -/
theorem readStart_length {s s' : Cursor} {body : List Char} {e : Event}
    (h : s.readStart body = .ok (e, s')) : s'.rest.length < body.length := by
  unfold readStart at h
  split at h
  · simp at h
  · next hc =>
    split at h <;>
    · simp only [Except.ok.injEq, Prod.mk.injEq] at h
      rw [← h.2]
      exact tagContent_length hc

/-- Other words for a fault do not make a success of it. -/
theorem mapError_eq_ok {α β γ : Type} {f : α → β} {r : Except α γ} {x : γ}
    (h : r.mapError f = .ok x) : r = .ok x := by
  cases r with
  | error => nomatch h
  | ok => exact congrArg _ (Except.ok.inj h)

/-- Whatever markup it is, something behind its `<` is taken away. -/
theorem readMarkup_length {s s' : Cursor} {body : List Char} {e : Event}
    (h : s.readMarkup body = .ok (e, s')) : s'.rest.length < body.length := by
  unfold readMarkup at h
  split at h
  · simp at h
  · have := readCdata_length (mapError_eq_ok h)
    simp only [List.length_cons] at this ⊢; omega
  · have := readComment_length (mapError_eq_ok h)
    simp only [List.length_cons] at this ⊢; omega
  · have := readDoctype_length h
    simp only [List.length_cons] at this ⊢; omega
  · have := readDoctype_length h
    simp only [List.length_cons] at this ⊢; omega
  · simp at h
  · exact readInstruction_length (mapError_eq_ok h)
  · have := readEnd_length (mapError_eq_ok h)
    simp only [List.length_cons]; omega
  · exact readStart_length (mapError_eq_ok h)

/-- Markup takes its `<` away at least, and a text its first character. -/
theorem readEvent_length {s s' : Cursor} {e : Event} (h : s.readEvent = .ok (some (e, s'))) :
    s'.rest.length < s.rest.length := by
  unfold readEvent at h
  split at h
  · simp at h
  · next body hb =>
    cases hm : s.readMarkup body with
    | error f => simp [hm, Except.map] at h
    | ok p =>
      simp only [hm, Except.map, Except.ok.injEq, Option.some.injEq] at h
      have := readMarkup_length (hm.trans (congrArg _ h))
      rw [hb, List.length_cons]
      omega
  · next hn hl =>
    simp only [readText, Except.ok.injEq, Option.some.injEq, Prod.mk.injEq] at h
    rw [← h.2]
    cases hd : s.rest with
    | nil => exact absurd hd hn
    | cons c cs =>
      have hc : c ≠ '<' := fun e => hl cs (e ▸ hd)
      have := length_dropWhile_le (· != '<') cs
      simp only [List.dropWhile_cons, bne_iff_ne, ne_eq, hc, not_false_eq_true, if_true,
        List.length_cons]
      omega

/-- The next event leaves less to read. -/
theorem next_length {s s' : Cursor} {e : Event} (h : s.next = .ok (some (e, s'))) :
    s'.rest.length < s.rest.length :=
  Nat.lt_of_lt_of_le (readEvent_length h) (length_dropWhile_le Text.isSpace s.rest)

end Cursor

end Flowscript.Markup
