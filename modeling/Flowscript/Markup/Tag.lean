import Flowscript.Element.Basic
import Flowscript.Markup.Reference

/-!
# Tags

The content of a start tag is its name, up to the first blank, and a list of attributes. Nothing is
asked of names, so any characters may stand in them. Attributes need no blank between them; each
key is used once.

These are the documented checks on attributes in XML: a key, an equals sign with or without blanks
around it, and a value in quotes of either kind. A key without a value, a value without quotes and a
key that was there before are faults. The first fault from the left is reported, and references are
replaced attribute by attribute.
-/

namespace Flowscript.Markup

/-- A start tag: its name and what stands between the name and the end of the tag. -/
structure Tag where
  name : String
  attributes : List Char
deriving DecidableEq, Repr

/-- The tag with this content. -/
def Tag.ofContent (content : List Char) : Tag :=
  { name := String.ofList (content.takeWhile (!Text.isSpace ·))
    attributes := content.dropWhile (!Text.isSpace ·) }

/-- An attribute as it stands in a tag: the offset of its key, the key, and its value before
references are replaced. -/
structure RawAttribute where
  start : Nat
  key : List Char
  value : List Char
deriving DecidableEq, Repr

/-- A character that ends the key of an attribute. -/
def endsKey (c : Char) : Bool :=
  c == '=' || Text.isSpace c

/-- The value between quotes at the start of `cs`, after blanks, and what follows it. -/
def readValue (offset : Nat) (cs : List Char) : Except Fault (List Char × Nat × List Char) :=
  let offset := offset + (cs.takeWhile Text.isSpace).length
  match cs.dropWhile Text.isSpace with
  | [] => .error (.expectedValue offset)
  | q :: cs =>
    if q = '"' ∨ q = '\'' then
      match cs.dropWhile (· != q) with
      | [] => .error (.missingQuote (offset + 1 + Text.width cs) q)
      | _ :: rest =>
        let value := cs.takeWhile (· != q)
        .ok (value, offset + Text.width value + 2, rest)
    else
      .error (.unquotedValue offset)

/-- The equals sign at the start of `cs`, after blanks, and what follows it. -/
def readEquals (offset : Nat) (cs : List Char) : Except Fault (Nat × List Char) :=
  let offset := offset + (cs.takeWhile Text.isSpace).length
  match cs.dropWhile Text.isSpace with
  | '=' :: rest => .ok (offset + 1, rest)
  | _ => .error (.expectedEquals offset)

/-- The next attribute of a tag, where `seen` holds the keys before it with their offsets: `none` if
only blanks are left. A key takes its first character whatever it is. -/
def nextAttribute (seen : List (List Char × Nat)) (offset : Nat) (cs : List Char) :
    Except Fault (Option (RawAttribute × Nat × List Char)) :=
  let start := offset + (cs.takeWhile Text.isSpace).length
  match cs.dropWhile Text.isSpace with
  | [] => .ok none
  | c :: cs => do
    let key := c :: cs.takeWhile (!endsKey ·)
    let (offset, rest) ← readEquals (start + Text.width key) (cs.dropWhile (!endsKey ·))
    match seen.lookup key with
    | some earlier => .error (.duplicateAttribute start earlier)
    | none =>
      let (value, offset, rest) ← readValue offset rest
      return some ({ start, key, value }, offset, rest)

/-! ## Lengths

Each reader leaves less than it was given, so that the list of attributes ends. -/

/-- Dropping characters never adds any. -/
theorem length_dropWhile_le (p : Char → Bool) (cs : List Char) :
    (cs.dropWhile p).length ≤ cs.length :=
  (List.dropWhile_suffix p).length_le

/-- The quotes around a value are taken away at least. -/
theorem readValue_length {offset o : Nat} {cs value rest : List Char}
    (h : readValue offset cs = .ok (value, o, rest)) : rest.length < cs.length := by
  unfold readValue at h
  have hs := length_dropWhile_le Text.isSpace cs
  split at h
  · simp at h
  · next q cs' hq =>
    have hd := length_dropWhile_le (· != q) cs'
    rw [hq, List.length_cons] at hs
    split at h
    · split at h
      · simp at h
      · next hr =>
        rw [hr, List.length_cons] at hd
        simp only [Except.ok.injEq, Prod.mk.injEq] at h
        rw [h.2.2] at hd
        omega
    · simp at h

/-- The equals sign is taken away at least. -/
theorem readEquals_length {offset o : Nat} {cs rest : List Char}
    (h : readEquals offset cs = .ok (o, rest)) : rest.length < cs.length := by
  unfold readEquals at h
  have hs := length_dropWhile_le Text.isSpace cs
  split at h
  · next r hr =>
    simp only [Except.ok.injEq, Prod.mk.injEq] at h
    rw [hr, List.length_cons, h.2] at hs
    omega
  · simp at h

/-- An attribute takes its key, its equals sign and its quotes away. -/
theorem nextAttribute_length {seen : List (List Char × Nat)} {offset o : Nat}
    {cs rest : List Char} {a : RawAttribute}
    (h : nextAttribute seen offset cs = .ok (some (a, o, rest))) : rest.length < cs.length := by
  unfold nextAttribute at h
  have hs := length_dropWhile_le Text.isSpace cs
  split at h
  · simp at h
  · next c cs' hc =>
    rw [hc, List.length_cons] at hs
    have hk := length_dropWhile_le (!endsKey ·) cs'
    cases he : readEquals (offset + (cs.takeWhile Text.isSpace).length +
        Text.width (c :: cs'.takeWhile (!endsKey ·))) (cs'.dropWhile (!endsKey ·)) with
    | error f => simp [he, bind, Except.bind] at h
    | ok p =>
      obtain ⟨o', r'⟩ := p
      have := readEquals_length he
      simp only [he, bind, Except.bind] at h
      split at h
      · simp at h
      · cases hv : readValue o' r' with
        | error f => simp [hv] at h
        | ok p =>
          obtain ⟨v, o'', r''⟩ := p
          have := readValue_length hv
          simp only [hv, pure, Except.pure, Except.ok.injEq, Option.some.injEq,
            Prod.mk.injEq] at h
          rw [← h.2.2]
          omega

/-- The attributes in the rest of a tag, with their references replaced. The value of each is
settled before the next is looked at. -/
def readAttributes (seen : List (List Char × Nat)) (offset : Nat) (cs : List Char) :
    Except Fault (List (String × String)) :=
  match _h : nextAttribute seen offset cs with
  | .error f => .error f
  | .ok none => .ok []
  | .ok (some (a, offset, rest)) => do
    let value ← unescape a.value
    let others ← readAttributes ((a.key, a.start) :: seen) offset rest
    return (String.ofList a.key, String.ofList value) :: others
termination_by cs.length
decreasing_by exact nextAttribute_length _h

/-- The element that a tag opens: its name and attributes. -/
def Tag.element (t : Tag) : Except Fault Element := do
  let attributes ← readAttributes [] (Text.width t.name.toList) t.attributes
  return { name := t.name, attributes }

end Flowscript.Markup
