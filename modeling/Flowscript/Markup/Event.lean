import Flowscript.Markup.Tag

/-!
# Events

A document is read as a sequence of events: tags, texts, CDATA sections, and markup that is passed
over. `Cursor.next` reads one event. It keeps the names of the tags that are open, and refuses an
end tag with another name than the innermost of them. Blanks around a text do not belong to it.

This is the documented behaviour of an event reader for XML that does not validate, with these
settings:
* texts are trimmed on both sides, and a text of blanks alone is no event;
* names of end tags are checked, without the blanks behind them;
* an empty element is an event of its own, and not a start and an end;
* CDATA is handed on as it stands, and ends at the first `]]>`;
* comments end at the first `-->`, and other dashes in them are not looked at;
* declarations, processing instructions and document types are passed over; of a document type only
  its name and its brackets are looked at, so it declares no entities.
-/

namespace Flowscript.Markup

/-- One step of a document. Texts still hold their references. -/
inductive Event where
  | start (tag : Tag)
  | empty (tag : Tag)
  | stop (name : String)
  | text (value : List Char)
  | cdata (value : List Char)
  | skipped
deriving DecidableEq, Repr

/-- A place in a document: the number of bytes before it, the names of the open tags, innermost
first, and the text that is left. -/
structure Cursor where
  offset : Nat := 0
  opened : List String := []
  rest : List Char
deriving DecidableEq, Repr

/-- The content of a tag up to the first `>` outside quotes, and what follows it. -/
def tagContent (quote : Option Char) : List Char → Option (List Char × List Char)
  | [] => none
  | c :: cs =>
    match quote with
    | some q =>
      (tagContent (if c = q then none else some q) cs).map fun (b, r) => (c :: b, r)
    | none =>
      if c = '>' then
        some ([], cs)
      else
        let quote := if c = '"' ∨ c = '\'' then some c else none
        (tagContent quote cs).map fun (b, r) => (c :: b, r)

/-- The content of a document type up to the `>` that closes it, with `depth` inner `<` open, and
what follows it. -/
def doctypeContent (depth : Nat) : List Char → Option (List Char × List Char)
  | [] => none
  | c :: cs =>
    if c = '>' ∧ depth = 0 then
      some ([], cs)
    else
      let depth := if c = '<' then depth + 1 else if c = '>' then depth - 1 else depth
      (doctypeContent depth cs).map fun (b, r) => (c :: b, r)

/-- The cursor behind markup with this content between `<` and `>`. -/
def Cursor.past (s : Cursor) (content rest : List Char) : Cursor :=
  { s with offset := s.offset + Text.width content + 2, rest }

/-- Reads a CDATA section whose text after `<!` is `body`. -/
def Cursor.readCdata (s : Cursor) (body : List Char) : Except Fault (Event × Cursor) :=
  match Text.cutAt [']', ']', '>'] body with
  | none => .error .cdataNotClosed
  | some (before, rest) =>
    match before with
    | '[' :: 'C' :: 'D' :: 'A' :: 'T' :: 'A' :: '[' :: value =>
      .ok (.cdata value, s.past ('!' :: before ++ [']', ']']) rest)
    | _ => .error .cdataNotClosed

/-- Reads a comment whose text after `<!` is `body`. It ends at the first `-->` behind its opening
dashes. -/
def Cursor.readComment (s : Cursor) (body : List Char) : Except Fault (Event × Cursor) :=
  match body with
  | '-' :: '-' :: body =>
    match Text.cutAt ['-', '-', '>'] body with
    | none => .error .commentNotClosed
    | some (before, rest) => .ok (.skipped, s.past (['!', '-', '-'] ++ before ++ ['-', '-']) rest)
  | _ => .error .commentNotClosed

/-- Reads a document type whose text after `<!` is `body`. Its keyword may have any letter case,
and a name must follow. -/
def Cursor.readDoctype (s : Cursor) (body : List Char) : Except Error (Event × Cursor) :=
  match doctypeContent 0 body with
  | none => .error (.malformed s.offset .doctypeNotClosed)
  | some (content, rest) =>
    if (content.take 7).map Char.toLower ≠ ['d', 'o', 'c', 't', 'y', 'p', 'e'] then
      .error (.malformed s.offset .doctypeNotClosed)
    else if (content.drop 7).all Text.isSpace then
      .error (.malformed (s.offset + Text.width content + 2) .doctypeUnnamed)
    else
      .ok (.skipped, s.past ('!' :: content) rest)

/-- Reads a processing instruction whose text after `<` is `body`. It ends at the first `?>`, which
may not share its question mark with the opening one. -/
def Cursor.readInstruction (s : Cursor) (body : List Char) : Except Fault (Event × Cursor) :=
  match Text.cutAt ['?', '>'] body with
  | none => .error .instructionNotClosed
  | some ([], _) => .error .instructionNotClosed
  | some (before, rest) => .ok (.skipped, s.past (before ++ ['?']) rest)

/-- The name in an end tag: blanks behind it are dropped, unless there is nothing else. -/
def endName (content : List Char) : String :=
  if content.all Text.isSpace then
    String.ofList content
  else
    String.ofList (Text.trimEnd Text.isSpace content)

/-- Reads an end tag whose text after `</` is `body`. It must close the innermost open tag. -/
def Cursor.readEnd (s : Cursor) (body : List Char) : Except Fault (Event × Cursor) :=
  match tagContent none body with
  | none => .error .tagNotClosed
  | some (content, rest) =>
    match s.opened with
    | [] => .error (.unmatchedEnd (endName content))
    | innermost :: outer =>
      if innermost = endName content then
        .ok (.stop innermost, { s.past ('/' :: content) rest with opened := outer })
      else
        .error (.mismatchedEnd innermost (endName content))

/-- Reads a start tag, or the tag of an empty element, whose text after `<` is `body`. -/
def Cursor.readStart (s : Cursor) (body : List Char) : Except Fault (Event × Cursor) :=
  match tagContent none body with
  | none => .error .tagNotClosed
  | some (content, rest) =>
    if content.getLast? = some '/' then
      .ok (.empty (Tag.ofContent content.dropLast), s.past content rest)
    else
      .ok (.start (Tag.ofContent content),
        { s.past content rest with opened := (Tag.ofContent content).name :: s.opened })

/-- Reads the markup at the cursor, whose text after `<` is `body`. -/
def Cursor.readMarkup (s : Cursor) (body : List Char) : Except Error (Event × Cursor) :=
  let located (r : Except Fault (Event × Cursor)) := r.mapError (Error.malformed s.offset)
  match body with
  | [] => .error (.malformed s.offset .tagNotClosed)
  | '!' :: '[' :: cs => located (s.readCdata ('[' :: cs))
  | '!' :: '-' :: cs => located (s.readComment ('-' :: cs))
  | '!' :: 'D' :: cs => s.readDoctype ('D' :: cs)
  | '!' :: 'd' :: cs => s.readDoctype ('d' :: cs)
  | '!' :: _ => .error (.malformed s.offset .unknownMarkup)
  | '?' :: cs => located (s.readInstruction ('?' :: cs))
  | '/' :: cs => located (s.readEnd cs)
  | cs => located (s.readStart cs)

/-- The cursor behind the blanks that come next. -/
def Cursor.skipSpace (s : Cursor) : Cursor :=
  { s with
    offset := s.offset + (s.rest.takeWhile Text.isSpace).length
    rest := s.rest.dropWhile Text.isSpace }

/-- Reads the text at the cursor, up to the next markup or the end of the document. -/
def Cursor.readText (s : Cursor) : Event × Cursor :=
  (.text (Text.trimEnd Text.isSpace (s.rest.takeWhile (· != '<'))),
    { s with
      offset := s.offset + Text.width (s.rest.takeWhile (· != '<'))
      rest := s.rest.dropWhile (· != '<') })

/-- Reads the event at the cursor, or finds the end of the document. -/
def Cursor.readEvent (s : Cursor) : Except Error (Option (Event × Cursor)) :=
  match s.rest with
  | [] => .ok none
  | '<' :: body => (s.readMarkup body).map some
  | _ => .ok (some s.readText)

/-- Reads the next event, or finds the end of the document. -/
def Cursor.next (s : Cursor) : Except Error (Option (Event × Cursor)) :=
  s.skipSpace.readEvent

end Flowscript.Markup
