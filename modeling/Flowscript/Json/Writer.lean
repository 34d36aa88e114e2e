import Flowscript.Json.Value

/-!
# Writing JSON

One writer for both layouts. The compact layout puts nothing between the parts of a value; the
indented one starts each part on a line of its own, two blanks deeper than its container. Empty
containers take no lines in either.

As documented for JSON writers, only what must be escaped is: quotes, backslashes and the control
characters below the blank, with the short escape if there is one and else with `u` and four digits
in lower case. Slashes and characters beyond ASCII are written as they are.
-/

namespace Flowscript.Json

/-- One character inside quotes: quotes, backslashes and control characters are escaped, by a
letter where there is one and by four hexadecimal digits otherwise. -/
def escapeChar (c : Char) : List Char :=
  if c = '"' then ['\\', '"']
  else if c = '\\' then ['\\', '\\']
  else if c = '\x08' then ['\\', 'b']
  else if c = '\x0c' then ['\\', 'f']
  else if c = '\n' then ['\\', 'n']
  else if c = '\r' then ['\\', 'r']
  else if c = '\t' then ['\\', 't']
  else if c.toNat < 0x20 then
    ['\\', 'u', '0', '0', Nat.digitChar (c.toNat / 16), Nat.digitChar (c.toNat % 16)]
  else [c]

/-- A text in quotes. -/
def quoted (s : String) : List Char :=
  '"' :: (s.toList.flatMap escapeChar ++ ['"'])

/-- How the parts of a value are set apart: what stands before a part at a depth of nesting, and
what stands between a key and its value. -/
structure Layout where
  line : Nat → List Char
  colon : List Char

/-- No blanks at all. -/
def Layout.compact : Layout :=
  { line := fun _ => [], colon := [':'] }

/-- A line for each part, indented by two blanks for each level. -/
def Layout.indented : Layout :=
  { line := fun depth => '\n' :: List.replicate (2 * depth) ' ', colon := [':', ' '] }

mutual

/-- The text of a value that stands at the given depth. -/
def write (l : Layout) (depth : Nat) : Json String → List Char
  | .null => ['n', 'u', 'l', 'l']
  | .bool true => ['t', 'r', 'u', 'e']
  | .bool false => ['f', 'a', 'l', 's', 'e']
  | .num n => n.text
  | .str s => quoted s
  | .arr [] => ['[', ']']
  | .arr (j :: js) =>
    '[' :: (l.line (depth + 1) ++ write l (depth + 1) j ++ writeItems l (depth + 1) js ++
      l.line depth ++ [']'])
  | .obj [] => ['\x7b', '\x7d']
  | .obj ((k, j) :: ms) =>
    '\x7b' :: (l.line (depth + 1) ++ quoted k ++ l.colon ++ write l (depth + 1) j ++
      writeMembers l (depth + 1) ms ++ l.line depth ++ ['\x7d'])

/-- The items after the first, each behind a comma. -/
def writeItems (l : Layout) (depth : Nat) : List (Json String) → List Char
  | [] => []
  | j :: js => ',' :: (l.line depth ++ write l depth j ++ writeItems l depth js)

/-- The members after the first, each behind a comma. -/
def writeMembers (l : Layout) (depth : Nat) : List (String × Json String) → List Char
  | [] => []
  | (k, j) :: ms =>
    ',' :: (l.line depth ++ quoted k ++ l.colon ++ write l depth j ++ writeMembers l depth ms)

end

/-- The value on one line. -/
def compact (j : Json String) : String :=
  String.ofList (write .compact 0 j)

/-- The value with a line for each part. -/
def pretty (j : Json String) : String :=
  String.ofList (write .indented 0 j)

end Flowscript.Json
