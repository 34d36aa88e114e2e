import Flowscript.Json.Double
import Flowscript.Json.Token

/-!
# Reading JSON

`Json.read?` accepts a text if it is one JSON value with blanks around its words and nothing else:
no trailing commas, no second value. The containers that are still open are held in a list of
frames, so reading follows the tokens one by one.

This is the strict reading of the JSON grammar, which lets an object repeat a key. A reader also
documents limits that the grammar does not have: containers are nested to a certain depth only, every
text must denote characters, and every number must be a finite double. They are told apart from the
grammar here (`depth`, `isDefinite`), since a part that is skipped is not held to all of them.
-/

namespace Flowscript.Json

/-- A container that is still open: its parts so far, and for an object the key whose value comes
next. -/
inductive Frame where
  | arr (items : List (Json (Option String)))
  | obj (members : List (Option String × Json (Option String))) (key : Option String)

mutual

/-- Reads a value and then all that follows it. -/
def value (frames : List Frame) : List Token → Option (Json (Option String))
  | .null :: ts => follow frames .null ts
  | .bool b :: ts => follow frames (.bool b) ts
  | .num n :: ts => follow frames (.num n) ts
  | .str s :: ts => follow frames (.str s) ts
  | .openArray :: .closeArray :: ts => follow frames (.arr []) ts
  | .openArray :: ts => value (.arr [] :: frames) ts
  | .openObject :: .closeObject :: ts => follow frames (.obj []) ts
  | .openObject :: .str k :: .colon :: ts => value (.obj [] k :: frames) ts
  | _ => none

/-- Puts a finished value into the innermost open container, or ends with it. -/
def follow (frames : List Frame) (j : Json (Option String)) :
    List Token → Option (Json (Option String))
  | [] =>
    match frames with
    | [] => some j
    | _ :: _ => none
  | t :: ts =>
    match frames, t, ts with
    | .arr js :: frames, .comma, ts => value (.arr (js ++ [j]) :: frames) ts
    | .arr js :: frames, .closeArray, ts => follow frames (.arr (js ++ [j])) ts
    | .obj ms k :: frames, .comma, .str k' :: .colon :: ts =>
      value (.obj (ms ++ [(k, j)]) k' :: frames) ts
    | .obj ms k :: frames, .closeObject, ts => follow frames (.obj (ms ++ [(k, j)])) ts
    | _, _, _ => none

end

/-- The value that a text holds, if the text is well-formed. -/
def read? (s : String) : Option (Json (Option String)) :=
  (Token.scan s.toList).bind (value [])

mutual

/-- The number of containers around the innermost part. -/
def depth {τ : Type} : Json τ → Nat
  | .arr js => depths js + 1
  | .obj ms => memberDepths ms + 1
  | _ => 0

def depths {τ : Type} : List (Json τ) → Nat
  | [] => 0
  | j :: js => max (depth j) (depths js)

def memberDepths {τ : Type} : List (τ × Json τ) → Nat
  | [] => 0
  | (_, j) :: ms => max (depth j) (memberDepths ms)

end

mutual

/-- Whether every text denotes characters and every number is a finite double. -/
def isDefinite : Json (Option String) → Bool
  | .str s => s.isSome
  | .num n => n.isFiniteDouble
  | .arr js => areDefinite js
  | .obj ms => membersDefinite ms
  | _ => true

def areDefinite : List (Json (Option String)) → Bool
  | [] => true
  | j :: js => isDefinite j && areDefinite js

def membersDefinite : List (Option String × Json (Option String)) → Bool
  | [] => true
  | (k, j) :: ms => k.isSome && isDefinite j && membersDefinite ms

end

end Flowscript.Json
