import Flowscript.Text

/-!
# Places

A place on a disk is given by the names that lead to it from the root.
-/

namespace Flowscript.Command

/-- The names from the root. -/
abbrev Place : Type :=
  List String

/-- Files that are no storage. Nothing can be read from any of them. What is written is lost, is
refused for want of space, or appears on a stream. -/
inductive Device where
  | null
  | full
  | stdout
  | stderr
deriving DecidableEq, Repr

/-- What can stand at a place. -/
inductive Entry where
  | directory
  | text (content : String)
  | program
  | device (d : Device)
deriving DecidableEq, Repr

namespace Place

/-- The names in a path, with an empty name before, between and behind slashes that have none. -/
def names (path : String) : List String :=
  (Text.segments (· == '/') path.toList).map String.ofList

end Place

end Flowscript.Command
