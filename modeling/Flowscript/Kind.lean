import Flowscript.Text

/-!
# Kinds of nodes

A plugin name such as `AlteryxBasePluginsGui.Join.Join` tells the kind of a node. `Classifier`
compares whole names and whole parts between dots, never pieces of them: the full name first, then
its parts from the last to the first. At each of them an alias goes before the catalog.
-/

namespace Flowscript

/-- What a node does. -/
inductive Kind where
  | source
  | sink
  | select
  | filter
  | formula
  | sort
  | unique
  | summarize
  | patternExtract
  | remoteFetch
  | union
  | join
  | textInput
  | autoField
  | unknown
deriving DecidableEq, Repr

namespace Kind

/-- The part of a plugin name that stands for the kind. -/
def tag : Kind → String
  | .source => "DbFileInput"
  | .sink => "DbFileOutput"
  | .select => "AlteryxSelect"
  | .filter => "Filter"
  | .formula => "Formula"
  | .sort => "Sort"
  | .unique => "Unique"
  | .summarize => "Summarize"
  | .patternExtract => "RegEx"
  | .remoteFetch => "Download"
  | .union => "Union"
  | .join => "Join"
  | .textInput => "TextInput"
  | .autoField => "AutoField"
  | .unknown => "Unknown"

/-- All kinds that a plugin name can stand for. -/
def catalog : List Kind :=
  [.source, .sink, .select, .filter, .formula, .sort, .unique, .summarize, .patternExtract,
    .remoteFetch, .union, .join, .textInput, .autoField]

/-- The kind in the catalog with this tag. -/
def ofTag? (tag : String) : Option Kind :=
  catalog.find? (·.tag = tag)

end Kind

/-- Tells kinds from plugin names, with aliases of its own. The latest alias stands first. -/
structure Classifier where
  aliases : List (String × Kind) := []
deriving DecidableEq, Repr

namespace Classifier

/-- Takes a full plugin name, or one part of it, for a kind. -/
def withAlias (c : Classifier) (plugin : String) (kind : Kind) : Classifier :=
  { aliases := (plugin, kind) :: c.aliases }

/-- The kind that a name stands for as a whole. -/
def kindOf? (c : Classifier) (name : String) : Option Kind :=
  c.aliases.lookup name <|> Kind.ofTag? name

/-- The parts of a plugin name between dots, from the last to the first. -/
def parts (plugin : String) : List String :=
  ((Text.segments (· == '.') plugin.toList).map String.ofList).reverse

/-- The kind of a plugin. -/
def classify (c : Classifier) (plugin : String) : Kind :=
  ((plugin :: parts plugin).findSome? c.kindOf?).getD .unknown

end Classifier

end Flowscript
