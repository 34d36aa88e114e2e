import Flowscript.Kind
import Flowscript.Rule.Column
import Flowscript.Rule.Combine
import Flowscript.Rule.File
import Flowscript.Rule.Row
import Flowscript.Rule.Table
import Flowscript.Rule.Template

/-!
# The catalog of rules

Which rule goes with which kind.
-/

namespace Flowscript

/-- The rules in use, by kind. -/
abbrev Rules : Type :=
  Kind → Option Rule

namespace Rules

/-- A rule for each kind in the catalog. -/
def standard : Rules
  | .source => some Rule.source
  | .sink => some Rule.sink
  | .select => some Rule.select
  | .filter => some Rule.filter
  | .formula => some Rule.formula
  | .sort => some Rule.sort
  | .unique => some Rule.unique
  | .summarize => some Rule.summarize
  | .patternExtract => some Rule.patternExtract
  | .remoteFetch => some Rule.remoteFetch
  | .union => some Rule.union
  | .join => some Rule.join
  | .textInput => some Rule.textInput
  | .autoField => some Rule.autoField
  | .unknown => none

/-- The rules with another one for a kind. -/
def withRule (rules : Rules) (kind : Kind) (rule : Rule) : Rules :=
  fun k => if k = kind then some rule else rules k

end Rules

end Flowscript
