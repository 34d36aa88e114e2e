import Flowscript.Proofs.Rule.Literal
import Flowscript.Proofs.Statement

/-!
# Selections

The statement of a selection has a list of columns (`Rule.selection`), and the names that are read from it
by the rules of the script are those that the settings mark (`Rule.list_literals_denote`). A place with such
a list in a statement is a `Statement.ListSite`.
-/

namespace Flowscript

namespace Statement

/-- Where a rule writes a list of names: what the statement has before the list, the names, and what it has
behind it. -/
structure ListSite where
  before : String
  items : List String
  after : String
deriving DecidableEq

namespace ListSite

/-- The statement around a list. -/
def statement (s : ListSite) : String :=
  s.before ++ listLiteral s.items ++ s.after

/-- The list that is read in the statement denotes the names, and what comes behind it is what the statement
has behind it. -/
def Denotes (s : ListSite) : Prop :=
  readList (s.statement.toList.drop s.before.toList.length) = some (s.items, s.after.toList)

/-- A list reads back as its names wherever it is written. -/
lemma denotes (s : ListSite) : s.Denotes := by
  have behind : s.statement.toList.drop s.before.toList.length =
      (listLiteral s.items).toList ++ s.after.toList := by
    simp [statement]
  rw [Denotes, behind]
  exact readList_listLiteral s.items s.after.toList

end ListSite

end Statement

namespace Rule

open Statement (ListSite)

/-! ## Selections -/

/-- The fields of the entries with this mark, in the order of the settings. -/
def entriesMarked (config : Element) (mark : String) : List String :=
  ((config.childrenAt ["SelectFields"] "SelectField").filter (·.attr "selected" = some mark)).filterMap
    (·.attr "field")

/-- The columns with this mark, in the order of the settings. -/
def columnsMarked (config : Element) (mark : String) : List String :=
  (entriesMarked config mark).filter (· ≠ otherColumns)

/-- The list in the statement behind the copy: the columns to drop if the entry for the other columns is
selected and there are such columns, and else the columns to keep. -/
def selection (c : Context) : Option ListSite :=
  if otherColumns ∈ entriesMarked c.config "True" ∧ columnsMarked c.config "False" ≠ [] then
    some {
      before := Statement.assign c.output (c.output ++ ".drop(columns=")
      items := columnsMarked c.config "False"
      after := ")" }
  else if columnsMarked c.config "True" ≠ [] then
    some {
      before := Statement.assign c.output (c.output ++ "[")
      items := columnsMarked c.config "True"
      after := "]" }
  else
    none

/-- The entries with a mark are those of the settings that the rule has read. -/
lemma entriesMarked_eq (config : Element) {mark : String} (h : mark ≠ "") :
    entriesMarked config mark = ((selectFields config).filter (·.2 = mark)).map Prod.fst := by
  rw [entriesMarked, selectFields, List.filterMap_filter, List.filter_filterMap, List.map_filterMap]
  refine congrArg (List.filterMap · _) (funext fun f => ?_)
  cases f.attr "selected" with
  | none => cases f.attr "field" <;> simp [Option.filter, Ne.symm h]
  | some selected =>
    cases f.attr "field" with
    | none => simp
    | some field => by_cases marked : selected = mark <;> simp [Option.filter, marked]

/-- So are the columns with a mark. -/
lemma columnsMarked_eq (config : Element) {mark : String} (h : mark ≠ "") :
    columnsMarked config mark = fieldsMarked mark (selectFields config) := by
  rw [columnsMarked, entriesMarked_eq config h, fieldsMarked, List.filter_map, List.filter_filter]
  rfl

/-- The rule knows whether the entry for the other columns is selected. -/
lemma mem_entriesMarked (config : Element) :
    otherColumns ∈ entriesMarked config "True" ↔ keepsOthers (selectFields config) = true := by
  rw [entriesMarked_eq config (by decide)]
  simp [keepsOthers]

/-- A selection writes a copy, and then a statement around its list of columns if it has one. -/
lemma select_statements (c : Context) :
    (select c).statements = c.copy :: (selection c).toList.map ListSite.statement := by
  have dropped : columnsMarked c.config "False" = _ := columnsMarked_eq c.config (by decide)
  have kept : columnsMarked c.config "True" = _ := columnsMarked_eq c.config (by decide)
  simp only [select, Fragment.bound, selection, mem_entriesMarked, dropped, kept, Bool.and_eq_true,
    Bool.not_eq_true', List.isEmpty_eq_false_iff, List.isEmpty_iff, List.cons.injEq, true_and]
  split
  · simp only [Statement.assign_append]
    rfl
  · rw [ite_not]
    split
    · rfl
    · simp only [Statement.assign_append]
      rfl

/-- A list of names, read by the rules of the script, denotes these names, whatever stands behind it, and no
control character is written, so no line ends inside. A selection writes a copy, and then a statement with
the list of the columns to drop or to keep if there are any. Read back, this list is that of the columns that
the settings mark so, in their order. -/
theorem list_literals_denote :
    (∀ items rest, Statement.readList ((Statement.listLiteral items).toList ++ rest) = some (items, rest)) ∧
    (∀ items, ∀ x ∈ (Statement.listLiteral items).toList, 0x20 ≤ x.toNat) ∧
    ∃ rule, Rules.standard .select = some rule ∧ ∀ c,
      (rule c).statements = c.copy :: (selection c).toList.map ListSite.statement ∧
      ∀ site ∈ selection c, site.Denotes := by
  refine ⟨Statement.readList_listLiteral, Statement.visible_listLiteral, select, rfl, fun c => ?_⟩
  exact ⟨select_statements c, fun site _ => site.denotes⟩

/-- The entry of a selection for a field. -/
def entry (field selected : String) : Element where
  name := "SelectField"
  attributes := [("field", field), ("selected", selected)]

/-- A node that drops two columns, with quotes, backslashes and control characters in their names. -/
def selecting : Context :=
  lone [{
    name := "SelectFields"
    children := [entry "a\"b\\" "False", entry "*Unknown" "True", entry "kept" "True",
      entry "x\n\x01y" "False"] }]

/-- The entry for the other columns is selected, so the two marked columns are dropped, with quotes,
backslashes and control characters escaped. -/
theorem list_literals_denote_selecting : ∃ site, selection selecting = some site ∧
    site.items = ["a\"b\\", "x\n\x01y"] ∧ site.Denotes ∧
    (select selecting).statements = ["dst = src.copy()", site.statement] ∧
    site.statement = "dst = dst.drop(columns=[\"a\\\"b\\\\\",\"x\\n\\u0001y\"])" := by
  obtain ⟨-, -, rule, same, selects⟩ := list_literals_denote
  obtain rfl : select = rule := Option.some.inj same
  obtain ⟨statements, denotes⟩ := selects selecting
  refine ⟨{
    before := "dst = dst.drop(columns="
    items := ["a\"b\\", "x\n\x01y"]
    after := ")" }, by decide +kernel, rfl, denotes _ (by decide +kernel), ?_, by decide +kernel⟩
  rw [statements]
  decide +kernel

end Rule

end Flowscript
