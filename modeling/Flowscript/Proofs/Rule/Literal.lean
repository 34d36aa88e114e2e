import Flowscript.Proofs.Comment
import Flowscript.Rule.Catalog
import Mathlib.Data.List.Induction

/-!
# Raw literals

Paths, conditions, expressions and patterns are put between the quotes of a raw literal as they are
(`Rule.rawSites`). A raw literal ends at the first quote that is not behind an odd run of backslashes, and
no line may end inside (`Statement.readRaw`). So it denotes the text that was put in, and ends where the
rule closed it, just when the text is on one line, each of its quotes is behind an odd run of backslashes,
and it does not end in one (`Statement.RawSite.denotes_iff`). A quote in a condition, a backslash at the end
of a path and a line feed in a pattern all break the literal (`Rule.raw_literals_broken`).
-/

namespace Flowscript

namespace Statement

/-- Reads the inside of a raw literal up to its closing quote: the text that it denotes, and what comes
behind. `odd` tells whether an odd run of backslashes stands right before. -/
def readInside (ends : Char → Bool) (odd : Bool) : List Char → Option (List Char × List Char)
  | [] => none
  | x :: xs =>
    if x = '\'' ∧ odd = false then
      some ([], xs)
    else if ends x then
      none
    else
      (readInside ends (x == '\\' && !odd) xs).map fun (text, rest) => (x :: text, rest)

/-- Reads a raw literal: the text that it denotes, and what comes behind. -/
def readRaw (ends : Char → Bool) : List Char → Option (List Char × List Char)
  | 'r' :: '\'' :: xs => readInside ends false xs
  | _ => none

/-- The number of backslashes that the text ends in. -/
def backslashes (text : List Char) : Nat :=
  (text.reverse.takeWhile (· == '\\')).length

/-- The text stays whole between the quotes of a raw literal: it is on one line, its quotes are behind odd
runs of backslashes, and it does not end in such a run. -/
structure StaysWhole (ends : Char → Bool) (text : String) : Prop where
  oneLine : Script.OneLine ends text
  quotes : ∀ i < text.toList.length, text.toList[i]? = some '\'' →
    backslashes (text.toList.take i) % 2 = 1
  last : backslashes text.toList % 2 = 0

/-- Whether an odd run of backslashes stands behind the text, if one may stand before it. -/
def oddBehind (odd : Bool) (text : List Char) : Bool :=
  text.foldl (fun odd x => x == '\\' && !odd) odd

variable {ends : Char → Bool} {odd : Bool}

/-- A run of backslashes at the end goes on or breaks off with the last character. -/
lemma backslashes_concat (text : List Char) (x : Char) :
    backslashes (text ++ [x]) = if x = '\\' then backslashes text + 1 else 0 := by
  rw [backslashes, List.reverse_concat, List.takeWhile_cons]
  by_cases h : x = '\\'
  · simp [h, backslashes]
  · simp [h]

/-- What is told from left to right is whether the run at the end is odd. -/
lemma oddBehind_eq (text : List Char) : oddBehind false text = decide (backslashes text % 2 = 1) := by
  induction text using List.reverseRecOn with
  | nil => rfl
  | append_singleton text x ih =>
    have step : oddBehind false (text ++ [x]) = (x == '\\' && !oddBehind false text) := by
      simp [oddBehind]
    rw [step, ih, backslashes_concat]
    by_cases h : x = '\\'
    · rcases Nat.mod_two_eq_zero_or_one (backslashes text) with even | odd
      · simp [h, even, Nat.add_mod]
      · simp [h, odd, Nat.add_mod]
    · simp [h]

/-- The quotes in a text are all behind odd runs if its first character is no bare quote and those in the
rest are. -/
lemma quotes_cons (x : Char) (xs : List Char) :
    (∀ i < (x :: xs).length, (x :: xs)[i]? = some '\'' → oddBehind odd ((x :: xs).take i) = true) ↔
      ¬ (x = '\'' ∧ odd = false) ∧
      ∀ i < xs.length, xs[i]? = some '\'' → oddBehind (x == '\\' && !odd) (xs.take i) = true := by
  rw [List.length_cons, Nat.forall_lt_succ_left]
  refine and_congr ?_ Iff.rfl
  simp [oddBehind]

/-- The reader takes in the text and stops behind it if it meets no line end and no bare quote on the way,
and the quote behind the text is bare. -/
lemma readInside_append_iff (text rest : List Char) :
    readInside ends odd (text ++ '\'' :: rest) = some (text, rest) ↔
      (∀ x ∈ text, ends x = false) ∧
      (∀ i < text.length, text[i]? = some '\'' → oddBehind odd (text.take i) = true) ∧
      oddBehind odd text = false := by
  induction text generalizing odd with
  | nil =>
    rw [List.nil_append, readInside]
    cases odd with
    | false => simp [oddBehind]
    | true => simp [oddBehind]
  | cons x xs ih =>
    rw [List.cons_append, readInside, quotes_cons, List.forall_mem_cons]
    split
    · next bare => simp [bare]
    · next inside =>
      split
      · next stop => simp [stop]
      · next goesOn =>
        have first : ends x = false := by simpa using goesOn
        have whole : (readInside ends (x == '\\' && !odd) (xs ++ '\'' :: rest)).map
            (fun (text, rest) => (x :: text, rest)) = some (x :: xs, rest) ↔
            readInside ends (x == '\\' && !odd) (xs ++ '\'' :: rest) = some (xs, rest) := by
          rw [Option.map_eq_some_iff]
          constructor
          · rintro ⟨p, read, e⟩
            cases e
            exact read
          · intro read
            exact ⟨_, read, rfl⟩
        rw [whole, ih]
        simp only [first, inside, not_false_eq_true, true_and, oddBehind, List.foldl_cons]

/-! ## Statements -/

/-- Where a rule puts a text between the quotes of a raw literal: what the statement has before the
literal, the text, and what it has behind it. -/
structure RawSite where
  before : String
  text : String
  after : String

namespace RawSite

/-- The statement around a raw literal. -/
def statement (s : RawSite) : String :=
  s.before ++ rawLiteral s.text ++ s.after

/-- The literal that is read in the statement denotes the text, and what comes behind it is what the
statement has behind it. -/
def Denotes (ends : Char → Bool) (s : RawSite) : Prop :=
  readRaw ends (s.statement.toList.drop s.before.toList.length) =
    some (s.text.toList, s.after.toList)

instance (ends : Char → Bool) (s : RawSite) : Decidable (s.Denotes ends) :=
  inferInstanceAs (Decidable (_ = _))

/-- A raw literal denotes its text just when the text stays whole. -/
lemma denotes_iff (ends : Char → Bool) (s : RawSite) : s.Denotes ends ↔ StaysWhole ends s.text := by
  have behind : s.statement.toList.drop s.before.toList.length =
      'r' :: '\'' :: (s.text.toList ++ '\'' :: s.after.toList) := by
    simp [statement, rawLiteral]
  rw [Denotes, behind, readRaw, readInside_append_iff]
  simp only [oddBehind_eq, decide_eq_true_eq, decide_eq_false_iff_not, Nat.mod_two_not_eq_one]
  constructor
  · rintro ⟨oneLine, quotes, last⟩
    exact ⟨oneLine, quotes, last⟩
  · rintro ⟨oneLine, quotes, last⟩
    exact ⟨oneLine, quotes, last⟩

end RawSite

/-- What comes behind the value comes behind the assignment. -/
lemma assign_append (frame value rest : String) :
    assign frame (value ++ rest) = assign frame value ++ rest :=
  String.append_assoc.symm

end Statement

namespace Rule

open Statement (RawSite)

/-- The kinds whose statements have raw literals. -/
def rawKinds : List Kind :=
  [.source, .sink, .filter, .formula, .patternExtract]

/-- The raw literals in the statements for a node of this kind: the path of a file, the condition of a
filter, the expressions of formulas, or the pattern to extract. -/
def rawSites (c : Context) : Kind → List RawSite
  | .source => (c.config.textAt ["File"]).toList.map fun path =>
    { before := Statement.assign c.output "pd.read_csv(", text := path, after := ")" }
  | .sink => [{
      before := c.output ++ ".to_csv("
      text := (c.config.textAt ["File"]).getD c.options.defaultOutputPath
      after := ", index=False)" }]
  | .filter =>
    (c.config.textAt ["FilterExpression"] <|> c.config.textAt ["Expression"]).toList.map fun condition =>
      { before := Statement.assign c.output (c.input ++ ".query("), text := condition, after := ")" }
  | .formula => (formulas c.config).map fun (field, expression) =>
    { before := Statement.assignColumn c.output field (c.input ++ ".eval(")
      text := expression
      after := ")" }
  | .patternExtract => (c.config.textAt ["Field"]).toList.flatMap fun field =>
    ((c.config.attrAt ["RegExExpression"] "value").filter fun p =>
      !(Text.trim p.toList).isEmpty).toList.map fun pattern =>
        { before := Statement.assignColumn c.output "regex_extract"
            (Statement.column c.input field ++ ".str.extract(")
          text := pattern
          after := ")" }
  | _ => []

/-- A rule that needs a setting has one statement around its literal, or none if the setting is missing. -/
lemma setting_sites {c : Context} {setting : Option String} {before what : String} :
    (match setting with
      | some text => Fragment.bound c.output
        [Statement.assign c.output (before ++ Statement.rawLiteral text ++ ")")]
      | none => .declined [c.missing what]).statements =
    (setting.toList.map fun text =>
      { before := Statement.assign c.output before, text, after := ")" }).map RawSite.statement := by
  cases setting with
  | none => rfl
  | some text =>
    simp only [Fragment.bound, Statement.assign_append]
    rfl

/-- A formula writes a copy, and then the statements around its expressions. -/
lemma formula_sites (c : Context) :
    (formula c).statements = c.copy :: (rawSites c .formula).map RawSite.statement := by
  simp only [formula, Fragment.bound, Statement.assignColumn, Statement.assign_append, rawSites,
    List.map_map]
  rfl

/-- An extraction writes a copy, and then the statements around its pattern. -/
lemma patternExtract_sites (c : Context) :
    (patternExtract c).statements = c.copy :: (rawSites c .patternExtract).map RawSite.statement := by
  simp only [patternExtract, Fragment.bound, rawSites, List.cons.injEq, true_and]
  generalize (c.config.attrAt ["RegExExpression"] "value").filter _ = pattern
  cases c.config.textAt ["Field"] with
  | none => rfl
  | some field =>
    cases pattern with
    | none => rfl
    | some pattern =>
      simp only [Statement.assignColumn, Statement.assign_append]
      rfl

/-- The statements with raw literals stand behind a copy, or alone. -/
lemma exists_statements_eq (c : Context) {kind : Kind} (h : kind ∈ rawKinds) :
    ∃ rule first, Rules.standard kind = some rule ∧ (first = [] ∨ first = [c.copy]) ∧
      (rule c).statements = first ++ (rawSites c kind).map RawSite.statement := by
  simp only [rawKinds, List.mem_cons, List.not_mem_nil, or_false] at h
  rcases h with rfl | rfl | rfl | rfl | rfl
  · exact ⟨source, [], rfl, .inl rfl, setting_sites⟩
  · exact ⟨sink, [c.copy], rfl, .inr rfl, rfl⟩
  · exact ⟨filter, [], rfl, .inl rfl, setting_sites⟩
  · exact ⟨formula, [c.copy], rfl, .inr rfl, formula_sites c⟩
  · exact ⟨patternExtract, [c.copy], rfl, .inr rfl, patternExtract_sites c⟩

/-- For paths, conditions, expressions and patterns, the rules of the catalog write statements around raw
literals, behind a copy or alone. Whatever ends a line, each literal ends at the quote that the rule wrote
to close it and denotes the text that was set, just when the text is on one line, its quotes are behind odd
runs of backslashes, and it does not end in such a run. -/
theorem raw_literal_denotes_iff (c : Context) (ends : Char → Bool) (kind : Kind) (h : kind ∈ rawKinds) :
    (∃ rule first, Rules.standard kind = some rule ∧ (first = [] ∨ first = [c.copy]) ∧
      (rule c).statements = first ++ (rawSites c kind).map RawSite.statement) ∧
    ∀ site ∈ rawSites c kind, site.Denotes ends ↔ Statement.StaysWhole ends site.text :=
  ⟨exists_statements_eq c h, fun site _ => site.denotes_iff ends⟩

/-- A node with these settings and nothing around it. -/
def lone (settings : List Element) : Context where
  node := {
    id := "1"
    plugin := ""
    properties := {
      name := "Properties"
      children := [{ name := "Configuration", children := settings }] } }
  bindings := { stem := "df_" }
  options := {}
  input := "src"
  output := "dst"

/-- A pattern with a quote behind one backslash, and with two backslashes at its end. -/
def pattern : String :=
  "it\\'s (\\w+)\\\\"

/-- A node that extracts the pattern. -/
def extracting : Context :=
  lone [{ name := "Field", text := some "Note" },
    { name := "RegExExpression", attributes := [("value", pattern)] }]

/-- The quote in the pattern is behind one backslash and the pattern ends in two, so it stays whole. -/
theorem raw_literal_denotes_iff_extracting :
    Kind.patternExtract ∈ rawKinds ∧ (rawSites extracting .patternExtract).map RawSite.text = [pattern] ∧
    ∀ site ∈ rawSites extracting .patternExtract, site.Denotes (· == '\n') := by
  have texts : (rawSites extracting .patternExtract).map RawSite.text = [pattern] := by decide +kernel
  have whole : Statement.StaysWhole (· == '\n') pattern := ⟨by decide +kernel, by decide +kernel, by decide⟩
  refine ⟨by decide, texts, ?_⟩
  intro site hs
  have text : site.text = pattern := by
    have mem := List.mem_map_of_mem (f := RawSite.text) hs
    rw [texts] at mem
    exact List.mem_singleton.1 mem
  obtain ⟨-, denotes⟩ := raw_literal_denotes_iff extracting (· == '\n') .patternExtract (by decide)
  exact (denotes site hs).2 (text ▸ whole)

/-- The literal around a condition ends at the first quote in the condition. The literals around a path
that ends in a backslash and around a pattern with a line feed have no end. -/
theorem raw_literals_broken :
    (filter (lone [{ name := "FilterExpression", text := some "[City] = 'Berlin'" }])).statements =
      ["dst = src.query(r'[City] = 'Berlin'')"] ∧
    Statement.readRaw (· == '\n') "r'[City] = 'Berlin'')".toList =
      some ("[City] = ".toList, "Berlin'')".toList) ∧
    (∃ site ∈ rawSites (lone [{ name := "FilterExpression", text := some "[City] = 'Berlin'" }]) .filter,
      site.text = "[City] = 'Berlin'" ∧ ¬ site.Denotes (· == '\n')) ∧
    (∃ site ∈ rawSites (lone [{ name := "File", text := some "C:\\data\\" }]) .source,
      site.text = "C:\\data\\" ∧ ¬ site.Denotes (· == '\n')) ∧
    ∃ site ∈ rawSites (lone [{ name := "Field", text := some "Note" },
        { name := "RegExExpression", attributes := [("value", "a\nb")] }]) .patternExtract,
      site.text = "a\nb" ∧ ¬ site.Denotes (· == '\n') := by
  decide +kernel

end Rule

end Flowscript
