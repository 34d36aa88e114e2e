import Flowscript.Proofs.Statement
import Flowscript.Rule.Table
import Mathlib.Algebra.BigOperators.Group.List.Basic
import Mathlib.Data.List.Nodup

/-!
# Tables

A record gives each of its cells to the column with the name of the cell's field (`entries`). A column takes
all the values with its name and leaves the others to the columns behind it (`pushAll_cons`), so the first
column of a name takes the values of all fields with that name, and the others stay empty
(`getElem?_ofTable`). Each column goes into the script with its name and a list that denotes its values
(`textInput_lists`). So, if the names are distinct, the lists in the script are those of the fields
(`table_transposed`); if they are not, the lists of a table without gaps differ in length
(`columns_even_iff_distinct`).
-/

namespace Flowscript.Rule

/-- The names of the fields that have one. -/
def fieldNames (fields : List (Option String)) : List String :=
  fields.filterMap fun field => field

/-- What a record has for the columns: its cells, each with the name of its field. -/
def entries (fields : List (Option String)) (cells : List String) : List (String × String) :=
  (fields.zip cells).filterMap fun (field, value) => field.map (·, value)

/-- What the records have for the columns, one after the other. -/
def allEntries (fields : List (Option String)) (records : List Element) : List (String × String) :=
  records.flatMap fun r => entries fields (recordCells r)

/-- The values with this name, in their order. -/
def valuesOf (name : String) (es : List (String × String)) : List String :=
  (es.filter (·.1 = name)).map Prod.snd

/-- Each record has a cell for each field. -/
def Rectangular (config : Element) : Prop :=
  ∀ r ∈ tableRecords config, (r.childrenNamed "c").length = (tableFields config).length

instance (config : Element) : Decidable (Rectangular config) :=
  inferInstanceAs (Decidable (∀ r ∈ tableRecords config, _ = _))

/-- The named fields in their order, each with the texts of the cells at its position, record by record. A
record without a cell there has nothing for the field. -/
def transposed (fields : List (Option String)) (records : List Element) : Columns :=
  fields.zipIdx.filterMap fun (field, i) => field.map fun name =>
    (name, records.filterMap fun r =>
      ((r.childrenNamed "c")[i]?).map fun cell => cell.nonemptyText.getD "")

/-- The statement that makes a frame of columns, each with a name and the literal of a list. -/
def tableText (frame : String) (names lists : List String) : String :=
  frame ++ " = pd.DataFrame(\x7b\n" ++
    String.intercalate ",\n" (List.zipWith (fun name list => "    \"" ++ name ++ "\": " ++ list) names lists) ++
    "\n\x7d)"

variable {name : String} {fields : List (Option String)} {records : List Element} {cells : List String}
  {i : Nat}

/-! ## Values by their names -/

/-- A value counts for its own name only. -/
lemma valuesOf_cons (name other value : String) (es : List (String × String)) :
    valuesOf name ((other, value) :: es) =
      if other = name then value :: valuesOf name es else valuesOf name es := by
  rw [valuesOf, List.filter_cons]
  split
  · next same =>
    rw [if_pos (of_decide_eq_true same)]
    rfl
  · next differ =>
    rw [if_neg (by simpa using differ)]
    rfl

/-- Without the values of one name, the other names have the same values. -/
lemma valuesOf_filter (name other : String) (es : List (String × String)) :
    valuesOf name (es.filter (·.1 ≠ other)) = if name = other then [] else valuesOf name es := by
  rw [valuesOf, List.filter_filter]
  split
  · next same =>
    subst same
    simp
  · next differ =>
    have keep : es.filter (fun e => decide (e.1 = name) && decide (e.1 ≠ other)) =
        es.filter (·.1 = name) := by
      refine List.filter_congr fun e _ => ?_
      by_cases h : e.1 = name
      · simp [h, differ]
      · simp [h]
    rw [keep, valuesOf]

/-- The values of several runs come one after the other. -/
lemma valuesOf_flatMap {α : Type} (name : String) (f : α → List (String × String)) (xs : List α) :
    valuesOf name (xs.flatMap f) = xs.flatMap fun x => valuesOf name (f x) := by
  simp only [valuesOf, List.filter_flatMap, List.map_flatMap]

/-- A name has as many values as entries. -/
lemma length_valuesOf (name : String) (es : List (String × String)) :
    (valuesOf name es).length = (es.map Prod.fst).count name := by
  rw [valuesOf, List.length_map, ← List.countP_eq_length_filter, List.count, List.countP_map]
  rfl

/-! ## Columns -/

/-- Names are distinct if none of them stands among those before it. -/
lemma nodup_iff_not_mem_take {names : List String} :
    names.Nodup ↔ ∀ j name, names[j]? = some name → name ∉ names.take j := by
  rw [List.nodup_iff_getElem?_ne_getElem?]
  constructor
  · intro differ j name h earlier
    obtain ⟨k, lt, e⟩ := List.mem_take_iff_getElem.1 earlier
    obtain ⟨hj, -⟩ := List.getElem?_eq_some_iff.1 h
    have same : names[k]? = some name := List.getElem?_eq_some_iff.2 ⟨by omega, e⟩
    exact differ k j (by omega) hj (same.trans h.symm)
  · intro new k j lt hj same
    have at_j : names[j]? = some names[j] := List.getElem?_eq_getElem hj
    obtain ⟨hk, e⟩ := List.getElem?_eq_some_iff.1 (same.trans at_j)
    exact new j _ at_j (List.mem_take_iff_getElem.2 ⟨k, by omega, e⟩)

namespace Columns

/-- The literals of the columns' values. -/
def lists (columns : Columns) : List String :=
  columns.map fun column => Statement.listLiteral column.2

/-- Adds values to the columns with their names, one after the other. -/
def pushAll (columns : Columns) (es : List (String × String)) : Columns :=
  es.foldl (fun columns e => columns.push e.1 e.2) columns

/-- The cells of a record are added as its entries are. -/
lemma addCells_eq (columns : Columns) (fields : List (Option String)) (cells : List String) :
    columns.addCells fields cells = columns.pushAll (entries fields cells) := by
  rw [addCells, pushAll, entries, List.foldl_filterMap]
  congr 1
  funext columns e
  obtain ⟨field, value⟩ := e
  cases field with
  | none => rfl
  | some name => rfl

/-- The columns of a table begin empty, with all the entries added one after the other. -/
lemma ofTable_eq (fields : List (Option String)) (records : List Element) :
    ofTable fields records = pushAll ((fieldNames fields).map (·, [])) (allEntries fields records) := by
  rw [ofTable, pushAll, allEntries, List.foldl_flatMap]
  congr 1
  funext columns r
  exact columns.addCells_eq fields (recordCells r)

/-- A column takes all the values with its name, and leaves the others to the columns behind it. -/
lemma pushAll_cons (name : String) (values : List String) (columns : Columns)
    (es : List (String × String)) :
    pushAll ((name, values) :: columns) es =
      (name, values ++ valuesOf name es) :: pushAll columns (es.filter (·.1 ≠ name)) := by
  induction es generalizing values columns with
  | nil => simp [pushAll, valuesOf]
  | cons e es ih =>
    obtain ⟨other, value⟩ := e
    rw [pushAll, List.foldl_cons, ← pushAll, push]
    split
    · next same =>
      subst same
      rw [ih, valuesOf_cons, if_pos rfl]
      simp
    · next differ =>
      rw [ih, valuesOf_cons, if_neg (Ne.symm differ)]
      simp [Ne.symm differ, pushAll]

/-- Of several columns with one name, the first takes all the values with this name. -/
lemma getElem?_pushAll (names : List String) (es : List (String × String)) (j : Nat) :
    (pushAll (names.map (·, [])) es)[j]? =
      names[j]?.map fun name => (name, if name ∈ names.take j then [] else valuesOf name es) := by
  induction names generalizing es j with
  | nil =>
    have nothing : pushAll [] es = [] := by
      induction es with
      | nil => rfl
      | cons e es ih => exact ih
    simp [nothing]
  | cons first names ih =>
    rw [List.map_cons, pushAll_cons]
    cases j with
    | zero => simp
    | succ j =>
      rw [List.getElem?_cons_succ, List.getElem?_cons_succ, ih]
      congr 1
      funext name
      rw [valuesOf_filter, List.take_succ_cons]
      by_cases same : name = first
      · simp [same]
      · simp [same]

/-- The first column of a name has all its values, and the further ones are empty. -/
lemma getElem?_ofTable (fields : List (Option String)) (records : List Element) (j : Nat) :
    (ofTable fields records)[j]? = (fieldNames fields)[j]?.map fun name =>
      (name, if name ∈ (fieldNames fields).take j then []
        else valuesOf name (allEntries fields records)) := by
  rw [ofTable_eq, getElem?_pushAll]

/-- The columns have the names of the fields, in their order. -/
lemma map_fst_ofTable (fields : List (Option String)) (records : List Element) :
    (ofTable fields records).map Prod.fst = fieldNames fields := by
  apply List.ext_getElem?
  intro j
  rw [List.getElem?_map, getElem?_ofTable, Option.map_map]
  exact Option.map_id'

/-- With distinct names, each column has all the values with its name. -/
lemma ofTable_of_nodup (distinct : (fieldNames fields).Nodup) :
    ofTable fields records = (fieldNames fields).map fun name =>
      (name, valuesOf name (allEntries fields records)) := by
  apply List.ext_getElem?
  intro j
  rw [getElem?_ofTable, List.getElem?_map]
  cases h : (fieldNames fields)[j]? with
  | none => rfl
  | some name =>
    have new := nodup_iff_not_mem_take.1 distinct j name h
    rw [Option.map_some, if_neg new]
    rfl

end Columns

/-! ## Records -/

/-- A cell under a named field is an entry. -/
lemma entries_some (name : String) (fields : List (Option String)) (value : String)
    (cells : List String) :
    entries (some name :: fields) (value :: cells) = (name, value) :: entries fields cells :=
  rfl

/-- A record has at most one entry for each named field, in their order. -/
lemma map_fst_entries_sublist (fields : List (Option String)) (cells : List String) :
    ((entries fields cells).map Prod.fst).Sublist (fieldNames fields) := by
  induction fields generalizing cells with
  | nil => exact .slnil
  | cons field fields ih =>
    cases cells with
    | nil => exact List.nil_sublist _
    | cons value cells =>
      cases field with
      | none => exact ih cells
      | some name => exact (ih cells).cons_cons name

/-- A record with a cell for each field has an entry for each named field. -/
lemma map_fst_entries (h : cells.length = fields.length) :
    (entries fields cells).map Prod.fst = fieldNames fields := by
  induction fields generalizing cells with
  | nil => rfl
  | cons field fields ih =>
    cases cells with
    | nil => cases h
    | cons value cells =>
      have rest := ih (Nat.succ.inj h)
      cases field with
      | none => exact rest
      | some name => exact congrArg (name :: ·) rest

/-- A cell reaches the column of its field if no other field has the name. -/
lemma valuesOf_entries (distinct : (fieldNames fields).Nodup) (field : fields[i]? = some (some name)) :
    valuesOf name (entries fields cells) = cells[i]?.toList := by
  induction fields generalizing i cells with
  | nil => cases field
  | cons first fields ih =>
    cases cells with
    | nil => rfl
    | cons value cells =>
      cases first with
      | none =>
        cases i with
        | zero => cases field
        | succ i => exact ih distinct field
      | some other =>
        obtain ⟨new, distinct⟩ := List.nodup_cons.1 distinct
        cases i with
        | zero =>
          cases field
          have none : valuesOf name (entries fields cells) = [] := by
            rw [← List.length_eq_zero_iff, length_valuesOf, List.count_eq_zero]
            exact fun later => new ((map_fst_entries_sublist fields cells).subset later)
          rw [entries_some, valuesOf_cons, if_pos rfl, none]
          rfl
        | succ i =>
          have later : name ∈ fieldNames fields :=
            List.mem_filterMap.2 ⟨some name, List.mem_of_getElem? field, rfl⟩
          have differ : other ≠ name := fun same => new (same ▸ later)
          rw [entries_some, valuesOf_cons, if_neg differ]
          exact ih distinct field

/-- The values of a field are the cells at its position. -/
lemma valuesOf_records (distinct : (fieldNames fields).Nodup)
    (field : fields[i]? = some (some name)) :
    valuesOf name (allEntries fields records) =
      records.filterMap fun r =>
        ((r.childrenNamed "c")[i]?).map fun cell => cell.nonemptyText.getD "" := by
  rw [allEntries, valuesOf_flatMap, List.filterMap_eq_flatMap_toList]
  refine List.flatMap_congr fun r _ => ?_
  rw [valuesOf_entries distinct field, recordCells, List.getElem?_map]

/-- With distinct names, the columns are the fields of the records. -/
lemma ofTable_eq_transposed (distinct : (fieldNames fields).Nodup) :
    Columns.ofTable fields records = transposed fields records := by
  have names : fieldNames fields = fields.zipIdx.filterMap Prod.fst := by
    conv_lhs => rw [← List.zipIdx_map_fst 0 fields, fieldNames, List.filterMap_map]
    rfl
  rw [Columns.ofTable_of_nodup distinct, transposed, names, List.map_filterMap]
  refine List.filterMap_congr fun p h => ?_
  obtain ⟨field, i⟩ := p
  cases field with
  | none => rfl
  | some name =>
    have field : fields[i]? = some (some name) := List.mk_mem_zipIdx_iff_getElem?.1 h
    exact congrArg (fun values => some (name, values)) (valuesOf_records distinct field)

/-- In a table without gaps, a name has a value for each record and each field with this name. -/
lemma length_valuesOf_records (name : String)
    (full : ∀ r ∈ records, (recordCells r).length = fields.length) :
    (valuesOf name (allEntries fields records)).length =
      records.length * (fieldNames fields).count name := by
  have names : records.flatMap (fun r => (entries fields (recordCells r)).map Prod.fst) =
      records.flatMap fun _ => fieldNames fields :=
    List.flatMap_congr fun r hr => map_fst_entries (full r hr)
  rw [length_valuesOf, allEntries, List.map_flatMap, names, List.count_flatMap]
  simp [Function.comp_def]

/-- In a table without gaps, the length of a column is told by its name and by the names before it. -/
lemma length_ofTable (full : ∀ r ∈ records, (recordCells r).length = fields.length) {j : Nat}
    {column : String × List String} (h : (Columns.ofTable fields records)[j]? = some column) :
    column.2.length = if column.1 ∈ (fieldNames fields).take j then 0
      else records.length * (fieldNames fields).count column.1 := by
  rw [Columns.getElem?_ofTable] at h
  obtain ⟨name, -, rfl⟩ := Option.map_eq_some_iff.1 h
  split
  · rfl
  · exact length_valuesOf_records name full

/-- A second column of a name stays empty, so columns are only even if there is none. -/
lemma even_iff (full : ∀ r ∈ records, (recordCells r).length = fields.length) :
    (∀ column ∈ Columns.ofTable fields records, column.2.length = records.length) ↔
      records = [] ∨ (fieldNames fields).Nodup := by
  constructor
  · intro even
    cases records with
    | nil => exact .inl rfl
    | cons r records =>
      refine .inr (nodup_iff_not_mem_take.2 fun j name h earlier => ?_)
      have column := Columns.getElem?_ofTable fields (r :: records) j
      rw [h, Option.map_some, if_pos earlier] at column
      cases even _ (List.mem_of_getElem? column)
  · intro h column mem
    obtain ⟨j, hj⟩ := List.mem_iff_getElem?.1 mem
    rw [length_ofTable full hj]
    rcases h with rfl | distinct
    · simp
    · have name : (fieldNames fields)[j]? = some column.1 := by
        rw [← Columns.map_fst_ofTable fields records, List.getElem?_map, hj, Option.map_some]
      rw [if_neg (nodup_iff_not_mem_take.1 distinct j _ name),
        List.count_eq_one_of_mem distinct (List.mem_of_getElem? name), Nat.mul_one]

/-! ## The table of a node -/

/-- The way round the sorting into columns leads to the same column. -/
lemma ofTable_of_singleCell {value : String} (h : singleCell? fields records = some (name, value)) :
    Columns.ofTable fields records = [(name, [value])] := by
  unfold singleCell? at h
  split at h
  · next name' record =>
    obtain ⟨value', found, e⟩ := Option.map_eq_some_iff.1 h
    cases e
    obtain ⟨cell, first, text⟩ := Option.bind_eq_some_iff.1 found
    rw [Element.child, ← List.head?_filter] at first
    obtain ⟨others, cells⟩ := List.head?_eq_some_iff.1 first
    have row : recordCells record = value :: others.map fun cell => cell.nonemptyText.getD "" := by
      rw [recordCells, Element.childrenNamed, cells, List.map_cons, text]
      rfl
    have only : entries [some name] (recordCells record) = [(name, value)] := by
      rw [row]
      rfl
    rw [Columns.ofTable_eq, allEntries, List.flatMap_singleton, only]
    simp [fieldNames, Columns.pushAll, Columns.push]
  · cases h

/-- The frame of one cell is that of one column with one value. -/
lemma cellLiteral_eq (name value : String) :
    cellLiteral name value = Columns.literal [(name, [value])] := by
  have mark : "pd.DataFrame(\x7b\n    \"" = "pd.DataFrame(\x7b\n" ++ "    \"" := rfl
  unfold cellLiteral Columns.literal
  rw [List.map_singleton, String.intercalate_singleton, Columns.definition, mark]
  simp only [String.append_assoc]

/-- The rule sorts the cells into columns, whatever the table looks like. -/
lemma textInput_eq (c : Context) :
    textInput c = .bound c.output [Statement.assign c.output
      (Columns.ofTable (tableFields c.config) (tableRecords c.config)).literal] := by
  rw [textInput]
  cases h : singleCell? (tableFields c.config) (tableRecords c.config) with
  | none => rfl
  | some cell => rw [ofTable_of_singleCell h, ← cellLiteral_eq]

/-- A frame of columns is written with their names and the literals of their values. -/
lemma assign_literal (frame : String) (columns : Columns) :
    Statement.assign frame columns.literal =
      tableText frame (columns.map Prod.fst) columns.lists := by
  have lines : columns.map Columns.definition =
      List.zipWith (fun name list => "    \"" ++ name ++ "\": " ++ list) (columns.map Prod.fst)
        columns.lists := by
    rw [Columns.lists, List.zipWith_map, List.zipWith_self]
    rfl
  have mark : " = pd.DataFrame(\x7b\n" = " = " ++ "pd.DataFrame(\x7b\n" := rfl
  unfold Statement.assign Columns.literal tableText
  rw [lines, mark]
  simp only [String.append_assoc]

/-- Read by the rules of the script, the lists denote the values of the columns. -/
lemma map_denoted?_lists (columns : Columns) :
    columns.lists.map Statement.denoted? = columns.map fun column => some column.2 := by
  rw [Columns.lists, List.map_map]
  exact List.map_congr_left fun column _ => Statement.denoted?_listLiteral column.2

/-- The statement of a table has the names of its fields and the lists of its columns. -/
lemma textInput_lists (c : Context) :
    textInput c = {
      statements := [tableText c.output (fieldNames (tableFields c.config))
        (Columns.ofTable (tableFields c.config) (tableRecords c.config)).lists]
      output := some c.output
      diagnostics := [] } := by
  rw [textInput_eq, assign_literal, Columns.map_fst_ofTable]
  rfl

/-- The list of a column has as many values as the column. -/
lemma length_denoted? (full : ∀ r ∈ records, (recordCells r).length = fields.length) {j : Nat}
    {list : String} (hn : (fieldNames fields)[j]? = some name)
    (hl : (Columns.ofTable fields records).lists[j]? = some list) :
    (Statement.denoted? list).map List.length =
      some (if name ∈ (fieldNames fields).take j then 0
        else records.length * (fieldNames fields).count name) := by
  rw [Columns.lists, List.getElem?_map] at hl
  obtain ⟨column, hc, rfl⟩ := Option.map_eq_some_iff.1 hl
  rw [← Columns.map_fst_ofTable fields records, List.getElem?_map, hc] at hn
  cases hn
  rw [Statement.denoted?_listLiteral, Option.map_some, length_ofTable full hc]

/-- The lists are even just when the columns are. -/
lemma even_lists_iff (columns : Columns) (n : Nat) :
    (∀ list ∈ columns.lists, (Statement.denoted? list).map List.length = some n) ↔
      ∀ column ∈ columns, column.2.length = n := by
  rw [Columns.lists, List.forall_mem_map]
  refine forall₂_congr fun column _ => ?_
  rw [Statement.denoted?_listLiteral, Option.map_some, Option.some.injEq]

/-- A table with these fields and these rows of cells. -/
def tabled (fields : List (List (String × String))) (rows : List (List Element)) : Context where
  node := {
    id := "t"
    plugin := "TextInput"
    properties := {
      name := "Properties"
      children := [{
        name := "Configuration"
        children := [
          { name := "Fields", children := fields.map fun attributes => { name := "Field", attributes } },
          { name := "Data", children := rows.map fun children => { name := "r", children } }] }] } }
  bindings := { stem := "df_" }
  options := {}
  input := "src"
  output := "dst"

/-- Whatever the table, the rule writes the frame that comes of sorting its cells into columns, without an
exception for a table of one cell, and the lists in the statement denote the values of the columns. If the
names are distinct, the columns are the named fields in their order, each with the cells at its position,
record by record. -/
theorem table_transposed (c : Context) :
    let fields := tableFields c.config
    let columns := Columns.ofTable fields (tableRecords c.config)
    textInput c = .bound c.output [Statement.assign c.output columns.literal] ∧
    (∃ lists,
      textInput c = {
        statements := [tableText c.output (columns.map Prod.fst) lists]
        output := some c.output
        diagnostics := [] } ∧
      lists.map Statement.denoted? = columns.map fun column => some column.2) ∧
    ((fieldNames fields).Nodup → columns = transposed fields (tableRecords c.config)) := by
  intro fields columns
  refine ⟨textInput_eq c, ⟨columns.lists, ?_, map_denoted?_lists columns⟩, ofTable_eq_transposed⟩
  rw [Columns.map_fst_ofTable]
  exact textInput_lists c

/-- Two named fields with one in between that has no name, and records with too many cells and too few. -/
def frayed : Context :=
  tabled [[("name", "City")], [("name", "")], [("name", "Zip")]] [
    [{ name := "c", text := some "Bonn" }, { name := "c", text := some "x" }, { name := "c" },
      { name := "c", text := some "y" }],
    [{ name := "c", text := some "" }],
    [{ name := "d", text := some "z" }, { name := "c", text := some "Ulm" }, { name := "c" },
      { name := "c", text := some "89073" }]]

/-- The cells without a named field are dropped, and a record that is too short has nothing for the second
column. -/
theorem table_transposed_frayed :
    (fieldNames (tableFields frayed.config)).Nodup ∧
    transposed (tableFields frayed.config) (tableRecords frayed.config) =
      [("City", ["Bonn", "", "Ulm"]), ("Zip", ["", "89073"])] ∧
    textInput frayed = {
      statements := ["dst = pd.DataFrame(\x7b\n    \"City\": [\"Bonn\",\"\",\"Ulm\"],\n" ++
        "    \"Zip\": [\"\",\"89073\"]\n\x7d)"]
      output := some "dst"
      diagnostics := [] } := by
  have distinct : (fieldNames (tableFields frayed.config)).Nodup := by decide
  have fields : transposed (tableFields frayed.config) (tableRecords frayed.config) =
      [("City", ["Bonn", "", "Ulm"]), ("Zip", ["", "89073"])] := by
    decide +kernel
  obtain ⟨frame, -, columns⟩ := table_transposed frayed
  rw [columns distinct, fields] at frame
  refine ⟨distinct, fields, frame.trans ?_⟩
  decide +kernel

/-- In a table with a cell for each field in each record, the list of the first column of a name denotes a
value for each record and each field with this name, and the lists of all further columns of the name are
empty. So the lists in the statement have as many values as there are records just when there are no records
or the names are distinct. -/
theorem columns_even_iff_distinct (c : Context) (rect : Rectangular c.config) :
    let names := fieldNames (tableFields c.config)
    let records := tableRecords c.config
    let columns := Columns.ofTable (tableFields c.config) records
    textInput c = .bound c.output [Statement.assign c.output columns.literal] ∧
    columns.map Prod.fst = names ∧
    ∃ lists,
      textInput c = {
        statements := [tableText c.output names lists]
        output := some c.output
        diagnostics := [] } ∧
      lists.map Statement.denoted? = columns.map (fun column => some column.2) ∧
      (∀ j name list, names[j]? = some name → lists[j]? = some list →
        (Statement.denoted? list).map List.length =
          some (if name ∈ names.take j then 0 else records.length * names.count name)) ∧
      ((∀ list ∈ lists, (Statement.denoted? list).map List.length = some records.length) ↔
        records = [] ∨ names.Nodup) := by
  have full : ∀ r ∈ tableRecords c.config, (recordCells r).length = (tableFields c.config).length := by
    intro r hr
    rw [recordCells, List.length_map, rect r hr]
  intro names records columns
  refine ⟨textInput_eq c, Columns.map_fst_ofTable _ _, columns.lists, textInput_lists c,
    map_denoted?_lists columns, fun j name list => length_denoted? full, ?_⟩
  exact (even_lists_iff columns records.length).trans (even_iff full)

/-- A field without a name between two that have one, and two full records. -/
def brimmed : Context :=
  tabled [[("name", "City")], [], [("name", "Zip")]] [
    [{ name := "c", text := some "Bonn" }, { name := "c", text := some "x" }, { name := "c" }],
    [{ name := "c" }, { name := "c" }, { name := "c", text := some "89073" }]]

/-- The field without a name takes no cell, and the lists have a value for each of the two records. -/
theorem columns_even_iff_distinct_brimmed :
    Rectangular brimmed.config ∧ (tableRecords brimmed.config).length = 2 ∧
    ∃ lists,
      textInput brimmed = {
        statements := [tableText "dst" ["City", "Zip"] lists]
        output := some "dst"
        diagnostics := [] } ∧
      lists.map Statement.denoted? = [some ["Bonn", ""], some ["", "89073"]] ∧
      ∀ list ∈ lists, (Statement.denoted? list).map List.length = some 2 := by
  have rect : Rectangular brimmed.config := by decide
  obtain ⟨-, -, lists, frame, denoted, -, even⟩ := columns_even_iff_distinct brimmed rect
  refine ⟨rect, by decide, lists, frame, denoted.trans (by decide +kernel), even.2 (.inr (by decide))⟩

/-- Two fields with one name, and a record with a cell for each of them. -/
def doubled : Context :=
  tabled [[("name", "A")], [("name", "A")]] [
    [{ name := "c", text := some "1" }, { name := "c", text := some "2" }]]

/-- The first column of the name takes both cells, and the second has none. -/
theorem repeated_name_uneven :
    Rectangular doubled.config ∧ (tableRecords doubled.config).length = 1 ∧
    Columns.ofTable (tableFields doubled.config) (tableRecords doubled.config) =
      [("A", ["1", "2"]), ("A", [])] ∧
    textInput doubled = .bound "dst"
      ["dst = pd.DataFrame(\x7b\n    \"A\": [\"1\",\"2\"],\n    \"A\": []\n\x7d)"] := by
  decide +kernel

end Flowscript.Rule
