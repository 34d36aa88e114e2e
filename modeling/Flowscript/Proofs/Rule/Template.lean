import Flowscript.Proofs.Rule.Literal
import Flowscript.Proofs.Text
import Flowscript.Rule.Template
import Mathlib.Data.List.Forall2
import Mathlib.Data.List.Induction
import Mathlib.Logic.Relation

/-!
# Settings of templates

The settings of a template are lines with a key and a value. `Gives` says of a line what it maps, and
`Effective` that a value is that of the last line that maps its key; `columnOf?_eq_some` ties this to the
reader of the settings. Only the lines of a key itself have a say in its value, so lines with different keys
may change places (`columnOf?_of_exchanged`). `great_arcs_last_mapping` puts this together with the texts
that the template makes.
-/

namespace Flowscript

/-- The name of a file, as it is or behind a folder and a slash of either kind. -/
def IsFile (name file : String) : Prop :=
  name = file ∨ ∃ folder, name = folder ++ "/" ++ file ∨ name = folder ++ "\\" ++ file

namespace Rule

/-- The element that the mappings are in. -/
def HoldsPoints (e : Element) : Prop :=
  e.name = "Value" ∧ e.attr "name" = some "Input.Points"

instance (e : Element) : Decidable (HoldsPoints e) :=
  inferInstanceAs (Decidable (_ ∧ _))

/-- What is in an element: its CDATA, or its text if there is no CDATA. -/
def content (e : Element) : String :=
  if e.cdata.getD "" = "" then e.text.getD "" else e.cdata.getD ""

/-- The text with the mappings is in the first element that holds them, and empty if there is none. -/
inductive PointsText (config : Element) : String → Prop where
  | held {xs ys : List Element} {e : Element} :
    config.children = xs ++ e :: ys →
    (∀ e ∈ xs, ¬ HoldsPoints e) →
    HoldsPoints e →
    PointsText config (content e)
  | absent :
    (∀ e ∈ config.children, ¬ HoldsPoints e) →
    PointsText config ""

/-- The lines of a text, without line feeds and without carriage returns before them. -/
def settingLines (text : String) : List (List Char) :=
  (text.toList.splitOn '\n').map Text.dropReturn

/-- The line maps the key to the value: they stand before and behind its first equals sign, with nothing but
blanks around them, and neither is empty. -/
def Gives (line : List Char) (key value : String) : Prop :=
  key ≠ "" ∧ value ≠ "" ∧ ∃ before after, line = before ++ '=' :: after ∧ '=' ∉ before ∧
    Text.trim before = key.toList ∧ Text.trim after = value.toList

/-- The value that the last line for the key maps it to. -/
def Effective (lines : List (List Char)) (key value : String) : Prop :=
  ∃ xs line ys, lines = xs ++ line :: ys ∧ Gives line key value ∧ ∀ l ∈ ys, ∀ v, ¬ Gives l key v

/-- Two neighbouring lines that do not map the same key have changed places. -/
def Exchanged (lines lines' : List (List Char)) : Prop :=
  ∃ xs l l' ys, lines = xs ++ l :: l' :: ys ∧ lines' = xs ++ l' :: l :: ys ∧
    ∀ key v v', Gives l key v → ¬ Gives l' key v'

variable {config : Element} {line : List Char} {lines lines' : List (List Char)}
  {name text key value : String}

/-! ## Where the mappings are -/

/-- The folders in front of a file make no difference. -/
lemma lookup_of_isFile (file : IsFile name "GreatArcs.yxmc") :
    Template.lookup name = some .greatArcs := by
  have plain : ∀ c ∈ "GreatArcs.yxmc".toList, (c == '/' || c == '\\') = false := by simp
  have last : Text.lastSegment (fun c => c == '/' || c == '\\') name.toList =
      "GreatArcs.yxmc".toList := by
    rcases file with rfl | ⟨folder, rfl | rfl⟩
    · decide +kernel
    · have chars : (folder ++ "/" ++ "GreatArcs.yxmc").toList =
          folder.toList ++ '/' :: "GreatArcs.yxmc".toList := by simp
      rw [chars]
      exact Text.lastSegment_append_cons (by decide) folder.toList plain
    · have chars : (folder ++ "\\" ++ "GreatArcs.yxmc").toList =
          folder.toList ++ '\\' :: "GreatArcs.yxmc".toList := by simp
      rw [chars]
      exact Text.lastSegment_append_cons (by decide) folder.toList plain
  rw [Template.lookup, last]
  decide +kernel

/-- The first text counts if it is not empty, and else the second. -/
lemma nonempty_orElse_getD (first second : Option String) :
    (nonempty first <|> nonempty second).getD "" =
      if first.getD "" = "" then second.getD "" else first.getD "" := by
  have filled : ∀ value : Option String, (nonempty value).getD "" = value.getD "" := by
    intro value
    cases value with
    | none => rfl
    | some s => by_cases h : s = "" <;> simp [nonempty, Option.filter, h]
  cases first with
  | none => exact filled second
  | some s =>
    by_cases h : s = ""
    · simpa [nonempty, Option.filter, h] using filled second
    · simp [nonempty, Option.filter, h]

/-- The text with the mappings is that of the first element that holds them. -/
lemma pointText_eq (config : Element) :
    pointText config = ((config.children.find? HoldsPoints).map content).getD "" := by
  have same : (fun e : Element => decide (decide (e.name = "Value") = true ∧
      decide (e.attr "name" = some "Input.Points") = true)) = fun e => decide (HoldsPoints e) := by
    funext e
    rw [decide_eq_decide, decide_eq_true_eq, decide_eq_true_eq, HoldsPoints]
  rw [pointText, Element.childrenNamed, List.find?_filter, same]
  cases config.children.find? HoldsPoints with
  | none => rfl
  | some e => exact nonempty_orElse_getD e.cdata e.text

/-- The text of a configuration is determined by what holds the mappings. -/
lemma pointsText_iff : PointsText config text ↔ pointText config = text := by
  rw [pointText_eq]
  constructor
  · intro h
    cases h with
    | @held xs ys e split before holds =>
      have found : config.children.find? HoldsPoints = some e := List.find?_eq_some_iff_append.2
        ⟨decide_eq_true holds, xs, ys, split, fun e he => by simpa using before e he⟩
      rw [found]
      rfl
    | absent nowhere =>
      have found : config.children.find? HoldsPoints = none :=
        List.find?_eq_none.2 fun e he => by simpa using nowhere e he
      rw [found]
      rfl
  · rintro rfl
    cases h : config.children.find? HoldsPoints with
    | none => exact .absent fun e he => by simpa using List.find?_eq_none.1 h e he
    | some e =>
      obtain ⟨holds, xs, ys, split, before⟩ := List.find?_eq_some_iff_append.1 h
      exact .held split (fun e he => by simpa using before e he) (of_decide_eq_true holds)

/-! ## Mappings -/

/-- The reader of a line finds what the line gives. -/
lemma mapping?_eq_some : mapping? line = some (key, value) ↔ Gives line key value := by
  simp only [mapping?, Option.bind_eq_bind, Option.bind_eq_some_iff, Prod.exists, Text.cutFirst_eq_some,
    Option.ite_none_left_eq_some, Bool.or_eq_true, not_or, Option.pure_def, Option.some.injEq,
    Prod.mk.injEq, List.isEmpty_iff, ← String.toList_inj, String.toList_ofList]
  constructor
  · rintro ⟨before, after, ⟨split, first⟩, ⟨keyed, valued⟩, hk, hv⟩
    rw [hk, String.toList_eq_nil_iff] at keyed
    rw [hv, String.toList_eq_nil_iff] at valued
    exact ⟨keyed, valued, before, after, split, first, hk, hv⟩
  · rintro ⟨keyed, valued, before, after, split, first, hk, hv⟩
    refine ⟨before, after, ⟨split, first⟩, ⟨?_, ?_⟩, hk, hv⟩
    · rwa [hk, String.toList_eq_nil_iff]
    · rwa [hv, String.toList_eq_nil_iff]

/-- A carriage return at the end of a line is a blank like others. -/
lemma gives_dropReturn : Gives (Text.dropReturn line) key value ↔ Gives line key value := by
  rcases Text.dropReturn_cases line with same | eq
  · rw [same]
  · constructor
    · rintro ⟨keyed, valued, before, after, split, first, hk, hv⟩
      refine ⟨keyed, valued, before, after ++ ['\r'], ?_, first, hk, ?_⟩
      · rw [eq, split]
        simp
      · rw [Text.trim_append_blank rfl, hv]
    · rintro ⟨keyed, valued, before, after, split, first, hk, hv⟩
      rcases List.eq_nil_or_concat after with rfl | ⟨after, x, rfl⟩
      · exact absurd (String.toList_eq_nil_iff.1 hv.symm) valued
      · have whole : Text.dropReturn line ++ ['\r'] = (before ++ '=' :: after) ++ [x] := by
          rw [← eq, split]
          simp
        obtain ⟨front, last⟩ := List.append_inj' whole rfl
        obtain rfl : '\r' = x := List.singleton_inj.1 last
        refine ⟨keyed, valued, before, after, front, first, hk, ?_⟩
        rw [← hv, List.concat_eq_append, Text.trim_append_blank rfl]

/-- So it makes no difference to the reader. -/
lemma mapping?_dropReturn (line : List Char) : mapping? (Text.dropReturn line) = mapping? line := by
  refine Option.ext fun e => ?_
  obtain ⟨key, value⟩ := e
  rw [mapping?_eq_some, mapping?_eq_some, gives_dropReturn]

/-- The mappings of a text are those of its lines. -/
lemma mappings_eq (text : String) : mappings text = (settingLines text).filterMap mapping? := by
  rw [mappings, Text.filterMap_lines rfl mapping?_dropReturn, settingLines, List.filterMap_map]
  refine List.filterMap_congr fun line _ => ?_
  exact (mapping?_dropReturn line).symm

/-- The value that a line maps the key to, if it does. -/
def valueFor? (key : String) (line : List Char) : Option String :=
  (mapping? line).bind fun e => if key == e.1 then some e.2 else none

/-- A line has a value for a key if it gives one. -/
lemma valueFor?_eq_some : valueFor? key line = some value ↔ Gives line key value := by
  rw [valueFor?, Option.bind_eq_some_iff]
  constructor
  · rintro ⟨⟨k, v⟩, read, found⟩
    rw [Option.ite_none_right_eq_some, beq_iff_eq, Option.some.injEq] at found
    obtain ⟨rfl, rfl⟩ := found
    exact mapping?_eq_some.1 read
  · intro gives
    refine ⟨(key, value), mapping?_eq_some.2 gives, ?_⟩
    rw [beq_self_eq_true, if_pos rfl]

/-- A line has no value for a key if it gives none. -/
lemma valueFor?_eq_none : valueFor? key line = none ↔ ∀ v, ¬ Gives line key v := by
  rw [Option.eq_none_iff_forall_ne_some]
  exact forall_congr' fun v => not_congr valueFor?_eq_some

/-- The value of a field is looked for from the last line to the first. -/
lemma columnOf?_filterMap (lines : List (List Char)) (key : String) :
    columnOf? (lines.filterMap mapping?) key = lines.reverse.findSome? (valueFor? key) := by
  rw [columnOf?, ← List.filterMap_reverse, List.lookup_eq_findSome?]
  induction lines.reverse with
  | nil => rfl
  | cons line lines ih =>
    rw [List.filterMap_cons, List.findSome?_cons, ← ih, valueFor?]
    cases mapping? line with
    | none => rfl
    | some e => rw [List.findSome?_cons, Option.bind_some]

/-- The column of a field is the effective value of its key. -/
lemma columnOf?_eq_some :
    columnOf? (mappings text) key = some value ↔ Effective (settingLines text) key value := by
  rw [mappings_eq, columnOf?_filterMap, List.findSome?_eq_some_iff, Effective]
  simp only [valueFor?_eq_some, valueFor?_eq_none]
  constructor
  · rintro ⟨ys, line, xs, split, gives, later⟩
    refine ⟨xs.reverse, line, ys.reverse, ?_, gives, fun l hl => later l (List.mem_reverse.1 hl)⟩
    rw [← List.reverse_reverse (settingLines text), split]
    simp
  · rintro ⟨xs, line, ys, split, gives, later⟩
    refine ⟨ys.reverse, line, xs.reverse, ?_, gives, fun l hl => later l (List.mem_reverse.1 hl)⟩
    rw [split]
    simp

/-- Lines that do not map the same key may change places. -/
lemma columnOf?_of_exchanged (h : Exchanged lines lines') (key : String) :
    columnOf? (lines.filterMap mapping?) key = columnOf? (lines'.filterMap mapping?) key := by
  obtain ⟨xs, l, l', ys, rfl, rfl, apart⟩ := h
  -- At most one of the two lines maps this key, so it does not matter which is asked first.
  have swap : [l', l].findSome? (valueFor? key) = [l, l'].findSome? (valueFor? key) := by
    cases h : valueFor? key l with
    | none => cases h' : valueFor? key l' <;> simp [h, h']
    | some v =>
      have none : valueFor? key l' = none :=
        valueFor?_eq_none.2 fun v' => apart key v v' (valueFor?_eq_some.1 h)
      simp [h, none]
  have turned : ∀ a b, (xs ++ a :: b :: ys).reverse = ys.reverse ++ ([b, a] ++ xs.reverse) := by simp
  simp only [columnOf?_filterMap, turned, List.findSome?_append, swap]

/-- They may change places again and again. -/
lemma columnOf?_of_rearranged (h : Relation.ReflTransGen Exchanged lines lines') (key : String) :
    columnOf? (lines.filterMap mapping?) key = columnOf? (lines'.filterMap mapping?) key := by
  induction h with
  | refl => rfl
  | tail _ step ih => rw [ih, columnOf?_of_exchanged step]

/-! ## The distance between two points -/

section

variable {α β : Type} {f : α → Option β} {a : α} {as : List α} {bs : List β}

/-- A list of options has values for all its items, or none at all. -/
lemma mapM_eq_some_iff :
    as.mapM f = some bs ↔ List.Forall₂ (fun a b => f a = some b) as bs := by
  induction as generalizing bs with
  | nil => simp [eq_comm]
  | cons a as ih =>
    simp only [List.mapM_cons, Option.bind_eq_bind, Option.bind_eq_some_iff, Option.pure_def,
      Option.some.injEq, ih]
    constructor
    · rintro ⟨b, hb, bs, hbs, rfl⟩
      exact .cons hb hbs
    · rintro (_ | ⟨hb, hbs⟩)
      exact ⟨_, hb, _, hbs, rfl⟩

/-- One item without a value leaves the list without values. -/
lemma mapM_eq_none (ha : a ∈ as) (none : f a = none) : as.mapM f = .none := by
  induction as with
  | nil => cases ha
  | cons b as ih =>
    rw [List.mapM_cons]
    rcases List.mem_cons.1 ha with rfl | ha
    · rw [none]
      rfl
    · rw [ih ha]
      cases f b with
      | none => rfl
      | some _ => rfl

end

variable {c c' : Context}

/-- The fields without a column, in their order. -/
def missingFields (text : String) : List String :=
  pointFields.filter fun field => (columnOf? (mappings text) field).isNone

/-- A field is missing if it has no effective value. -/
lemma mem_missingFields {field : String} (hf : field ∈ pointFields) :
    field ∈ missingFields text ↔ ∀ v, ¬ Effective (settingLines text) field v := by
  rw [missingFields, List.mem_filter, Option.isNone_iff_eq_none, Option.eq_none_iff_forall_ne_some]
  simp only [hf, true_and, ne_eq, columnOf?_eq_some]

/-- All fields have columns if all of them have effective values. -/
lemma mapM_columnOf?_eq_some {columns : List String} :
    pointFields.mapM (columnOf? (mappings text)) = some columns ↔
      List.Forall₂ (Effective (settingLines text)) pointFields columns := by
  rw [mapM_eq_some_iff]
  simp only [columnOf?_eq_some]

/-- The statement that adds the distance has the columns of the four fields as its arguments, one below the
other. -/
lemma distance_eq (output latA lonA latB lonB : String) :
    distance output [latA, lonA, latB, lonB] =
      output ++ "['distance'] = np.vectorize(lambda lat1, lon1, lat2, lon2: " ++
        "great_circle((lat1, lon1), (lat2, lon2)).miles)(\n" ++
        "    " ++ output ++ "['" ++ latA ++ "'],\n" ++
        "    " ++ output ++ "['" ++ lonA ++ "'],\n" ++
        "    " ++ output ++ "['" ++ latB ++ "'],\n" ++
        "    " ++ output ++ "['" ++ lonB ++ "']\n)" := by
  have comma : "'],\n" = "']" ++ ",\n" := rfl
  have last : "']\n)" = "']" ++ "\n)" := rfl
  rw [distance, comma, last]
  simp only [argument, List.map_cons, List.map_nil, String.intercalate_cons_cons,
    String.intercalate_singleton, String.append_assoc]

/-- With a column for each field, the distance is added. -/
lemma greatArcs_of_columns {columns : List String}
    (h : List.Forall₂ (Effective (settingLines (pointText c.config))) pointFields columns) :
    greatArcs c = .bound c.output
      ["# Great Circle Distance calculation", c.copy, distance c.output columns] := by
  rw [greatArcs, mapM_columnOf?_eq_some.2 h]

/-- A copy gives the output the copied input. -/
lemma copy_eq (c : Context) : c.copy = c.output ++ " = " ++ c.input ++ ".copy()" := by
  rw [Context.copy, Statement.copy, Statement.assign, String.append_assoc, String.append_assoc,
    String.append_assoc]

/-- With a column missing, there is a copy, and a notice that names the fields without one. -/
lemma greatArcs_of_missing (h : missingFields (pointText c.config) ≠ []) : ∃ notice : Diagnostic,
    greatArcs c = { statements := [c.copy], output := some c.output, diagnostics := [notice] } ∧
    notice.code.text = "W0200" ∧ notice.nodeId = some c.node.id ∧
    notice.message = "Great-circle macro " ++ c.node.id ++ " has no mapping for " ++
      String.intercalate ", " (missingFields (pointText c.config)) := by
  obtain ⟨field, hm⟩ := List.exists_mem_of_ne_nil _ h
  obtain ⟨hf, none⟩ := List.mem_filter.1 hm
  rw [greatArcs, mapM_eq_none hf (Option.isNone_iff_eq_none.1 none)]
  exact ⟨_, rfl, rfl, rfl, rfl⟩

/-- Beside the columns of the fields, only the frames and the id of the node count. -/
lemma greatArcs_congr (id : c'.node.id = c.node.id) (input : c'.input = c.input)
    (output : c'.output = c.output)
    (columns : ∀ field, columnOf? (mappings (pointText c'.config)) field =
      columnOf? (mappings (pointText c.config)) field) : greatArcs c' = greatArcs c := by
  have same : columnOf? (mappings (pointText c'.config)) = columnOf? (mappings (pointText c.config)) :=
    funext columns
  simp only [greatArcs, Context.copy, Context.warning, same, id, input, output]

/-- A template in the file of this name, in whatever folder, takes the last value that the lines of its
settings map each of its four fields to. If all of them have one, it adds the distance between the points and
gives no notice. If not, it only copies its input and is bound all the same, with one notice that lists the
fields without a value. It makes no difference if lines that map different keys change places. -/
theorem great_arcs_last_mapping (name : String) (c : Context) (file : IsFile name "GreatArcs.yxmc") :
    ∃ text missing, PointsText c.config text ∧
      missing.Sublist ["LatitudeA", "LongitudeA", "LatitudeB", "LongitudeB"] ∧
      (∀ field ∈ ["LatitudeA", "LongitudeA", "LatitudeB", "LongitudeB"],
        field ∈ missing ↔ ∀ v, ¬ Effective (settingLines text) field v) ∧
      (∀ latA lonA latB lonB,
        Effective (settingLines text) "LatitudeA" latA → Effective (settingLines text) "LongitudeA" lonA →
        Effective (settingLines text) "LatitudeB" latB → Effective (settingLines text) "LongitudeB" lonB →
        template name c = {
          statements := [
            "# Great Circle Distance calculation",
            c.output ++ " = " ++ c.input ++ ".copy()",
            c.output ++ "['distance'] = np.vectorize(lambda lat1, lon1, lat2, lon2: " ++
              "great_circle((lat1, lon1), (lat2, lon2)).miles)(\n" ++
              "    " ++ c.output ++ "['" ++ latA ++ "'],\n" ++
              "    " ++ c.output ++ "['" ++ lonA ++ "'],\n" ++
              "    " ++ c.output ++ "['" ++ latB ++ "'],\n" ++
              "    " ++ c.output ++ "['" ++ lonB ++ "']\n)"]
          output := some c.output
          diagnostics := [] }) ∧
      (missing ≠ [] → ∃ notice : Diagnostic,
        template name c = {
          statements := [c.output ++ " = " ++ c.input ++ ".copy()"]
          output := some c.output
          diagnostics := [notice] } ∧
        notice.code.text = "W0200" ∧ notice.nodeId = some c.node.id ∧
        notice.message = "Great-circle macro " ++ c.node.id ++ " has no mapping for " ++
          String.intercalate ", " missing) ∧
      ∀ c' text', c'.node.id = c.node.id → c'.input = c.input → c'.output = c.output →
        PointsText c'.config text' →
        Relation.ReflTransGen Exchanged (settingLines text) (settingLines text') →
        template name c' = template name c := by
  have arcs : template name = greatArcs := by rw [template, lookup_of_isFile file]
  rw [arcs, ← copy_eq]
  refine ⟨pointText c.config, missingFields (pointText c.config), pointsText_iff.2 rfl,
    List.filter_sublist, fun field hf => mem_missingFields hf, ?_, greatArcs_of_missing, ?_⟩
  · intro latA lonA latB lonB hlatA hlonA hlatB hlonB
    rw [← distance_eq]
    exact greatArcs_of_columns (.cons hlatA (.cons hlonA (.cons hlatB (.cons hlonB .nil))))
  · intro c' text' id input output held moved
    obtain rfl := pointsText_iff.1 held
    refine greatArcs_congr id input output fun field => ?_
    rw [mappings_eq, mappings_eq, columnOf?_of_rearranged moved]

/-- A node with these mappings in its second value, as text behind an empty CDATA section. -/
def located (points : String) : Context :=
  lone [{ name := "Value", attributes := [("name", "Label")], text := some "LatitudeA=none" },
    { name := "Value", attributes := [("name", "Input.Points")], cdata := some "", text := some points }]

/-- Lines that end in different ways, with an equals sign in one value. The first field is mapped three
times, at last to an empty value. -/
def points : String :=
  "LatitudeA=x\r\nLatitudeB = c\nLongitudeA =b=2\n\n LatitudeA = a\nLongitudeB=d\nLatitudeA=\r"

/-- The same lines, with the first two exchanged. -/
def exchangedPoints : String :=
  "LatitudeB = c\r\nLatitudeA=x\nLongitudeA =b=2\n\n LatitudeA = a\nLongitudeB=d\nLatitudeA=\r"

/-- The second line for the first field counts, since the first comes before it and the third has no value. -/
theorem great_arcs_last_mapping_located :
    IsFile "macros\\geo/GreatArcs.yxmc" "GreatArcs.yxmc" ∧
    Exchanged (settingLines points) (settingLines exchangedPoints) ∧
    template "macros\\geo/GreatArcs.yxmc" (located points) = {
      statements := [
        "# Great Circle Distance calculation",
        "dst = src.copy()",
        "dst['distance'] = np.vectorize(lambda lat1, lon1, lat2, lon2: " ++
          "great_circle((lat1, lon1), (lat2, lon2)).miles)(\n    dst['a'],\n    dst['b=2'],\n" ++
          "    dst['c'],\n    dst['d']\n)"]
      output := some "dst"
      diagnostics := [] } ∧
    template "macros\\geo/GreatArcs.yxmc" (located exchangedPoints) =
      template "macros\\geo/GreatArcs.yxmc" (located points) := by
  have file : IsFile "macros\\geo/GreatArcs.yxmc" "GreatArcs.yxmc" :=
    .inr ⟨"macros\\geo", .inl (by decide)⟩
  obtain ⟨text, -, held, -, -, full, -, moved⟩ := great_arcs_last_mapping _ (located points) file
  have same : text = points := (pointsText_iff.1 held).symm.trans (by decide +kernel)
  subst same
  have held' : PointsText (located exchangedPoints).config exchangedPoints :=
    pointsText_iff.2 (by decide +kernel)
  have exchanged : Exchanged (settingLines points) (settingLines exchangedPoints) := by
    refine ⟨[], "LatitudeA=x".toList, "LatitudeB = c".toList, (settingLines points).drop 2,
      by decide +kernel, by decide +kernel, ?_⟩
    intro key v v' gives gives'
    have read : mapping? "LatitudeA=x".toList = some ("LatitudeA", "x") := by decide +kernel
    have read' : mapping? "LatitudeB = c".toList = some ("LatitudeB", "c") := by decide +kernel
    rw [mapping?_eq_some.2 gives, Option.some.injEq, Prod.mk.injEq] at read
    rw [mapping?_eq_some.2 gives', Option.some.injEq, Prod.mk.injEq] at read'
    exact absurd (read.1.symm.trans read'.1) (by decide)
  have columns : ∀ p ∈ [("LatitudeA", "a"), ("LongitudeA", "b=2"), ("LatitudeB", "c"), ("LongitudeB", "d")],
      Effective (settingLines points) p.1 p.2 := by
    intro p hp
    refine columnOf?_eq_some.1 ?_
    rw [mappings_eq]
    revert p
    decide +kernel
  simp only [List.forall_mem_cons] at columns
  obtain ⟨latA, lonA, latB, lonB, -⟩ := columns
  exact ⟨file, exchanged, (full _ _ _ _ latA lonA latB lonB).trans (by decide +kernel),
    moved (located exchangedPoints) exchangedPoints rfl rfl rfl held' (.single exchanged)⟩

end Rule

end Flowscript
