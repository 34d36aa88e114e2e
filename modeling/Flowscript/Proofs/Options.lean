import Flowscript.Options.Load
import Flowscript.Proofs.Json.Natural
import Flowscript.Proofs.Json.RoundTrip
import Mathlib.Data.List.Nodup

/-!
# Loading options

Options can be written as an object that holds any of their settings, in any order and among members
that mean nothing to them (`Options.Rendering`). However such an object is spelled, loading gives the
options back as far as they were written, and the default for every other setting (`load_rendering`).
-/

namespace Flowscript

/-! ## What is written -/

/-- A value without parts: a text, an integer, a truth value or null. -/
inductive Json.Scalar : Json String → Prop where
  | null : Scalar .null
  | bool (b : Bool) : Scalar (.bool b)
  | str (s : String) : Scalar (.str s)
  | integer {n : Numeral} : n.Proper → n.fraction = none → n.exponent = none → Scalar (.num n)

/-- The numbers that a limit may hold. -/
def Limit.InRange : Limit → Prop
  | .unlimited => True
  | .steps n => n < Nat.pow 2 64
  | .deadline n => n < Nat.pow 2 64

/-- The members of a limit: its kind, and the number that goes with the kind. -/
def Limit.parts : Limit → List (String × Json String)
  | .unlimited => [("kind", .str "unlimited")]
  | .steps n => [("kind", .str "steps"), ("max_steps", .num (.ofNat n))]
  | .deadline n => [("kind", .str "deadline"), ("millis", .num (.ofNat n))]

namespace Options

/-- One of the settings. -/
inductive Setting where
  | limit
  | stem
  | defaultOutputPath
  | imports
deriving DecidableEq, Repr

/-- The key under which a setting stands. -/
def Setting.key : Setting → String
  | .limit => "budget"
  | .stem => "variable_prefix"
  | .defaultOutputPath => "default_output_path"
  | .imports => "imports"

/-- A value that shows a setting of the options. The members of a limit come in any order. -/
inductive Shows (o : Options) : Setting → Json String → Prop where
  | limit {ms : List (String × Json String)} : ms.Perm o.limit.parts → Shows o .limit (.obj ms)
  | stem : Shows o .stem (.str o.stem)
  | defaultOutputPath : Shows o .defaultOutputPath (.str o.defaultOutputPath)
  | imports : Shows o .imports (.arr (o.imports.map .str))

/-- The members of an object that shows some of the settings, each of them once, with other members
in between. -/
structure Rendering (o : Options) where
  settings : List Setting
  nodup : settings.Nodup
  shown : Setting → Json String
  shows_shown : ∀ s ∈ settings, o.Shows s (shown s)
  others : List (String × Json String)
  scalar : ∀ m ∈ others, m.2.Scalar
  key_ne : ∀ m ∈ others, ∀ s : Setting, m.1 ≠ s.key
  members : List (String × Json String)
  perm : members.Perm (settings.map (fun s => (s.key, shown s)) ++ others)

/-- These settings of the options, and the default for every other. -/
def keep (o : Options) (settings : List Setting) : Options :=
  let default : Options := {}
  { limit := if .limit ∈ settings then o.limit else default.limit
    stem := if .stem ∈ settings then o.stem else default.stem
    defaultOutputPath :=
      if .defaultOutputPath ∈ settings then o.defaultOutputPath else default.defaultOutputPath
    imports := if .imports ∈ settings then o.imports else default.imports }

end Options

/-! ## What is read -/

namespace Json

variable {ms : List (String × Json String)} {j : Json String}

/-- A scalar is proper: its number, if it is one, is made of decimal digits. -/
lemma Scalar.proper (h : j.Scalar) : j.Proper := by
  cases h with
  | null => exact .null
  | bool b => exact .bool b
  | str s => exact .str s
  | integer hn _ _ => exact .num hn

/-- An object is definite if its values are, since each key that is written is a text. -/
lemma membersDefinite_given (h : ∀ m ∈ ms, isDefinite m.2.given = true) :
    membersDefinite (givenMembers ms) = true := by
  induction ms with
  | nil => rfl
  | cons m ms ih =>
    have first := h m List.mem_cons_self
    have rest := ih fun m' hm => h m' (List.mem_cons_of_mem m hm)
    rw [givenMembers, membersDefinite, first, rest]
    rfl

/-- An object of scalars has nothing nested in it. -/
lemma memberDepths_given (h : ∀ m ∈ ms, depth m.2.given = 0) :
    memberDepths (givenMembers ms) = 0 := by
  induction ms with
  | nil => rfl
  | cons m ms ih =>
    have first := h m List.mem_cons_self
    have rest := ih fun m' hm => h m' (List.mem_cons_of_mem m hm)
    rw [givenMembers, memberDepths, first, rest]
    rfl

/-- The values that are found for a key are those of its members, in their order. -/
lemma valuesOf_given (key : String) (ms : List (String × Json String)) :
    Given.valuesOf key (givenMembers ms) =
      (ms.filter fun m => m.1 = key).map fun m => m.2.given := by
  rw [Given.valuesOf, givenMembers_eq, List.filter_map, List.map_map]
  simp only [Function.comp_def, Option.some.injEq]

/-- The only value under a key does not depend on the order of the members. -/
lemma valuesOf_of_perm {ns : List (String × Json String)} {key : String} (perm : ms.Perm ns)
    (h : (ns.filter fun m => m.1 = key) = [(key, j)]) :
    Given.valuesOf key (givenMembers ms) = [j.given] := by
  have single := perm.filter fun m => m.1 = key
  rw [h, List.perm_singleton] at single
  rw [valuesOf_given, single, List.map_singleton]

end Json

namespace Limit

variable {limit : Limit} {n : Nat} {ms : List (String × Json String)}

/-- A number of 64 bits is read back as a count. -/
lemma count?_ofNat (h : n < Nat.pow 2 64) : Given.count? (.num (.ofNat n)) = some n := by
  have small : n < bound := h
  rw [Given.count?, Numeral.toNat?_ofNat, Option.filter_some, decide_eq_true small, if_pos rfl]

/-- Each part of a limit in range is definite. -/
lemma isDefinite_parts (range : limit.InRange) :
    ∀ m ∈ limit.parts, Json.isDefinite m.2.given = true := by
  cases limit with
  | unlimited => simp [parts, Json.given, Json.isDefinite]
  | steps n | deadline n =>
    simp [parts, Json.given, Json.isDefinite, Numeral.isFiniteDouble_ofNat range]

/-- No part of a limit is a container. -/
lemma depth_parts (limit : Limit) : ∀ m ∈ limit.parts, Json.depth m.2.given = 0 := by
  cases limit <;> simp [parts, Json.given, Json.depth]

/-- Each part of a limit can be written. -/
lemma proper_parts (limit : Limit) : ∀ m ∈ limit.parts, m.2.Proper := by
  cases limit with
  | unlimited => simp [parts]
  | steps n | deadline n => simp [parts, Json.Proper.num (Numeral.proper_ofNat n)]

/-- A limit is read from its members in whatever order they come. -/
lemma ofJson?_given (range : limit.InRange) (perm : ms.Perm limit.parts) :
    ofJson? (Json.given (.obj ms)) = some limit := by
  have definite : Json.membersDefinite (Json.givenMembers ms) = true :=
    Json.membersDefinite_given fun m hm => isDefinite_parts range m (perm.mem_iff.1 hm)
  have flat : Json.memberDepths (Json.givenMembers ms) = 0 :=
    Json.memberDepths_given fun m hm => depth_parts limit m (perm.mem_iff.1 hm)
  rw [Json.given, ofJson?, Json.isDefinite, Json.depth, definite, flat, if_pos (by decide)]
  cases limit with
  | unlimited =>
    have kind : Given.valuesOf "kind" (Json.givenMembers ms) = [.str (some "unlimited")] :=
      Json.valuesOf_of_perm (j := .str "unlimited") perm (by simp [parts])
    simp only [kind, ofParts?]
  | steps n =>
    have kind : Given.valuesOf "kind" (Json.givenMembers ms) = [.str (some "steps")] :=
      Json.valuesOf_of_perm (j := .str "steps") perm (by simp [parts])
    have number : Given.valuesOf "max_steps" (Json.givenMembers ms) = [.num (.ofNat n)] :=
      Json.valuesOf_of_perm (j := .num (.ofNat n)) perm (by simp [parts])
    simp only [kind, ofParts?, number, count?_ofNat range, Option.map_some]
  | deadline n =>
    have kind : Given.valuesOf "kind" (Json.givenMembers ms) = [.str (some "deadline")] :=
      Json.valuesOf_of_perm (j := .str "deadline") perm (by simp [parts])
    have number : Given.valuesOf "millis" (Json.givenMembers ms) = [.num (.ofNat n)] :=
      Json.valuesOf_of_perm (j := .num (.ofNat n)) perm (by simp [parts])
    simp only [kind, ofParts?, number, count?_ofNat range, Option.map_some]

end Limit

namespace Options

variable {o : Options} {s : Setting} {j : Json String}

/-- No two settings share a key. -/
lemma Setting.key_injective : Function.Injective Setting.key := by
  intro s s' h
  cases s <;> cases s' <;> simp [Setting.key] at h ⊢

/-- The value that shows a setting can be written. -/
lemma Shows.proper (h : o.Shows s j) : j.Proper := by
  cases h with
  | limit perm => exact .obj fun m hm => o.limit.proper_parts m (perm.mem_iff.1 hm)
  | stem => exact .str o.stem
  | defaultOutputPath => exact .str o.defaultOutputPath
  | imports => simp

/-- A list of texts is read back as these texts. -/
lemma texts?_given (texts : List String) :
    Given.texts? (Json.given (.arr (texts.map .str))) = some texts := by
  rw [Json.given, Json.givenItems_eq, List.map_map, Given.texts?, List.mapM_map]
  exact (List.mapM_pure (m := Option) (f := id)).trans (congrArg some texts.map_id)

namespace Shows

/-- A value that shows the limit is read as that limit, if its number is in range. -/
lemma limit_eq (range : o.limit.InRange) (h : o.Shows .limit j) :
    Limit.ofJson? j.given = some o.limit := by
  cases h with
  | limit perm => exact Limit.ofJson?_given range perm

/-- A value that shows the stem is read as that stem. -/
lemma stem_eq (h : o.Shows .stem j) : Given.text? j.given = some o.stem := by
  cases h with
  | stem => rfl

/-- A value that shows the output path is read as that path. -/
lemma defaultOutputPath_eq (h : o.Shows .defaultOutputPath j) :
    Given.text? j.given = some o.defaultOutputPath := by
  cases h with
  | defaultOutputPath => rfl

/-- A value that shows the imports is read as these imports. -/
lemma imports_eq (h : o.Shows .imports j) : Given.texts? j.given = some o.imports := by
  cases h with
  | imports => exact texts?_given o.imports

end Shows

namespace Rendering

variable (r : o.Rendering)

/-- An object with shown settings and scalars beside them can be written. -/
lemma proper : (Json.obj r.members).Proper := by
  refine .obj fun m hm => ?_
  rcases List.mem_append.1 (r.perm.mem_iff.1 hm) with shown | other
  · obtain ⟨s, hs, rfl⟩ := List.mem_map.1 shown
    exact (r.shows_shown s hs).proper
  · exact (r.scalar m other).proper

/-- Under the key of a setting stands the value that shows it, if it is shown. -/
lemma valuesOf_key (s : Setting) : Given.valuesOf s.key (Json.givenMembers r.members) =
    if s ∈ r.settings then [(r.shown s).given] else [] := by
  have others : (r.others.filter fun m => m.1 = s.key) = [] :=
    List.filter_eq_nil_iff.2 fun m hm => by simp [r.key_ne m hm s]
  have same := r.perm.filter fun m => m.1 = s.key
  rw [List.filter_append, others, List.append_nil, List.filter_map] at same
  -- No two settings have the same key, and none is shown twice, so this one is found at most once.
  simp only [Function.comp_def, Setting.key_injective.eq_iff, List.filter_eq,
    List.Nodup.count r.nodup] at same
  rw [Json.valuesOf_given]
  by_cases hs : s ∈ r.settings
  · rw [if_pos hs] at same ⊢
    rw [List.perm_singleton.1 same]
    rfl
  · rw [if_neg hs] at same ⊢
    rw [List.perm_nil.1 same]
    rfl

/-- A setting is decoded from the value that shows it, or left to its default. -/
lemma setting_eq {α : Type} {decode : Given → Option α} {value : α} (default : α)
    (read : ∀ j, o.Shows s j → decode j.given = some value) :
    setting decode default (Given.valuesOf s.key (Json.givenMembers r.members)) =
      some (if s ∈ r.settings then value else default) := by
  rw [r.valuesOf_key]
  split_ifs with hs
  · exact read (r.shown s) (r.shows_shown s hs)
  · rfl

/-- The settings that are shown are read, and the others are left to their defaults. -/
lemma ofJson?_given (range : o.limit.InRange) :
    ofJson? (Json.given (.obj r.members)) = some (o.keep r.settings) := by
  have keys : (Json.givenMembers r.members).all (·.1.isSome) = true := by
    simp [Json.givenMembers_eq]
  have limit := r.setting_eq ({} : Options).limit fun _ h => Shows.limit_eq range h
  have stem := r.setting_eq ({} : Options).stem fun _ h => h.stem_eq
  have path := r.setting_eq ({} : Options).defaultOutputPath fun _ h => h.defaultOutputPath_eq
  have imports := r.setting_eq ({} : Options).imports fun _ h => h.imports_eq
  simp only [Setting.key] at limit stem path imports
  simp only [Json.given, ofJson?, keys, ofParts?, limit, stem, path, imports, if_true]
  rfl

end Rendering

/-- From any spelling of an object that shows some of the settings of the options, in any order and
among other members, those settings are loaded, and the others have their defaults. -/
theorem load_rendering {o : Options} (range : o.limit.InRange) (r : o.Rendering) {text : String}
    (spelled : Json.Spelling (Json.words (.obj r.members)) text.toList) :
    load text = .ok (o.keep r.settings) := by
  have read := Json.read?_spelling r.proper spelled
  rw [load, read, Option.bind_some, r.ofJson?_given range]

/-- Options at the bound of the limit, with texts that cannot stand in quotes as they are. -/
def knotty : Options where
  limit := .steps 18446744073709551615
  stem := "\"\\\n\x01😀"
  defaultOutputPath := "unsaid.csv"
  imports := ["", "import os\t# \"\x7d"]

/-- The number of the limit comes before its kind, and members with keys that are not quite those of
the settings stand in between. -/
def knottyRendering : knotty.Rendering where
  settings := [.limit, .stem, .imports]
  nodup := by decide
  shown
    | .limit => .obj [("max_steps", .num (.ofNat 18446744073709551615)), ("kind", .str "steps")]
    | .stem => .str knotty.stem
    | .defaultOutputPath => .str knotty.defaultOutputPath
    | .imports => .arr (knotty.imports.map .str)
  shows_shown := by
    intro s _
    cases s with
    | limit => exact .limit (.swap _ _ [])
    | stem => exact .stem
    | defaultOutputPath => exact .defaultOutputPath
    | imports => exact .imports
  others := [("Budget", .num { Numeral.ofNat 7 with negative := true }), ("kind", .str "steps")]
  scalar := by
    intro m hm
    have seven := Numeral.proper_ofNat 7
    simp only [List.mem_cons, List.not_mem_nil, or_false] at hm
    rcases hm with rfl | rfl
    · exact .integer ⟨seven.whole, seven.leading, nofun, nofun⟩ rfl rfl
    · exact .str "steps"
  key_ne := by
    intro m hm s
    simp only [List.mem_cons, List.not_mem_nil, or_false] at hm
    rcases hm with rfl | rfl <;> cases s <;> decide
  members := [("variable_prefix", .str knotty.stem), ("imports", .arr (knotty.imports.map .str)),
    ("Budget", .num { Numeral.ofNat 7 with negative := true }), ("kind", .str "steps")] ++
      [("budget", .obj [("max_steps", .num (.ofNat 18446744073709551615)), ("kind", .str "steps")])]
  perm := List.perm_append_singleton _ _

/-- The settings that are shown come back as they were, and the one that is not is the default. -/
theorem load_rendering_knotty :
    knotty.limit.InRange ∧
    load (Json.pretty (.obj knottyRendering.members)) =
      .ok { knotty with defaultOutputPath := "output.csv" } := by
  have range : knotty.limit.InRange := by
    change 18446744073709551615 < Nat.pow 2 64
    decide
  refine ⟨range, load_rendering range knottyRendering ?_⟩
  rw [Json.pretty, String.toList_ofList]
  exact Json.spelling_words Json.Layout.indented_blank knottyRendering.proper 0

end Options

end Flowscript
