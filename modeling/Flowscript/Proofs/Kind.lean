import Flowscript.Kind
import Flowscript.Proofs.Text

/-!
# Kinds from plugin names

Without aliases, the kind of a plugin is that of the last of its segments that is a tag
(`classify_eq_iff`), since the full name is a tag only if it is the one segment there is. An alias is a
candidate like any other: it changes what is found at its own name and nowhere else
(`kindOf?_withAlias`), so it changes only plugins with this name among their candidates
(`classify_withAlias`), and it stands before all earlier ones for the same name.
-/

namespace Flowscript

namespace Kind

/-- The name is the tag of a kind in the catalog. -/
def IsTag (name : String) : Prop :=
  ∃ k ∈ catalog, k.tag = name

instance (name : String) : Decidable (IsTag name) :=
  inferInstanceAs (Decidable (∃ k ∈ catalog, k.tag = name))

/-- Each kind of the catalog is found by its tag, so no two of them share one. -/
lemma ofTag?_tag : ∀ k ∈ catalog, ofTag? k.tag = some k := by
  decide

/-- No tag has a dot in it. -/
lemma not_mem_tag : ∀ k ∈ catalog, '.' ∉ k.tag.toList := by
  decide

/-- The unknown kind has no tag. -/
lemma unknown_not_mem : unknown ∉ catalog := by
  decide

/-- A kind is found by a name if it is in the catalog and the name is its tag. -/
lemma ofTag?_eq_some {name : String} {k : Kind} : ofTag? name = some k ↔ k ∈ catalog ∧ k.tag = name := by
  constructor
  · intro h
    rw [ofTag?] at h
    have tag := List.find?_some h
    exact ⟨List.mem_of_find?_eq_some h, of_decide_eq_true tag⟩
  · rintro ⟨hk, rfl⟩
    exact ofTag?_tag k hk

/-- No kind is found by a name that is no tag. -/
lemma ofTag?_eq_none {name : String} : ofTag? name = none ↔ ¬ IsTag name := by
  rw [Option.eq_none_iff_forall_ne_some]
  constructor
  · rintro none ⟨k, hk⟩
    exact none k (ofTag?_eq_some.2 hk)
  · intro no k hk
    exact no ⟨k, ofTag?_eq_some.1 hk⟩

end Kind

namespace Classifier

/-- The pieces of a plugin name between dots, from the first to the last. -/
def segments (plugin : String) : List String :=
  (plugin.toList.splitOn '.').map String.ofList

/-- The classifier after these aliases have been registered, one after the other. -/
def register (aliases : List (String × Kind)) : Classifier :=
  aliases.foldl (fun c e => c.withAlias e.1 e.2) {}

variable {c c' : Classifier} {plugin name : String} {k : Kind}

/-! ## Segments -/

/-- The parts that are asked are the segments, from the last to the first. -/
lemma parts_eq (plugin : String) : parts plugin = (segments plugin).reverse := by
  rw [parts, segments, Text.segments_eq_splitOnP, List.splitOn_eq_splitOnP]

/-- A name without a dot is its only segment. -/
lemma segments_of_not_mem (h : '.' ∉ plugin.toList) : segments plugin = [plugin] := by
  rw [segments, List.splitOn_eq_singleton h, List.map_singleton, String.ofList_toList]

/-- A dot sets the segments of two names apart. -/
lemma segments_append (plugin name : String) :
    segments (plugin ++ "." ++ name) = segments plugin ++ segments name := by
  have chars : (plugin ++ "." ++ name).toList = plugin.toList ++ '.' :: name.toList := by simp
  rw [segments, chars, Text.splitOn_append_cons, List.map_append]
  rfl

/-- There is no dot in a segment. -/
lemma not_mem_of_mem_segments (h : name ∈ segments plugin) : '.' ∉ name.toList := by
  obtain ⟨cs, hcs, rfl⟩ := List.mem_map.1 h
  rw [List.splitOn_eq_splitOnP, ← Text.segments_eq_splitOnP] at hcs
  intro dot
  rw [String.toList_ofList] at dot
  exact absurd (Text.eq_false_of_mem_segments hcs '.' dot) (by decide)

/-! ## The catalog -/

/-- A full name that is a tag is found among the segments just as well. -/
lemma findSome?_ofTag? (plugin : String) :
    (plugin :: parts plugin).findSome? Kind.ofTag? = (segments plugin).reverse.findSome? Kind.ofTag? := by
  rw [parts_eq, List.findSome?_cons]
  cases h : Kind.ofTag? plugin with
  | none => rfl
  | some k =>
    obtain ⟨hk, rfl⟩ := Kind.ofTag?_eq_some.1 h
    rw [segments_of_not_mem (Kind.not_mem_tag k hk), List.reverse_singleton, List.findSome?_singleton, h]

/-- Without aliases, the segments are asked from the last to the first, and no kind is unknown. -/
lemma classify_empty (plugin : String) : (register []).classify plugin =
    ((segments plugin).reverse.findSome? Kind.ofTag?).getD .unknown := by
  rw [← findSome?_ofTag?]
  rfl

/-- Without aliases, the last segment that is a tag tells the kind. -/
lemma classify_eq_iff (hk : k ∈ Kind.catalog) : (register []).classify plugin = k ↔
    ∃ xs ys, segments plugin = xs ++ k.tag :: ys ∧ ∀ s ∈ ys, ¬ Kind.IsTag s := by
  have known : k ≠ .unknown := fun e => Kind.unknown_not_mem (e ▸ hk)
  have found : (register []).classify plugin = k ↔
      (segments plugin).reverse.findSome? Kind.ofTag? = some k := by
    rw [classify_empty]
    cases (segments plugin).reverse.findSome? Kind.ofTag? with
    | none => simp [Ne.symm known]
    | some k' => simp
  rw [found, List.findSome?_eq_some_iff]
  constructor
  · rintro ⟨ys, s, xs, eq, tag, none⟩
    obtain ⟨-, rfl⟩ := Kind.ofTag?_eq_some.1 tag
    refine ⟨xs.reverse, ys.reverse, ?_, fun s hs => Kind.ofTag?_eq_none.1 (none s (List.mem_reverse.1 hs))⟩
    rw [← List.reverse_reverse (segments plugin), eq]
    simp
  · rintro ⟨xs, ys, eq, none⟩
    refine ⟨ys.reverse, k.tag, xs.reverse, ?_, Kind.ofTag?_tag k hk, ?_⟩
    · rw [eq]
      simp
    · exact fun s hs => Kind.ofTag?_eq_none.2 (none s (List.mem_reverse.1 hs))

/-- Without aliases, the kind is not known if no segment is a tag, and only then. -/
lemma classify_eq_unknown_iff :
    (register []).classify plugin = .unknown ↔ ∀ s ∈ segments plugin, ¬ Kind.IsTag s := by
  have none : (∀ s ∈ segments plugin, ¬ Kind.IsTag s) ↔
      (segments plugin).reverse.findSome? Kind.ofTag? = none := by
    simp only [List.findSome?_eq_none_iff, List.mem_reverse, Kind.ofTag?_eq_none]
  rw [none, classify_empty]
  cases h : (segments plugin).reverse.findSome? Kind.ofTag? with
  | none => simp
  | some k =>
    obtain ⟨s, -, tag⟩ := List.exists_of_findSome?_eq_some h
    obtain ⟨hk, -⟩ := Kind.ofTag?_eq_some.1 tag
    have known : k ≠ .unknown := fun e => Kind.unknown_not_mem (e ▸ hk)
    simp [known]

/-- A tag behind a dot at the end tells the kind, whatever stands before it. -/
lemma classify_append_tag (hk : k ∈ Kind.catalog) (plugin : String) :
    (register []).classify (plugin ++ "." ++ k.tag) = k := by
  refine (classify_eq_iff hk).2 ⟨segments plugin, [], ?_, nofun⟩
  rw [segments_append, segments_of_not_mem (Kind.not_mem_tag k hk)]

/-! ## Aliases -/

/-- An alias changes what is found at its own name. -/
lemma kindOf?_withAlias (c : Classifier) (a : String) (k : Kind) (name : String) :
    (c.withAlias a k).kindOf? name = if name = a then some k else c.kindOf? name := by
  rw [kindOf?, withAlias, List.lookup_cons]
  by_cases h : name = a
  · simp [h]
  · rw [beq_false_of_ne h, if_neg h]
    rfl

/-- What is found at the full name and at its parts tells the kind. -/
lemma classify_congr (h : ∀ name ∈ plugin :: parts plugin, c.kindOf? name = c'.kindOf? name) :
    c.classify plugin = c'.classify plugin := by
  have same : ∀ names : List String, (∀ name ∈ names, c.kindOf? name = c'.kindOf? name) →
      names.findSome? c.kindOf? = names.findSome? c'.kindOf? := by
    intro names
    induction names with
    | nil => exact fun _ => rfl
    | cons name names ih =>
      intro h
      rw [List.findSome?_cons, List.findSome?_cons, h name List.mem_cons_self,
        ih fun n hn => h n (List.mem_cons_of_mem name hn)]
  rw [classify, classify, same _ h]

/-- An alias changes only plugins that have it for their name or for a segment. -/
lemma classify_withAlias {a : String} (name : plugin ≠ a) (segment : a ∉ segments plugin)
    (c : Classifier) (k : Kind) : (c.withAlias a k).classify plugin = c.classify plugin := by
  apply classify_congr
  intro n hn
  rw [kindOf?_withAlias, if_neg]
  rintro rfl
  rw [parts_eq, List.mem_cons, List.mem_reverse] at hn
  exact hn.elim (fun e => name e.symm) segment

/-- The full name goes before its parts, and an alias before the catalog. -/
lemma classify_withAlias_self (c : Classifier) (a : String) (k : Kind) :
    (c.withAlias a k).classify a = k := by
  rw [classify, List.findSome?_cons, kindOf?_withAlias, if_pos rfl]
  rfl

/-- Aliases are asked from the last that was registered to the first. -/
lemma aliases_register (aliases : List (String × Kind)) :
    (register aliases).aliases = aliases.reverse := by
  have all : ∀ c : Classifier, (aliases.foldl (fun c e => c.withAlias e.1 e.2) c).aliases =
      aliases.reverse ++ c.aliases := by
    induction aliases with
    | nil => exact fun _ => rfl
    | cons e es ih =>
      intro c
      rw [List.foldl_cons, ih, List.reverse_cons, List.append_assoc]
      rfl
  rw [register, all, List.append_nil]

/-- Only its own name could tell whether an alias has been registered before. -/
lemma kindOf?_register_of_ne {a : String} (h : name ≠ a) (k : Kind)
    (xs ys : List (String × Kind)) :
    (register (xs ++ (a, k) :: ys)).kindOf? name = (register (xs ++ ys)).kindOf? name := by
  have skip : ((a, k) :: xs.reverse).lookup name = xs.reverse.lookup name := by
    rw [List.lookup_cons, beq_false_of_ne h]
  rw [kindOf?, kindOf?, aliases_register, aliases_register, List.reverse_append, List.reverse_append,
    List.reverse_cons, List.append_assoc, List.singleton_append, List.lookup_append, skip,
    ← List.lookup_append]

/-- Without aliases, a plugin has the kind of the last of its segments that is a tag, and its kind is not
known just when no segment is; a tag that is no segment of its own does not count, and one behind a dot at
the end always does. Whatever aliases have been registered, one more changes only plugins that have it for
their name or for a segment; if there is a dot in it, only the plugin with that name. That plugin gets its
kind, and it makes no difference whether the same alias has been registered before. -/
theorem classify_exact (aliases : List (String × Kind)) (plugin : String) :
    (∀ k ∈ Kind.catalog, (register []).classify plugin = k ↔
      ∃ xs ys, segments plugin = xs ++ k.tag :: ys ∧ ∀ s ∈ ys, ¬ Kind.IsTag s) ∧
    ((register []).classify plugin = .unknown ↔ ∀ s ∈ segments plugin, ¬ Kind.IsTag s) ∧
    (∀ k ∈ Kind.catalog, k.tag ∉ segments plugin → (register []).classify plugin ≠ k) ∧
    (∀ k ∈ Kind.catalog, (register []).classify (plugin ++ "." ++ k.tag) = k) ∧
    (∀ a k, ((register aliases).withAlias a k).classify plugin ≠
      (register aliases).classify plugin → plugin = a ∨ a ∈ segments plugin) ∧
    (∀ a k, ((register aliases).withAlias a k).classify a = k) ∧
    (∀ xs ys a earlier k, aliases = xs ++ (a, earlier) :: ys →
      ((register aliases).withAlias a k).classify plugin =
        ((register (xs ++ ys)).withAlias a k).classify plugin) ∧
    ∀ a k, '.' ∈ a.toList → plugin ≠ a →
      ((register aliases).withAlias a k).classify plugin = (register aliases).classify plugin := by
  refine ⟨fun k hk => classify_eq_iff hk, classify_eq_unknown_iff, ?_,
    fun k hk => classify_append_tag hk plugin, ?_, classify_withAlias_self _, ?_, ?_⟩
  · intro k hk absent eq
    obtain ⟨xs, ys, segs, -⟩ := (classify_eq_iff hk).1 eq
    refine absent ?_
    rw [segs]
    exact List.mem_append_right xs List.mem_cons_self
  · intro a k differ
    by_contra other
    rw [not_or] at other
    exact differ (classify_withAlias other.1 other.2 _ k)
  · rintro xs ys a earlier k rfl
    apply classify_congr
    intro name _
    rw [kindOf?_withAlias, kindOf?_withAlias]
    split
    · rfl
    · next ne => exact kindOf?_register_of_ne ne earlier xs ys
  · intro a k dot ne
    exact classify_withAlias ne (fun h => not_mem_of_mem_segments h dot) _ k

/-- A plugin with an empty segment and a tag inside of a longer segment, and aliases for a segment that
is a tag, for the full name of another plugin, and for no kind. -/
theorem classify_exact_nested :
    (register []).classify "Gui..Join.JoinMultiple" = .join ∧
    (register []).classify "Gui.JoinMultiple" = .unknown ∧
    (((register [("Join", .sort), ("Gui.Join", .sink)]).withAlias "Join" .unknown).classify
      "Gui..Join.JoinMultiple" = .unknown ∧ "Join" ∈ segments "Gui..Join.JoinMultiple") ∧
    ((register [("Join", .sort), ("Gui.Join", .sink)]).withAlias "Join" .unknown).classify "Join" =
      .unknown ∧
    ((register [("Join", .sort), ("Gui.Join", .sink)]).withAlias "Join" .unknown).classify
      "Gui..Join.JoinMultiple" =
        ((register [("Gui.Join", .sink)]).withAlias "Join" .unknown).classify "Gui..Join.JoinMultiple" ∧
    ((register [("Join", .sort), ("Gui.Join", .sink)]).withAlias "Join.JoinMultiple" .union).classify
      "Gui..Join.JoinMultiple" = .sort := by
  obtain ⟨last, -, -, -, near, own, again, dotted⟩ :=
    classify_exact [("Join", .sort), ("Gui.Join", .sink)] "Gui..Join.JoinMultiple"
  obtain ⟨-, unknown, -⟩ := classify_exact [] "Gui.JoinMultiple"
  have changed : ((register [("Join", .sort), ("Gui.Join", .sink)]).withAlias "Join" .unknown).classify
      "Gui..Join.JoinMultiple" = .unknown := by decide +kernel
  refine ⟨(last .join (by decide)).2 ⟨["Gui", ""], ["JoinMultiple"], by decide +kernel, ?_⟩,
    unknown.2 ?_, ⟨changed, ?_⟩, own "Join" .unknown, again [] _ "Join" .sort .unknown rfl, ?_⟩
  · decide +kernel
  · decide +kernel
  · exact (near "Join" .unknown (by decide +kernel)).resolve_left (by decide)
  · rw [dotted "Join.JoinMultiple" .union (by decide) (by decide)]
    decide +kernel

end Classifier

end Flowscript
