import Flowscript.Element.Json
import Flowscript.Proofs.Json.RoundTrip

/-!
# Elements

`Element.induction` proves a statement about all elements: it has to hold of an element if it holds of
its children. The JSON of an element determines the element (`Element.toJson_inj`): every part has a key
of its own, and an absent part leaves no member, which `Json.present_inj` says of any object. So do the
texts of the JSON in both layouts (`Element.eq_of_text_eq`).
-/

namespace Flowscript

namespace Json

variable {β : Type} {ps qs : List (String × Option β)}

/-- The members of an object, some of which may be absent. -/
def present (ps : List (String × Option β)) : List (String × β) :=
  ps.filterMap fun p => p.2.map (p.1, ·)

/-- An absent member leaves nothing. -/
lemma present_cons_none (k : String) (ps : List (String × Option β)) :
    present ((k, none) :: ps) = present ps :=
  rfl

/-- A member that is there keeps its place. -/
lemma present_cons_some (k : String) (v : β) (ps : List (String × Option β)) :
    present ((k, some v) :: ps) = (k, v) :: present ps :=
  rfl

/-- A member that is left has one of the keys. -/
lemma mem_keys_of_mem_present {k : String} {v : β} (h : (k, v) ∈ present ps) :
    k ∈ ps.map Prod.fst := by
  obtain ⟨p, hp, e⟩ := List.mem_filterMap.1 h
  obtain ⟨_, -, e⟩ := Option.map_eq_some_iff.1 e
  cases e
  exact List.mem_map_of_mem hp

/-- If the keys are known and distinct, the members that are there tell which are absent. -/
lemma present_inj (keys : ps.map Prod.fst = qs.map Prod.fst) (nodup : (ps.map Prod.fst).Nodup)
    (h : present ps = present qs) : ps = qs := by
  induction ps generalizing qs with
  | nil =>
    cases qs with
    | nil => rfl
    | cons q qs => cases keys
  | cons p ps ih =>
    cases qs with
    | nil => cases keys
    | cons q qs =>
      obtain ⟨k, o⟩ := p
      obtain ⟨k', o'⟩ := q
      simp only [List.map_cons, List.cons.injEq] at keys
      obtain ⟨rfl, keys'⟩ := keys
      obtain ⟨fresh, nodup'⟩ := List.nodup_cons.1 nodup
      cases o with
      | none =>
        cases o' with
        | none => rw [ih keys' nodup' h]
        | some v' =>
          rw [present_cons_none, present_cons_some] at h
          exact absurd (mem_keys_of_mem_present (h ▸ List.mem_cons_self)) fresh
      | some v =>
        cases o' with
        | none =>
          rw [present_cons_none, present_cons_some] at h
          rw [keys'] at fresh
          exact absurd (mem_keys_of_mem_present (h ▸ List.mem_cons_self)) fresh
        | some v' =>
          rw [present_cons_some, present_cons_some, List.cons.injEq, Prod.mk.injEq] at h
          rw [h.1.2, ih keys' nodup' h.2]

/-- An object is proper if the values that are there are. -/
lemma proper_present {ps : List (String × Option (Json String))}
    (h : ∀ p ∈ ps, ∀ j ∈ p.2, j.Proper) : (Json.obj (present ps)).Proper := by
  refine .obj fun m hm => ?_
  obtain ⟨p, hp, e⟩ := List.mem_filterMap.1 hm
  obtain ⟨j, hj, rfl⟩ := Option.map_eq_some_iff.1 e
  exact h p hp j hj

end Json

namespace Element

/-- Induction on elements. The principle that comes with the type has a case for lists of elements,
where this one has a hypothesis for each child. -/
@[elab_as_elim, induction_eliminator]
theorem induction {motive : Element → Prop}
    (mk : ∀ name attributes text cdata children, (∀ e ∈ children, motive e) →
      motive { name, attributes, text, cdata, children }) (e : Element) : motive e :=
  match e with
  | { name, attributes, text, cdata, children } =>
    mk name attributes text cdata children fun e _ => induction mk e

/-- The parts of an element under their keys, with the absent ones. -/
def parts (e : Element) : List (String × Option (Json String)) := [
  ("name", some (.str e.name)),
  ("attributes", if e.attributes.isEmpty then none
    else some (.obj (e.attributes.map fun a => (a.1, .str a.2)))),
  ("text", e.text.map .str),
  ("cdata", e.cdata.map .str),
  ("children", if e.children.isEmpty then none else some (.arr (toJsons e.children)))]

/-- Each part has a key of its own. -/
lemma parts_keys (e : Element) :
    e.parts.map Prod.fst = ["name", "attributes", "text", "cdata", "children"] :=
  rfl

/-- The JSON of an element has the parts that are there, under their keys. -/
lemma toJson_eq (e : Element) : e.toJson = .obj (Json.present e.parts) := by
  obtain ⟨name, attributes, text, cdata, children⟩ := e
  rw [toJson]
  cases attributes <;> cases text <;> cases cdata <;> cases children <;> rfl

/-- Elements are turned into JSON one by one. -/
lemma toJsons_eq (es : List Element) : toJsons es = es.map toJson := by
  induction es with
  | nil => rfl
  | cons e es ih => rw [toJsons, ih, List.map_cons]

/-- There are no numbers in the JSON of an element, so it is proper. -/
lemma toJson_proper (e : Element) : e.toJson.Proper := by
  induction e with
  | mk name attributes text cdata children ih =>
    have values : ∀ m ∈ attributes.map fun a => (a.1, Json.str a.2), m.2.Proper := by
      intro m hm
      obtain ⟨a, -, rfl⟩ := List.mem_map.1 hm
      exact .str a.2
    have items : ∀ j ∈ toJsons children, j.Proper := by
      intro j hj
      rw [toJsons_eq] at hj
      obtain ⟨e, he, rfl⟩ := List.mem_map.1 hj
      exact ih e he
    rw [toJson_eq]
    apply Json.proper_present
    simp only [parts, List.forall_mem_cons]
    refine ⟨by simp, ?_, by simp, by simp, ?_, nofun⟩
    · cases attributes.isEmpty with
      | true => nofun
      | false =>
        rintro _ ⟨⟩
        exact .obj values
    · cases children.isEmpty with
      | true => nofun
      | false =>
        rintro _ ⟨⟩
        exact .arr items

/-- A list that leaves no member when it is empty is determined by its member. -/
lemma eq_of_member {α β : Type} {xs ys : List α} {a b : β} (hab : a = b → xs = ys)
    (h : (if xs.isEmpty then none else some a) = if ys.isEmpty then none else some b) :
    xs = ys := by
  cases xs with
  | nil =>
    cases ys with
    | nil => rfl
    | cons y ys => cases h
  | cons x xs =>
    cases ys with
    | nil => cases h
    | cons y ys => exact hab (Option.some.inj h)

/-- Elements with the same JSON have the same parts, the absent ones included. -/
lemma parts_eq {e e' : Element} (h : e.toJson = e'.toJson) : e.parts = e'.parts := by
  rw [toJson_eq, toJson_eq, Json.obj.injEq] at h
  refine Json.present_inj rfl ?_ h
  rw [parts_keys]
  decide

/-- The JSON of an element determines the element. -/
lemma toJson_inj {e e' : Element} (h : e.toJson = e'.toJson) : e = e' := by
  induction e generalizing e' with
  | mk name attributes text cdata children ih =>
    obtain ⟨name', attributes', text', cdata', children'⟩ := e'
    have same := parts_eq h
    simp only [parts, List.cons.injEq, Prod.mk.injEq, true_and, and_true, Option.some.injEq,
      Json.str.injEq] at same
    obtain ⟨rfl, as, t, c, es⟩ := same
    have strs : Function.Injective (Json.str : String → Json String) := fun _ _ => Json.str.inj
    obtain rfl := Option.map_injective strs t
    obtain rfl := Option.map_injective strs c
    obtain rfl : attributes = attributes' := by
      refine eq_of_member (fun eq => ?_) as
      refine (List.map_inj_right ?_).1 (Json.obj.inj eq)
      rintro ⟨k, v⟩ ⟨k', v'⟩ ⟨⟩
      rfl
    obtain rfl : children = children' := by
      refine eq_of_member (fun eq => ?_) es
      rw [Json.arr.injEq, toJsons_eq, toJsons_eq] at eq
      exact eq_of_map_eq (fun e he e' => ih e he) eq
    rfl

/-- The text of an element determines the element, on one line and with a line for each part. -/
theorem eq_of_text_eq (e e' : Element) :
    (e.toJson.compact = e'.toJson.compact → e = e') ∧
    (e.toJson.pretty = e'.toJson.pretty → e = e') := by
  constructor
  · intro h
    exact toJson_inj (Json.compact_inj e.toJson_proper e'.toJson_proper h)
  · intro h
    exact toJson_inj (Json.pretty_inj e.toJson_proper e'.toJson_proper h)

/-- An element with these attributes and this text, and with quotes and a control character in its
CDATA. -/
def keyed (attributes : List (String × String)) (text : Option String) : Element where
  name := "Node"
  attributes
  text
  cdata := some "\"\x01\""
  children := [{ name := "Node" }]

/-- A key that is repeated keeps its values apart, whichever way the element was put together. In either
layout, the text shows the order of the values, and an empty text where none would be. -/
theorem eq_of_text_eq_keyed :
    ((keyed [] none).withAttr "k" "1" |>.withAttr "k" "2").toJson.compact =
      (keyed [("k", "1"), ("k", "2")] none).toJson.compact ∧
    ((keyed [] none).withAttr "k" "1" |>.withAttr "k" "2") = keyed [("k", "1"), ("k", "2")] none ∧
    (keyed [("k", "1"), ("k", "2")] none).toJson.compact ≠
      (keyed [("k", "2"), ("k", "1")] none).toJson.compact ∧
    (keyed [] none).toJson.pretty ≠ (keyed [] (some "")).toJson.pretty := by
  have same : ((keyed [] none).withAttr "k" "1" |>.withAttr "k" "2").toJson.compact =
      (keyed [("k", "1"), ("k", "2")] none).toJson.compact := rfl
  refine ⟨same, (eq_of_text_eq _ _).1 same, fun eq => ?_, fun eq => ?_⟩
  · exact absurd ((eq_of_text_eq _ _).1 eq) (by decide)
  · exact absurd ((eq_of_text_eq _ _).2 eq) (by decide)

end Element

end Flowscript
