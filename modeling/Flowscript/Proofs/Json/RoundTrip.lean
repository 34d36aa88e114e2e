import Flowscript.Proofs.Json.Words

/-!
# Reading what was written

The words of a value are read as the value (`reads_words`), however they are spelled
(`read?_spelling`). So reading undoes writing (`read?_write`), and a text determines the value that it
was written for (`write_inj`).
-/

namespace Flowscript

variable {α β γ : Type} {f : α → β} {g : α → γ} {as bs : List α}

/-- What an entry determines of the thing it was made from, a list of entries does of the list. -/
lemma map_eq_of_map_eq (hfg : ∀ a ∈ as, ∀ b, f a = f b → g a = g b) (h : as.map f = bs.map f) :
    as.map g = bs.map g := by
  induction as generalizing bs with
  | nil =>
    cases bs with
    | nil => rfl
    | cons b bs => cases h
  | cons a as ih =>
    cases bs with
    | nil => cases h
    | cons b bs =>
      rw [List.map_cons, List.map_cons, List.cons.injEq] at h
      rw [List.map_cons, List.map_cons, hfg a List.mem_cons_self b h.1,
        ih (fun a ha => hfg a (List.mem_cons_of_mem _ ha)) h.2]

/-- A function that tells the items of one list from all others tells that list from all others. -/
lemma eq_of_map_eq (hf : ∀ a ∈ as, ∀ b, f a = f b → a = b) (h : as.map f = bs.map f) : as = bs := by
  rw [← as.map_id, ← bs.map_id]
  exact map_eq_of_map_eq hf h

end Flowscript

namespace Flowscript.Json

variable {l : Layout} {d : Nat} {j : Json String} {js : List (Json String)}
  {ms : List (String × Json String)} {frames : List Frame} {ts : List Token}

mutual

/-- The value as it is read: all of its texts denote characters. -/
def given : Json String → Json (Option String)
  | .null => .null
  | .bool b => .bool b
  | .num n => .num n
  | .str s => .str (some s)
  | .arr js => .arr (givenItems js)
  | .obj ms => .obj (givenMembers ms)

def givenItems : List (Json String) → List (Json (Option String))
  | [] => []
  | j :: js => given j :: givenItems js

def givenMembers : List (String × Json String) → List (Option String × Json (Option String))
  | [] => []
  | (k, j) :: ms => (some k, given j) :: givenMembers ms

end

/-- Whatever containers are open, the words of the value are read as the value. -/
def Reads (j : Json String) : Prop :=
  ∀ frames ts, value frames (words j ++ ts) = follow frames j.given ts

/-- No value begins with the end of a list. -/
lemma words_ne (j : Json String) (ts us : List Token) : words j ++ ts ≠ .closeArray :: us := by
  cases j with
  | arr js => cases js <;> simp [words]
  | obj ms => cases ms <;> simp [words]
  | _ => simp [words]

/-- The words of further items put these behind the items that are there, and then the list is closed. -/
lemma follow_items (hj : ∀ j ∈ js, Reads j) (is : List (Json (Option String)))
    (i : Json (Option String)) :
    follow (.arr is :: frames) i (itemWords js ++ .closeArray :: ts) =
      follow frames (.arr (is ++ i :: givenItems js)) ts := by
  induction js generalizing is i with
  | nil => rw [itemWords, List.nil_append, follow, givenItems]
  | cons j js ih =>
    rw [itemWords, List.cons_append, List.append_assoc, follow, hj j List.mem_cons_self,
      ih fun i hi => hj i (List.mem_cons_of_mem j hi)]
    rw [List.append_assoc, givenItems]
    rfl

/-- The words of further members put these behind the members that are there, and then the object is closed.
-/
lemma follow_members (hm : ∀ m ∈ ms, Reads m.2) (ns : List (Option String × Json (Option String)))
    (k : Option String) (i : Json (Option String)) :
    follow (.obj ns k :: frames) i (memberWords ms ++ .closeObject :: ts) =
      follow frames (.obj (ns ++ (k, i) :: givenMembers ms)) ts := by
  induction ms generalizing ns k i with
  | nil => rw [memberWords, List.nil_append, follow, givenMembers]
  | cons m ms ih =>
    obtain ⟨k', j⟩ := m
    rw [memberWords, List.cons_append, List.cons_append, List.cons_append, List.append_assoc, follow,
      hm (k', j) List.mem_cons_self, ih fun i hi => hm i (List.mem_cons_of_mem _ hi)]
    rw [List.append_assoc, givenMembers]
    rfl

/-- The words of a value are read as the value. -/
lemma reads_words (hj : j.Proper) : Reads j := by
  induction hj with
  | null => exact fun frames ts => by rw [words, List.singleton_append, value, given]
  | bool b => exact fun frames ts => by rw [words, List.singleton_append, value, given]
  | num _ => exact fun frames ts => by rw [words, List.singleton_append, value, given]
  | str s => exact fun frames ts => by rw [words, List.singleton_append, value, given]
  | @arr js _ ih =>
    intro frames ts
    cases js with
    | nil => rw [words, List.cons_append, List.singleton_append, value, given, givenItems]
    | cons j js =>
      rw [words, List.cons_append, List.append_assoc, List.append_assoc, List.singleton_append, value,
        ih j List.mem_cons_self, follow_items fun i hi => ih i (List.mem_cons_of_mem j hi), given,
        givenItems, List.nil_append]
      exact fun us => words_ne j _ us
  | @obj ms _ ih =>
    intro frames ts
    cases ms with
    | nil => rw [words, List.cons_append, List.singleton_append, value, given, givenMembers]
    | cons m ms =>
      obtain ⟨k, j⟩ := m
      rw [words, List.cons_append, List.cons_append, List.cons_append, List.append_assoc,
        List.append_assoc, List.singleton_append, value, ih (k, j) List.mem_cons_self,
        follow_members fun i hi => ih i (List.mem_cons_of_mem _ hi), given, givenMembers,
        List.nil_append]

/-- A text that spells the words of a value is read as the value. -/
lemma read?_spelling {text : String} (hj : j.Proper) (h : Spelling (words j) text.toList) :
    read? text = some j.given := by
  have read := reads_words hj [] []
  rw [List.append_nil] at read
  rw [read?, h.scan_eq, Option.bind_some, read]
  rfl

/-- Reading a text that was written gives the value back. -/
lemma read?_write (bl : l.Blank) (hj : j.Proper) :
    read? (String.ofList (write l d j)) = some j.given := by
  apply read?_spelling hj
  rw [String.toList_ofList]
  exact spelling_words bl hj d

/-- Items are given one by one. -/
lemma givenItems_eq (js : List (Json String)) : givenItems js = js.map given := by
  induction js with
  | nil => rfl
  | cons j js ih => rw [givenItems, ih, List.map_cons]

/-- Members are given one by one, with their keys. -/
lemma givenMembers_eq (ms : List (String × Json String)) :
    givenMembers ms = ms.map fun m => (some m.1, m.2.given) := by
  induction ms with
  | nil => rfl
  | cons m ms ih => rw [givenMembers, ih, List.map_cons]

/-- The value that is read determines the value that was written. -/
lemma given_inj (hj : j.Proper) {j' : Json String} (h : j.given = j'.given) : j = j' := by
  induction hj generalizing j' with
  | @arr js _ ih =>
    cases j' with
    | arr js' =>
      rw [given, given, arr.injEq, givenItems_eq, givenItems_eq] at h
      rw [eq_of_map_eq (fun j hj j' => ih j hj) h]
    | _ => cases h
  | @obj ms _ ih =>
    cases j' with
    | obj ms' =>
      rw [given, given, obj.injEq, givenMembers_eq, givenMembers_eq] at h
      have member : ∀ m ∈ ms, ∀ m', (some m.1, m.2.given) = (some m'.1, m'.2.given) → m = m' := by
        intro m hm m' same
        rw [Prod.mk.injEq, Option.some.injEq] at same
        exact Prod.ext same.1 (ih m hm same.2)
      rw [eq_of_map_eq member h]
    | _ => cases h
  | _ => cases j' <;> simp_all [given]

/-- A text determines the value that it was written for. -/
lemma write_inj (bl : l.Blank) {j' : Json String} (hj : j.Proper) (hj' : j'.Proper)
    (h : write l d j = write l d j') : j = j' := by
  have read := read?_write (d := d) bl hj
  rw [h, read?_write bl hj', Option.some.injEq] at read
  exact given_inj hj read.symm

/-- Two values that are the same on one line are the same. -/
lemma compact_inj {j' : Json String} (hj : j.Proper) (hj' : j'.Proper)
    (h : j.compact = j'.compact) : j = j' :=
  write_inj Layout.compact_blank hj hj' (String.ofList_injective h)

/-- Two values that are the same on several lines are the same. -/
lemma pretty_inj {j' : Json String} (hj : j.Proper) (hj' : j'.Proper) (h : j.pretty = j'.pretty) :
    j = j' :=
  write_inj Layout.indented_blank hj hj' (String.ofList_injective h)

end Flowscript.Json
