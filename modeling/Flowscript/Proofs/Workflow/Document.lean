import Flowscript.Proofs.Element
import Flowscript.Proofs.Schedule.Plan
import Flowscript.Workflow.Document

/-!
# The workflow of a document

A draft takes in the node entries of a document as it comes to them, and remembers the ids that have a
node. `Walk` says in which order the entries come, and `Draft.collect_eq` that the walk through the
document is a fold over them. What a draft keeps of many nodes is said by `Draft.foldl_addNode`: of each id
the first, unless it was known before. So the nodes of a workflow are the first with each id that the walk
comes to, and then the stand-ins for ids that only edges mention (`Workflow.ofDocument_eq`).

A workflow that comes from a document is closed (`Workflow.ofDocument_closed`): no two nodes have the
same id, no id is empty, and both ends of every edge have a node.
-/

namespace Flowscript

namespace Element

/-- The children at a path of one name are those of the first child with this name. -/
lemma childrenAt_singleton {e : Element} {name inner : String} :
    e.childrenAt [name] inner = ((e.child name).map (·.childrenNamed inner)).getD [] := by
  cases h : e.child name with
  | none => simp [childrenAt, path, h]
  | some c => simp [childrenAt, path, h]

end Element

/-! ## The walk through the entries -/

/-- The walk through a list of node entries: an entry comes before the entries of its first list of
contained nodes, and these before the entries behind it. -/
inductive Walk : List Element → List Element → Prop where
  | nil : Walk [] []
  | cons {e : Element} {es inside behind : List Element} :
    Walk (e.childrenAt ["ChildNodes"] "Node") inside →
    Walk es behind →
    Walk (e :: es) (e :: (inside ++ behind))

namespace Workflow.Draft

/-- Of contained nodes, the first list is taken in. -/
lemma collectContained_eq (es : List Element) (d : Draft) :
    d.collectContained es =
      match es.find? (·.name = "ChildNodes") with
      | none => d
      | some c => d.collect c := by
  induction es with
  | nil => rw [collectContained, List.find?_nil]
  | cons e es ih =>
    by_cases h : e.name = "ChildNodes"
    · rw [collectContained, if_pos h, List.find?_cons_of_pos (by simpa using h)]
    · rw [collectContained, if_neg h, List.find?_cons_of_neg (by simpa using h), ih]

/-- The entries among these elements are walked through and taken in, if those inside each of them
are. -/
lemma collectNodes_eq {es : List Element}
    (inside : ∀ e ∈ es, ∃ entries, Walk (e.childrenAt ["ChildNodes"] "Node") entries ∧
      ∀ d : Draft, d.collectNested e = entries.foldl addEntry d) :
    ∃ entries, Walk (es.filter (·.name = "Node")) entries ∧
      ∀ d : Draft, d.collectNodes es = entries.foldl addEntry d := by
  induction es with
  | nil => exact ⟨[], .nil, fun d => by rw [collectNodes]; rfl⟩
  | cons e es ih =>
    obtain ⟨behind, walk, taken⟩ := ih fun c hc => inside c (List.mem_cons_of_mem e hc)
    by_cases h : e.name = "Node"
    · obtain ⟨nested, walk', taken'⟩ := inside e List.mem_cons_self
      refine ⟨e :: (nested ++ behind), ?_, fun d => ?_⟩
      · rw [List.filter_cons_of_pos (by simpa using h)]
        exact .cons walk' walk
      · rw [collectNodes, if_pos h, taken, taken', List.foldl_cons, List.foldl_append]
    · refine ⟨behind, ?_, fun d => ?_⟩
      · rw [List.filter_cons_of_neg (by simpa using h)]
        exact walk
      · rw [collectNodes, if_neg h, taken]

/-- The entries of a collection are walked through and taken in one by one, and so are those that an
entry contains. -/
lemma collect_eq (e : Element) :
    (∃ entries, Walk (e.childrenNamed "Node") entries ∧
      ∀ d : Draft, d.collect e = entries.foldl addEntry d) ∧
    ∃ entries, Walk (e.childrenAt ["ChildNodes"] "Node") entries ∧
      ∀ d : Draft, d.collectNested e = entries.foldl addEntry d := by
  -- The list that an entry contains is a child of the entry, and so not of the collection: the
  -- induction carries both statements.
  induction e with
  | mk name attributes text cdata children ih =>
    constructor
    · obtain ⟨entries, walk, taken⟩ := collectNodes_eq fun e he => (ih e he).2
      exact ⟨entries, walk, fun d => by rw [collect, taken]⟩
    · simp only [Element.childrenAt_singleton, Element.child, collectNested, collectContained_eq]
      cases found : children.find? (·.name = "ChildNodes") with
      | none => exact ⟨[], .nil, fun d => rfl⟩
      | some c => exact (ih c (List.mem_of_find?_eq_some found)).1

/-- A draft takes in the entries of a document in the order of the walk, and then its connections. -/
lemma ofDocument_eq (document : Element) :
    ∃ entries, Walk (document.childrenAt ["Nodes"] "Node") entries ∧
      ofDocument document =
        (document.childrenAt ["Connections"] "Connection").foldl addConnection
          (entries.foldl addEntry {}) := by
  rw [ofDocument, Element.childrenAt_singleton]
  cases document.child "Nodes" with
  | none => exact ⟨[], .nil, rfl⟩
  | some collection =>
    obtain ⟨entries, walk, taken⟩ := (collect_eq collection).1
    exact ⟨entries, walk, by simp only [taken]⟩

/-! ## Many nodes and many edges -/

/-- Of many nodes, those stay whose id is not known and comes first. -/
lemma foldl_addNode (ns : List Node) (d : Draft) :
    ns.foldl addNode d =
      { d with
        nodes := d.nodes ++ distinctBy Node.id d.known ns
        known := ((distinctBy Node.id d.known ns).map Node.id).reverse ++ d.known } := by
  induction ns generalizing d with
  | nil => simp [distinctBy]
  | cons n ns ih =>
    rw [List.foldl_cons, ih, distinctBy, addNode]
    by_cases h : n.id ∈ d.known
    · simp only [if_pos h]
    · simp only [if_neg h, List.map_cons, List.reverse_cons, List.append_assoc, List.singleton_append]

/-- Entries are taken in as the nodes that they declare. -/
lemma foldl_addEntry (entries : List Element) (d : Draft) :
    entries.foldl addEntry d = (entries.filterMap Node.ofEntry?).foldl addNode d := by
  rw [List.foldl_filterMap]
  congr 1
  funext d entry
  rw [addEntry]
  cases Node.ofEntry? entry with
  | none => rfl
  | some n => rfl

/-- Connections are taken in as the edges that they declare. -/
lemma foldl_addConnection (entries : List Element) (d : Draft) :
    entries.foldl addConnection d = (entries.filterMap Edge.ofEntry?).foldl addEdge d := by
  rw [List.foldl_filterMap]
  congr 1
  funext d entry
  rw [addConnection]
  cases Edge.ofEntry? entry with
  | none => rfl
  | some e => rfl

/-- A node leaves the edges as they are. -/
lemma edges_addNode (d : Draft) (n : Node) : (d.addNode n).edges = d.edges := by
  rw [addNode]
  split
  · rfl
  · rfl

/-- Edges are taken in in their order, and their ends as nodes. -/
lemma foldl_addEdge (edges : List Edge) (d : Draft) :
    edges.foldl addEdge d =
      { (edges.flatMap fun e => [.standIn e.origin, .standIn e.dest]).foldl addNode d with
        edges := d.edges ++ edges } := by
  induction edges generalizing d with
  | nil => simp
  | cons e es ih =>
    have edges : (d.addEdge e).edges = d.edges ++ [e] := by
      rw [addEdge, edges_addNode, edges_addNode]
    rw [List.foldl_cons, ih, List.flatMap_cons, List.foldl_append, foldl_addNode, foldl_addNode, edges,
      List.append_assoc]
    rfl

end Workflow.Draft

/-- No two nodes have the same id, no id is empty, and both ends of every edge have a node. -/
structure Workflow.Closed (w : Workflow) : Prop where
  nodup : w.ids.Nodup
  ne_empty : ∀ id ∈ w.ids, id ≠ ""
  ends : ∀ e ∈ w.edges, e.origin ∈ w.ids ∧ e.dest ∈ w.ids

/-- What is nonempty is not the empty text. -/
lemma nonempty_ne {value : Option String} {s : String} (h : nonempty value = some s) : s ≠ "" := by
  rw [nonempty, Option.filter_eq_some_iff, decide_eq_true_eq] at h
  exact h.2

/-- A node that an entry declares has an id. -/
lemma Node.ofEntry?_ne {entry : Element} {n : Node} (h : Node.ofEntry? entry = some n) :
    n.id ≠ "" := by
  obtain ⟨id, hid, e⟩ := Option.bind_eq_some_iff.1 h
  cases e
  exact nonempty_ne hid

/-- An edge that an entry declares has an id at both ends. -/
lemma Edge.ofEntry?_ne {entry : Element} {e : Edge} (h : Edge.ofEntry? entry = some e) :
    e.origin ≠ "" ∧ e.dest ≠ "" := by
  obtain ⟨origin, -, h⟩ := Option.bind_eq_some_iff.1 h
  obtain ⟨dest, -, h⟩ := Option.bind_eq_some_iff.1 h
  obtain ⟨originId, ho, h⟩ := Option.bind_eq_some_iff.1 h
  obtain ⟨destId, hd, h⟩ := Option.bind_eq_some_iff.1 h
  cases h
  exact ⟨nonempty_ne ho, nonempty_ne hd⟩

namespace Workflow

variable {document : Element} {entries : List Element} {declared : List Node} {edges : List Edge}
  {w : Workflow} {a : String} {e : Edge}

/-- The nodes that entries declare: of entries with the same id, the first counts. -/
def declaredNodes (entries : List Element) : List Node :=
  distinctBy Node.id [] (entries.filterMap Node.ofEntry?)

/-- The edges that a document declares. -/
def declaredEdges (document : Element) : List Edge :=
  (document.childrenAt ["Connections"] "Connection").filterMap Edge.ofEntry?

/-- The stand-ins for ends of edges without a node, in the order of their first mention. -/
def standIns (declared : List Node) (edges : List Edge) : List Node :=
  (distinctBy id (declared.map Node.id) (edges.flatMap fun e => [e.origin, e.dest])).map Node.standIn

/-- What a draft keeps of the ends of edges are the stand-ins. -/
lemma standIns_eq_distinctBy (declared : List Node) (edges : List Edge) :
    distinctBy Node.id (declared.map Node.id)
        (edges.flatMap fun e => [.standIn e.origin, .standIn e.dest]) =
      standIns declared edges := by
  have ends : (edges.flatMap fun e => [Node.standIn e.origin, .standIn e.dest]) =
      (edges.flatMap fun e => [e.origin, e.dest]).map Node.standIn := by
    rw [List.map_flatMap]
    rfl
  rw [ends, distinctBy_map]
  rfl

/-- A workflow is built from every document with the right root: the nodes that its entries declare, in
the order of the walk, then the stand-ins, and the edges. -/
lemma ofDocument_eq (root : document.name = rootName) :
    ∃ entries, Walk (document.childrenAt ["Nodes"] "Node") entries ∧
      ofDocument document = .ok
        { nodes := declaredNodes entries ++ standIns (declaredNodes entries) (declaredEdges document)
          edges := declaredEdges document } := by
  obtain ⟨entries, walk, taken⟩ := Draft.ofDocument_eq document
  refine ⟨entries, walk, ?_⟩
  -- The ids that the first pass leaves behind are those of its nodes, in another order.
  have known : distinctBy Node.id (((declaredNodes entries).map Node.id).reverse ++ [])
        ((declaredEdges document).flatMap fun e => [.standIn e.origin, .standIn e.dest]) =
      standIns (declaredNodes entries) (declaredEdges document) := by
    rw [← standIns_eq_distinctBy]
    apply distinctBy_congr
    intro n _
    rw [List.append_nil, List.mem_reverse]
  rw [ofDocument, if_pos root, taken, Draft.foldl_addConnection, Draft.foldl_addEntry,
    Draft.foldl_addNode, Draft.foldl_addEdge, Draft.foldl_addNode]
  exact congrArg _ (congrArg₂ Workflow.mk (congrArg _ known) rfl)

/-- The ids of the stand-ins. -/
lemma ids_standIns (declared : List Node) (edges : List Edge) :
    (standIns declared edges).map Node.id =
      distinctBy id (declared.map Node.id) (edges.flatMap fun e => [e.origin, e.dest]) := by
  rw [standIns, List.map_map]
  exact List.map_id _

/-- The stand-ins are for the ends of edges that no node has. -/
lemma mem_ids_standIns : a ∈ (standIns declared edges).map Node.id ↔
    (∃ e ∈ edges, a = e.origin ∨ a = e.dest) ∧ a ∉ declared.map Node.id := by
  have mem := @mem_keys_distinctBy String id (declared.map Node.id) a
    (edges.flatMap fun e => [e.origin, e.dest])
  rw [List.map_id, List.map_id, List.mem_flatMap] at mem
  rw [ids_standIns, mem]
  simp only [List.mem_cons, List.not_mem_nil, or_false]

/-- No declared node has an empty id. -/
lemma mem_declaredNodes_ne {n : Node} (h : n ∈ declaredNodes entries) : n.id ≠ "" := by
  obtain ⟨entry, -, hn⟩ := List.mem_filterMap.1 ((distinctBy_sublist _ _).subset h)
  exact Node.ofEntry?_ne hn

/-- No edge has an empty id at either end. -/
lemma mem_declaredEdges_ne (h : e ∈ declaredEdges document) : e.origin ≠ "" ∧ e.dest ≠ "" := by
  obtain ⟨entry, -, he⟩ := List.mem_filterMap.1 h
  exact Edge.ofEntry?_ne he

/-- The workflow of a document is closed. -/
lemma ofDocument_closed (h : ofDocument document = .ok w) : w.Closed := by
  have root : document.name = rootName := by
    by_contra ne
    rw [ofDocument, if_neg ne] at h
    cases h
  obtain ⟨entries, -, built⟩ := ofDocument_eq root
  rw [built] at h
  cases h
  have ids : ∀ {a}, a ∈ (declaredNodes entries ++
      standIns (declaredNodes entries) (declaredEdges document)).map Node.id ↔
      a ∈ (declaredNodes entries).map Node.id ∨
        ∃ e ∈ declaredEdges document, a = e.origin ∨ a = e.dest := by
    intro a
    rw [List.map_append, List.mem_append, mem_ids_standIns]
    by_cases hd : a ∈ (declaredNodes entries).map Node.id
    · simp [hd]
    · simp [hd]
  refine ⟨?_, ?_, ?_⟩
  · rw [Workflow.ids, List.map_append]
    refine List.nodup_append.2 ⟨keys_distinctBy_nodup _, ?_, ?_⟩
    · have nodup := @keys_distinctBy_nodup String id ((declaredNodes entries).map Node.id)
        ((declaredEdges document).flatMap fun e => [e.origin, e.dest])
      rwa [List.map_id, ← ids_standIns] at nodup
    · rintro a hd _ hs rfl
      exact (mem_ids_standIns.1 hs).2 hd
  · intro a ha
    rcases ids.1 ha with hd | ⟨e, he, rfl | rfl⟩
    · obtain ⟨n, hn, rfl⟩ := List.mem_map.1 hd
      exact mem_declaredNodes_ne hn
    · exact (mem_declaredEdges_ne he).1
    · exact (mem_declaredEdges_ne he).2
  · intro e he
    exact ⟨ids.2 (.inr ⟨e, he, .inl rfl⟩), ids.2 (.inr ⟨e, he, .inr rfl⟩)⟩

end Workflow

end Flowscript
