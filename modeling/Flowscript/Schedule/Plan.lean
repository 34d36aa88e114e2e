import Flowscript.Distinct
import Flowscript.Index
import Flowscript.Workflow.Basic

/-!
# Plans

What the order of a workflow is found from: the ids that it declares, how many edges lead into each
of them, and where the edges from each id lead. All of it is gathered in one pass over the edges.
-/

namespace Flowscript

/-- The declared ids in their order, the number of edges into each of them, and the ends of the
edges from each id, in the order of the edges. -/
structure Plan where
  declared : List String
  degrees : List (String × Nat)
  successors : List (String × List String)
deriving DecidableEq, Repr

namespace Plan

/-- The plan of nodes without edges. -/
def ofIds (ids : List String) : Plan :=
  { declared := ids, degrees := ids.map (·, 0), successors := [] }

/-- The plan with one more edge. -/
def addEdge (p : Plan) (e : Edge) : Plan :=
  { p with
    degrees := adjust (· + 1) e.dest p.degrees
    successors := record e.origin e.dest p.successors }

/-- The plan of a workflow. Of nodes with the same id, the first counts. -/
def ofWorkflow (w : Workflow) : Plan :=
  w.edges.foldl addEdge (ofIds (distinctBy id [] (w.nodes.map Node.id)))

/-- The ends of the edges from this id. -/
def successorsOf (p : Plan) (id : String) : List String :=
  recorded p.successors id

/-- The declared ids that no edge leads into. -/
def frontier (p : Plan) : List String :=
  p.declared.filter fun id => p.degrees.lookup id = some 0

end Plan

end Flowscript
