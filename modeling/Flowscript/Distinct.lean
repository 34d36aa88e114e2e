/-!
# Distinct entries

Lists in which each key is used once: of entries with the same key, the first stays.
-/

namespace Flowscript

/-- The entries with keys outside `seen`, without those whose key an earlier entry has. -/
def distinctBy {α : Type} (key : α → String) (seen : List String) : List α → List α
  | [] => []
  | a :: as =>
    if key a ∈ seen then
      distinctBy key seen as
    else
      a :: distinctBy key (key a :: seen) as

end Flowscript
