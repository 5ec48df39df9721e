/-!
What can be reached from some members of a finite domain by a step relation. Every member is
visited once, so the visit ends although steps may lead in circles.
-/

namespace EntityGraph

variable {α : Type} [DecidableEq α]

/-- The members of a domain that are pending or lie behind a pending one, in the order they are
visited. -/
def reachable (next : α → List α) : List α → List α → List α
  | _, [] => []
  | domain, a :: pending =>
    if a ∈ domain then a :: reachable next (domain.erase a) (next a ++ pending)
    else reachable next domain pending
termination_by domain pending => (domain.length, pending.length)
decreasing_by
  · have := List.length_erase_of_mem ‹a ∈ domain›
    have := List.length_pos_of_mem ‹a ∈ domain›
    exact Prod.Lex.left _ _ (by omega)
  · exact Prod.Lex.right _ (by simp)

end EntityGraph
