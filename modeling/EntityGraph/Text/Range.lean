/-!
Sets of characters, given by ranges of their code points.
-/

namespace EntityGraph.Text

/-- Ranges of code points, each by its first and its last one. -/
abbrev Ranges := List (Nat × Nat)

namespace Ranges

/-- A character lies in one of the ranges. -/
def contains (rs : Ranges) (c : Char) : Bool := rs.any fun r => r.1 ≤ c.toNat && c.toNat ≤ r.2

end Ranges

end EntityGraph.Text
