/-!
# Sets of characters

A set of characters given by the ranges of its code points.
-/

set_option autoImplicit false

namespace DocTable

/-- Ranges of code points, both ends included. -/
abbrev CharSet := List (Nat × Nat)

/-- Whether a character is in one of the ranges. -/
def CharSet.has (set : CharSet) (c : Char) : Bool :=
  set.any fun (first, last) => first ≤ c.toNat && c.toNat ≤ last

end DocTable
