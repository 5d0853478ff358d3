/-!
Sets of characters given by ranges of code points, both ends included.
-/

namespace TsxLowering.Unicode

abbrev Ranges := List (Nat × Nat)

def Ranges.contains (r : Ranges) (c : Char) : Bool :=
  r.any fun (first, last) => first ≤ c.toNat && c.toNat ≤ last

end TsxLowering.Unicode
