/-!
Binary search: for the point where a property of indices turns from true to false, and for a key
among elements in order.
-/

namespace TsxLowering

/-- The first index from `lo` on at which `p` fails, or `hi`, when `p` holds nowhere between
after it has failed once. -/
def bisect (p : Nat → Bool) (lo hi : Nat) : Nat :=
  if lo < hi then
    let mid := lo + (hi - lo) / 2
    if p mid then bisect p (mid + 1) hi else bisect p lo mid
  else lo
termination_by hi - lo

/-- The number of leading elements with property `p`, when no other element has it. -/
def partitionPoint {α : Type} (xs : Array α) (p : α → Bool) : Nat :=
  bisect (fun i => xs[i]?.any p) 0 xs.size

/-- What comes of the search for a key. -/
inductive SearchResult where
  /-- The key is at this index. -/
  | found (i : Nat)
  /-- The key is not there, and would have to be put in at this index. -/
  | absent (i : Nat)
  deriving DecidableEq

/-- The last of `size` indices from `base` on at which the element is not past the key, or `base`
if all are. It does not stop at the key: the size alone decides how often it is halved. -/
def lastUpTo (cmp : Nat → Ordering) (base size : Nat) : Nat :=
  if 1 < size then
    let half := size / 2
    let mid := base + half
    if cmp mid = .gt then lastUpTo cmp base (size - half) else lastUpTo cmp mid (size - half)
  else base
termination_by size

/-- The place of a key in an array in order, by how each element compares to it. -/
def binarySearch {α : Type} (xs : Array α) (cmp : α → Ordering) : SearchResult :=
  let base := lastUpTo (fun i => (xs[i]?.map cmp).getD .gt) 0 xs.size
  match xs[base]?.map cmp with
  | some .eq => .found base
  | some .lt => .absent (base + 1)
  | _ => .absent base

end TsxLowering
