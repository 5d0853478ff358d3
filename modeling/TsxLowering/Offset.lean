/-!
Byte offsets. An offset is stored in 32 bits, so sums and differences are checked: one that
does not fit is an `Overflow` and not a number.
-/

namespace TsxLowering

/-- Why an offset could not be computed. -/
inductive Overflow where
  | addition
  | subtraction
  deriving DecidableEq

def Overflow.message : Overflow → String
  | .addition => "attempt to add with overflow"
  | .subtraction => "attempt to subtract with overflow"

namespace Offset

/-- The largest offset. -/
def limit : Nat := 0xFFFFFFFF

/-- The offset nearest to an index. -/
def ofIndex (n : Nat) : Nat := min n limit

def add (a b : Nat) : Except Overflow Nat :=
  if a + b ≤ limit then .ok (a + b) else .error .addition

def sub (a b : Nat) : Except Overflow Nat :=
  if b ≤ a then .ok (a - b) else .error .subtraction

theorem ofIndex_eq {n : Nat} (h : n ≤ limit) : ofIndex n = n := Nat.min_eq_left h

theorem ofIndex_le (n : Nat) : ofIndex n ≤ limit := Nat.min_le_right n limit

theorem add_eq_ok_iff {a b c : Nat} : add a b = .ok c ↔ c = a + b ∧ a + b ≤ limit := by
  unfold add
  split <;> simp_all [eq_comm]

theorem sub_eq_ok_iff {a b c : Nat} : sub a b = .ok c ↔ c = a - b ∧ b ≤ a := by
  unfold sub
  split <;> simp_all [eq_comm]

end Offset

end TsxLowering
