import TsxLowering.Encoding.Base64

/-!
Integers as digits of base 64, of variable length: five bits to a digit, the lowest first, and
a sixth that says whether more digits follow. The lowest bit of the number is its sign.
-/

namespace TsxLowering.Vlq

def digits (n : Nat) : List Nat :=
  if n < 32 then [n] else (n % 32 + 32) :: digits (n / 32)

def encode (i : Int) : Text :=
  (digits (2 * i.natAbs + if i < 0 then 1 else 0)).map Base64.digit

end TsxLowering.Vlq
