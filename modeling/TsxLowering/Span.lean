import TsxLowering.Offset
import TsxLowering.Text

/-!
Spans: half-open byte ranges. A span does not hold the text it points into, so it may be laid
over a text it was not taken from; what it covers there is empty unless both ends are
boundaries between characters.
-/

namespace TsxLowering

structure Span where
  start : Nat
  stop : Nat
  deriving DecidableEq

namespace Span

/-- Indices past the largest offset become the largest offset. -/
def ofIndices (start stop : Nat) : Span := ⟨Offset.ofIndex start, Offset.ofIndex stop⟩

def empty (n : Nat) : Span := ⟨n, n⟩

/-- The number of bytes, if the ends are in order. -/
def length (s : Span) : Except Overflow Nat := Offset.sub s.stop s.start

/-- Ends out of order count as empty. -/
def isEmpty (s : Span) : Bool := s.stop ≤ s.start

def contains (s : Span) (n : Nat) : Bool := s.start ≤ n && n < s.stop

/-- The text under the span, or nothing where `text` has no such part. -/
def slice (s : Span) (text : Text) : Text := (text.slice? s.start s.stop).getD []

/-- The span without its last byte. -/
def dropLast (s : Span) : Except Overflow Span := do
  return ⟨s.start, ← Offset.sub s.stop 1⟩

end Span

end TsxLowering
