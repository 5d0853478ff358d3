import TsxLowering.Bisection
import TsxLowering.Span

/-!
The map between a generated text and its source.

The generated text is put together from chunks: source text copied as it stands, other text
derived from a span of the source, and text with no source at all. The map has an entry for
every chunk of the first two kinds that is not empty, in order.
-/

namespace TsxLowering

structure Mapping where
  generated : Span
  source : Span
  deriving DecidableEq

/-- Whether both spans have the same length, as those of copied text have. -/
def Mapping.isVerbatim (m : Mapping) : Except Overflow Bool := do
  return (← m.generated.length) == (← m.source.length)

structure SourceMap where
  mappings : Array Mapping
  deriving DecidableEq

namespace SourceMap

/-- Carries a distance into a span, where one past its length stands for its start. -/
def shift (span : Span) (distance : Nat) : Except Overflow Nat := do
  if distance < (← span.length) then Offset.add span.start distance else return span.start

/-- The mapping whose generated span covers an offset. -/
def find? (m : SourceMap) (generated : Nat) : Option Mapping :=
  match partitionPoint m.mappings (·.generated.start ≤ generated) with
  | 0 => none
  | i + 1 => m.mappings[i]?.filter (·.generated.contains generated)

/-- The source offset that a generated offset comes from. -/
def sourceOffset? (m : SourceMap) (generated : Nat) : Except Overflow (Option Nat) :=
  match m.find? generated with
  | some e => do return some (← shift e.source (← Offset.sub generated e.generated.start))
  | none => .ok none

/-- The first generated offset that comes from a source offset. -/
def generatedOffset? (m : SourceMap) (source : Nat) : Except Overflow (Option Nat) :=
  match m.mappings.find? (·.source.contains source) with
  | some e => do return some (← shift e.generated (← Offset.sub source e.source.start))
  | none => .ok none

end SourceMap

inductive Chunk where
  /-- Source text from the offset `start`. -/
  | copied (start : Nat) (text : Text)
  | derived (source : Span) (text : Text)
  | synthetic (text : Text)
  deriving DecidableEq

def Chunk.text : Chunk → Text
  | .copied _ text | .derived _ text | .synthetic text => text

/-- A map under construction, and the size of the text generated so far. -/
structure SourceMap.Builder where
  mappings : Array Mapping
  generated : Nat
  deriving DecidableEq

namespace SourceMap.Builder

def empty : Builder := ⟨#[], 0⟩

def record (b : Builder) (source : Span) (text : Text) : Except Overflow Builder := do
  let stop ← Offset.add b.generated (Offset.ofIndex text.size)
  let mappings :=
    if stop = b.generated then b.mappings
    else b.mappings.push ⟨⟨b.generated, stop⟩, source⟩
  return ⟨mappings, stop⟩

def add (b : Builder) : Chunk → Except Overflow Builder
  | .copied start text => do
    let stop ← Offset.add start (Offset.ofIndex text.size)
    b.record ⟨start, stop⟩ text
  | .derived source text => b.record source text
  | .synthetic text => do
    return { b with generated := ← Offset.add b.generated (Offset.ofIndex text.size) }

def build (b : Builder) : SourceMap := ⟨b.mappings⟩

end SourceMap.Builder

/-- The map of a text put together from these chunks. -/
def SourceMap.ofChunks (chunks : List Chunk) : Except Overflow SourceMap := do
  return (← chunks.foldlM Builder.add Builder.empty).build

end TsxLowering
