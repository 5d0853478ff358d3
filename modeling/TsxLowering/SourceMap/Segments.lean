import TsxLowering.LineIndex
import TsxLowering.SourceMap

/-!
A source map by lines and columns. Every mapping gives a segment at its start. Copied text
gives one more at each line start inside, so that a segment stands at or before every position
on each of its lines.
-/

namespace TsxLowering

/-- A generated position and the source position it comes from. -/
structure Segment where
  generated : Position
  source : Position
  deriving DecidableEq

/-- The segment of two offsets that both have a position. -/
def Segment.ofPositions? (generated source : Option Position) : Option Segment :=
  match generated, source with
  | some g, some s => some ⟨g, s⟩
  | _, _ => none

/-- The segment at a line start inside a span copied from the source, if there is one. -/
def Mapping.innerSegment? (m : Mapping) (generated source : LineIndex) (start : Nat) :
    Except Overflow (Option Segment) := do
  let offset ← Offset.add m.generated.start (← Offset.sub start m.source.start)
  return Segment.ofPositions? (generated.position? offset) (source.position? start)

/-- The segments at the line starts inside a span copied from the source. -/
def Mapping.innerSegments (m : Mapping) (generated source : LineIndex) :
    Except Overflow (List Segment) := do
  let starts := source.startsBetween m.source.start m.source.stop
  return (← starts.mapM (m.innerSegment? generated source)).filterMap id

def Mapping.segments (m : Mapping) (generated source : LineIndex) :
    Except Overflow (List Segment) :=
  match Segment.ofPositions? (generated.unitPosition? m.generated.start)
      (source.unitPosition? m.source.start) with
  | none => .ok []
  | some first => do
    if ← m.isVerbatim then return first :: (← m.innerSegments generated source)
    else return [first]

def SourceMap.segments (m : SourceMap) (generated source : Text) :
    Except Overflow (List Segment) := do
  let generated := LineIndex.ofText generated
  let source := LineIndex.ofText source
  return (← m.mappings.toList.mapM (·.segments generated source)).flatten

end TsxLowering
