import TsxLowering.SourceMap

/-!
Generated code as a list of pieces. A piece refers to the source by spans, which may be laid
over another text than the one they were read from.
-/

namespace TsxLowering

inductive Piece where
  /-- The source under the span. -/
  | copied (span : Span)
  /-- The source under the span but for its last byte. -/
  | clipped (span : Span)
  /-- Text that stands for the span. -/
  | derived (span : Span) (text : Text)
  | synthetic (text : Text)
  deriving DecidableEq

namespace Piece

def text (source : Text) : Piece → Text
  | .copied span => span.slice source
  | .clipped span => Span.slice ⟨span.start, span.stop - 1⟩ source
  | .derived _ text | .synthetic text => text

def chunk (source : Text) : Piece → Except Overflow Chunk
  | .copied span => .ok (.copied span.start (span.slice source))
  | .clipped span => do
    let span ← span.dropLast
    return .copied span.start (span.slice source)
  | .derived span text => .ok (.derived span text)
  | .synthetic text => .ok (.synthetic text)

end Piece

/-- The code that pieces make over a source. -/
def generatedCode (source : Text) (pieces : List Piece) : Text :=
  pieces.flatMap (Piece.text source)

/-- The map from that code to the source. -/
def SourceMap.ofPieces (source : Text) (pieces : List Piece) : Except Overflow SourceMap := do
  SourceMap.ofChunks (← pieces.mapM (Piece.chunk source))

end TsxLowering
