import TsxLowering.Encoding.JsonString
import TsxLowering.Encoding.Vlq
import TsxLowering.SourceMap.Segments

/-!
The written form of a source map, version 3 of the common format: a JSON object in which the
segments are differences between successive ones.
-/

namespace TsxLowering

structure EncodedMap where
  sourceName : Text
  sourceText : Text
  segments : List Segment
  deriving DecidableEq

namespace EncodedMap

/-- The name of a source that has none. -/
def defaultSourceName : Text := "<stdin>".toList

def difference (a b : Nat) : Text := Vlq.encode ((a : Int) - b)

/-- One segment after another. A semicolon stands for each line ended in between, after which
the generated column counts from zero again; the index of the source never changes. -/
def writeSegments (first : Bool) (prev : Segment) : List Segment → Text
  | [] => []
  | s :: rest =>
    let lines := s.generated.line - prev.generated.line
    let separator := if 0 < lines then List.replicate lines ';' else if first then [] else [',']
    let column := if 0 < lines then 0 else prev.generated.column
    separator ++ difference s.generated.column column ++ Vlq.encode 0 ++
      difference s.source.line prev.source.line ++
      difference s.source.column prev.source.column ++ writeSegments false s rest

def mappings (m : EncodedMap) : Text := writeSegments true ⟨⟨0, 0⟩, ⟨0, 0⟩⟩ m.segments

def json (m : EncodedMap) : Text :=
  "\x7b\"version\":3,\"names\":[],\"sources\":[".toList ++ JsonString.encode m.sourceName ++
    "],\"sourcesContent\":[".toList ++ JsonString.encode m.sourceText ++
    "],\"mappings\":\"".toList ++ m.mappings ++ "\"\x7d".toList

def dataUrl (m : EncodedMap) : Text :=
  "data:application/json;charset=utf-8;base64,".toList ++ Base64.encodeText m.json

end EncodedMap

end TsxLowering
