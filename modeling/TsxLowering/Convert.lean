import TsxLowering.Emission.Document
import TsxLowering.MapMode
import TsxLowering.SourceMap.Encoded

/-!
Converting a component to TSX, with a map from the code back to the source.
-/

namespace TsxLowering

structure Options where
  /-- The path of the component's file. -/
  filename : Option Text := none
  mapMode : MapMode := .omitted
  deriving DecidableEq

structure MapResult where
  map : SourceMap
  encoded : EncodedMap
  deriving DecidableEq

structure Converted where
  code : Text
  map : Option MapResult
  deriving DecidableEq

/-- Why there is no code for a source. -/
inductive ConvertError where
  | parse (diagnostic : Markup.Diagnostic)
  | overflow (cause : Overflow)
  deriving DecidableEq

def ConvertError.message : ConvertError → Text
  | .parse d => "failed to parse component: ".toList ++ d.problem.message
  | .overflow o => o.message.toList

/-- Converts a document that was read before. Its spans are laid over `source`. -/
def convertDocument (d : Markup.Document) (source : Text) (options : Options) :
    Except Overflow Converted := do
  let pieces := Emission.documentPieces source (options.filename.elim [] Component.name) d
  let code := generatedCode source pieces
  let map ← SourceMap.ofPieces source pieces
  if !options.mapMode.isEnabled then return ⟨code, none⟩
  let encoded : EncodedMap :=
    ⟨options.filename.getD EncodedMap.defaultSourceName, source, ← map.segments code source⟩
  let comment :=
    if options.mapMode.embedsMap then "\n//# sourceMappingURL=".toList ++ encoded.dataUrl else []
  return ⟨code ++ comment, if options.mapMode.returnsMap then some ⟨map, encoded⟩ else none⟩

/-- Converts a component. Problems in its markup do not keep it from being converted. -/
def convert (source : Text) (options : Options) : Except ConvertError Converted :=
  match Markup.parse source with
  | .error d => .error (.parse d)
  | .ok parsed => (convertDocument parsed.document source options).mapError .overflow

end TsxLowering
