import TsxLowering.Convert
import TsxLowering.Proofs.Boundary
import TsxLowering.Proofs.CodeScan
import TsxLowering.Proofs.Cursor
import TsxLowering.Proofs.Faithful.StartTag
import TsxLowering.Proofs.Faithful.Event
import TsxLowering.Proofs.Faithful.Tree
import TsxLowering.Proofs.Layers
import TsxLowering.Proofs.LineIndex
import TsxLowering.Proofs.NestedCode
import TsxLowering.Proofs.Spans
import TsxLowering.Proofs.TagReports
import TsxLowering.Proofs.RoundTrip.Document
import TsxLowering.Proofs.Lookup
import TsxLowering.Proofs.PieceMap
import TsxLowering.Proofs.Segments
import TsxLowering.Proofs.Emission.Fits
import TsxLowering.Proofs.Emission.Preserved
import TsxLowering.Proofs.Emission.Passthrough
import TsxLowering.Proofs.Emission.Coverage
import TsxLowering.Proofs.Emission.Rewriting
import TsxLowering.Proofs.Emission.Shape
import TsxLowering.Proofs.Emission.Overlay
import TsxLowering.Proofs.Decoding.Json
import TsxLowering.Proofs.Decoding.Map
import TsxLowering.Proofs.Emission.Reread
import TsxLowering.Proofs.Emission.Components
import TsxLowering.Proofs.Emission.RawText
import TsxLowering.Proofs.Fences
import TsxLowering.Proofs.Emission.Lead
import TsxLowering.Proofs.Emission.Separator
import TsxLowering.Proofs.Emission.Comments
import TsxLowering.Proofs.ChunkMap
import TsxLowering.Proofs.LineBytes
import TsxLowering.Proofs.Identifiers
import TsxLowering.Proofs.ClosingTags
import TsxLowering.Proofs.RawTextEnd
import TsxLowering.Proofs.OpenCode.Reading
import TsxLowering.Proofs.OpenCode.Reports
import TsxLowering.Proofs.Emission.Shorthand
import TsxLowering.Proofs.Tokens
import TsxLowering.Proofs.SpacedValues
import TsxLowering.Proofs.Descent.Literals
import TsxLowering.Proofs.Descent.Agreement
import TsxLowering.Proofs.Descent.Octets
import TsxLowering.Proofs.Descent.ByteScan
import TsxLowering.Proofs.Descent.Progress
