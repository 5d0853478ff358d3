import TsxLowering.Markup.Frontmatter
import TsxLowering.Markup.Nesting

/-!
A component's source as a document: the script at its start, if there is one, and the markup
after it.
-/

namespace TsxLowering.Markup

structure Document where
  span : Span
  frontmatter : Option Frontmatter
  /-- The span of the markup. -/
  bodySpan : Span
  nodes : List Node
  deriving DecidableEq

structure Parsed where
  document : Document
  diagnostics : List Diagnostic
  deriving DecidableEq

/-- Reads a component. The only failure is a source with more bytes than offsets can count. -/
def parse (source : Text) : Except Diagnostic Parsed :=
  let size := source.size
  if size ≤ Offset.limit then
    let r := Frontmatter.read source
    let n := Nesting.ofEvents (Event.stream r.next) size
    .ok ⟨⟨⟨0, size⟩, r.value, ⟨r.next.pos, size⟩, n.nodes.reverse⟩,
      r.diagnostics ++ n.diagnostics.reverse⟩
  else .error ⟨.sourceTooLarge size, ⟨0, 0⟩⟩

end TsxLowering.Markup
