import TsxLowering.Component
import TsxLowering.Emission.Node
import TsxLowering.Emission.Script
import TsxLowering.Markup.Document

/-!
A whole component in TSX: its script as it stands, its markup in a wrapper that makes one
expression of all nodes, and a declaration that exports it.
-/

namespace TsxLowering.Emission

open Markup (Document Node)

def isBlankNode : Node → Bool
  | .text t => t.text.isBlank
  | _ => false

/-- The blank nodes before all others. They stay outside of the wrapper. -/
def leadingBlank (nodes : List Node) : List Node := nodes.takeWhile isBlankNode

/-- Where the wrapped part of the markup starts. -/
def wrapperStart (d : Document) : Nat :=
  ((leadingBlank d.nodes).getLast?.map (·.span.stop)).getD d.bodySpan.start

def wrapperOpen : Piece := synthetic "<Fragment>\n"

def wrapperClose : Piece := synthetic "\n</Fragment>\n"

/-- A statement that keeps the wrapper apart from a script. -/
def separator : Piece := synthetic "\"\";"

/-- The script, and the blanks between it and the wrapper. -/
def scriptPieces (d : Document) : List Piece :=
  (d.frontmatter.toList.map fun f => .copied f.content.span) ++
    [.copied ⟨d.bodySpan.start, wrapperStart d⟩] ++
    if d.frontmatter.any fun f => needsSeparator f.content.text then [separator] else []

def bodyPieces (source : Text) (d : Document) : List Piece :=
  nodeListPieces source (wrapperStart d) d.bodySpan.stop
    (d.nodes.drop (leadingBlank d.nodes).length)

def documentPieces (source : Text) (componentName : Text) (d : Document) : List Piece :=
  scriptPieces d ++ wrapperOpen :: bodyPieces source d ++
    [wrapperClose, .synthetic (Component.exportDeclaration componentName)]

end TsxLowering.Emission
