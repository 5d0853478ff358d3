import TsxLowering.Markup.Event

/-!
The tree of a sequence of events.

A closing tag closes the innermost open element of its name, and with it those opened since,
each of which is reported. Without such an element it is stray: it is reported and leaves no
node.
-/

namespace TsxLowering.Markup

/-- An open element, and the nodes before it on its own level, the last one first. -/
structure Level where
  tag : StartTag
  siblings : List Node
  deriving DecidableEq

/-- The element of a level, once all nodes inside it are known, the last one first. -/
def Level.element (l : Level) (nodes : List Node) (endTag : Option Span) (stop : Nat) : Node :=
  .element ⟨⟨l.tag.span.start, stop⟩, l.tag, none, endTag⟩ nodes.reverse

/-- A tree under construction: the nodes on the innermost level, the last one first, the open
elements from the inside out, and the diagnostics, the last one first. -/
structure Nesting where
  nodes : List Node
  levels : List Level
  diagnostics : List Diagnostic
  deriving DecidableEq

namespace Nesting

def empty : Nesting := ⟨[], [], []⟩

/-- Ends the open elements up to the first one with the name of a closing tag, which is its end
tag. -/
def closeThrough (tag : ClosingTag) (nodes : List Node) (diagnostics : List Diagnostic) :
    List Level → Nesting
  | [] => ⟨nodes, [], diagnostics⟩
  | level :: levels =>
    let name := level.tag.name.text
    if name = tag.name then
      ⟨level.element nodes (some tag.span) tag.span.stop :: level.siblings, levels, diagnostics⟩
    else
      closeThrough tag (level.element nodes none tag.span.start :: level.siblings)
        (⟨.mismatchedClosingTag name tag.name, tag.span⟩ :: diagnostics) levels

def add (n : Nesting) : Event → Nesting
  | .leaf node => { n with nodes := node :: n.nodes }
  | .opening tag => { n with nodes := [], levels := ⟨tag, n.nodes⟩ :: n.levels }
  | .closing tag =>
    if n.levels.any (·.tag.name.text == tag.name) then
      closeThrough tag n.nodes n.diagnostics n.levels
    else { n with diagnostics := ⟨.strayClosingTag tag.name, tag.span⟩ :: n.diagnostics }

/-- What is to be reported about an event comes before what its place in the tree gives. -/
def addReading (n : Nesting) (r : Reading Event) : Nesting :=
  add { n with diagnostics := r.diagnostics.reverse ++ n.diagnostics } r.value

/-- Ends all open elements at the end of the source. -/
def closeAll (stop : Nat) (nodes : List Node) (diagnostics : List Diagnostic) :
    List Level → Nesting
  | [] => ⟨nodes, [], diagnostics⟩
  | level :: levels =>
    closeAll stop (level.element nodes none stop :: level.siblings)
      (⟨.unclosedTag level.tag.name.text, level.tag.span⟩ :: diagnostics) levels

/-- The tree of all events of a source that ends at `stop`. -/
def ofEvents (events : List (Reading Event)) (stop : Nat) : Nesting :=
  let n := events.foldl addReading empty
  closeAll stop n.nodes n.diagnostics n.levels

end Nesting

end TsxLowering.Markup
