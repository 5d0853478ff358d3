import TsxLowering.Cursor
import TsxLowering.Markup.TagName

/-!
The tree of a component's markup. Every part carries the span it was read from, and a part
that was never closed stays in the tree with what it holds.
-/

namespace TsxLowering.Markup

/-- A part between delimiters of one byte each. One that is not closed runs to the end of the
source. -/
structure Enclosed where
  span : Span
  text : Text
  closed : Bool
  deriving DecidableEq

/-- The span without the delimiters. -/
def Enclosed.innerSpan (e : Enclosed) : Span :=
  ⟨e.span.start + 1, if e.closed then e.span.stop - 1 else e.span.stop⟩

namespace Attribute

inductive Value where
  | empty
  | quoted (value : Enclosed)
  | unquoted (value : Excerpt)
  | expression (code : Enclosed)
  | template (literal : Enclosed)
  deriving DecidableEq

/-- The span of the value as written, delimiters included. -/
def Value.span? : Value → Option Span
  | .empty => none
  | .quoted v | .expression v | .template v => some v.span
  | .unquoted v => some v.span

end Attribute

inductive Attribute where
  | normal (span : Span) (name : Excerpt) (value : Attribute.Value)
  /-- Code after three dots, in braces. -/
  | spread (span : Span) (code : Excerpt)
  /-- A name in braces, which stands for the attribute of that name with that value. -/
  | shorthand (span : Span) (name : Excerpt)
  deriving DecidableEq

def Attribute.span : Attribute → Span
  | .normal span _ _ | .spread span _ | .shorthand span _ => span

/-- How a start tag ends. -/
inductive StartTag.Ending where
  | unclosed
  | closed
  | selfClosing
  deriving DecidableEq

structure StartTag where
  span : Span
  name : Excerpt
  attributes : List Attribute
  ending : StartTag.Ending
  deriving DecidableEq

namespace StartTag

def isVoid (t : StartTag) : Bool := isVoidName t.name.text

def isRawText (t : StartTag) : Bool := isRawTextName t.name.text

/-- Where the last attribute ends, or else the name. -/
def attributesEnd (t : StartTag) : Nat :=
  (t.attributes.getLast?.elim t.name.span Attribute.span).stop

/-- What follows the last attribute. -/
def tail (t : StartTag) : Span := ⟨t.attributesEnd, t.span.stop⟩

end StartTag

structure Element where
  span : Span
  startTag : StartTag
  /-- The content of a raw text element. -/
  rawText : Option Span
  endTag : Option Span
  deriving DecidableEq

inductive Node where
  | element (element : Element) (children : List Node)
  | text (run : Excerpt)
  | expression (code : Enclosed)
  | comment (span : Span) (data : Excerpt)
  | doctype (span : Span)

namespace Node

def span : Node → Span
  | .element e _ => e.span
  | .text t => t.span
  | .expression e => e.span
  | .comment span _ | .doctype span => span

mutual

def decEq : (m n : Node) → Decidable (m = n)
  | .element e ms, .element f ns =>
    match decEqList ms ns with
    | isTrue h => if he : e = f then isTrue (by rw [he, h]) else isFalse (by simp [he])
    | isFalse h => isFalse (by simp [h])
  | .text s, .text t => decidable_of_iff (s = t) (by simp)
  | .expression s, .expression t => decidable_of_iff (s = t) (by simp)
  | .comment s d, .comment t e => decidable_of_iff (s = t ∧ d = e) (by simp)
  | .doctype s, .doctype t => decidable_of_iff (s = t) (by simp)
  | .element .., .text _ | .element .., .expression _ | .element .., .comment ..
  | .element .., .doctype _ | .text _, .element .. | .text _, .expression _
  | .text _, .comment .. | .text _, .doctype _ | .expression _, .element ..
  | .expression _, .text _ | .expression _, .comment .. | .expression _, .doctype _
  | .comment .., .element .. | .comment .., .text _ | .comment .., .expression _
  | .comment .., .doctype _ | .doctype _, .element .. | .doctype _, .text _
  | .doctype _, .expression _ | .doctype _, .comment .. => isFalse nofun

def decEqList : (ms ns : List Node) → Decidable (ms = ns)
  | [], [] => isTrue rfl
  | m :: ms, n :: ns =>
    match decEq m n, decEqList ms ns with
    | isTrue h, isTrue hs => isTrue (by rw [h, hs])
    | isFalse h, _ => isFalse (by simp [h])
    | _, isFalse h => isFalse (by simp [h])
  | [], _ :: _ | _ :: _, [] => isFalse nofun

end

instance : DecidableEq Node := decEq

mutual

/-- The nodes of a tree in document order, each with the number of elements around it. -/
def walk (depth : Nat) : Node → List (Nat × Node)
  | .element e children => (depth, .element e children) :: walkAll (depth + 1) children
  | .text t => [(depth, .text t)]
  | .expression e => [(depth, .expression e)]
  | .comment span data => [(depth, .comment span data)]
  | .doctype span => [(depth, .doctype span)]

def walkAll (depth : Nat) : List Node → List (Nat × Node)
  | [] => []
  | n :: ns => walk depth n ++ walkAll depth ns

end

end Node

end TsxLowering.Markup
