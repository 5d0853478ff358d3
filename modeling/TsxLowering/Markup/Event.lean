import TsxLowering.Markup.ClosingTag
import TsxLowering.Markup.StartTag

/-!
Markup as a flat sequence of events: start tags with content to come, closing tags, and all
that is complete in itself. What the next event is depends on the text alone and not on which
elements are open, so the events of a text follow each other without gap or overlap.
-/

namespace TsxLowering.Markup

inductive Event where
  /-- A node with no nodes inside. -/
  | leaf (node : Node)
  | opening (tag : StartTag)
  | closing (tag : ClosingTag)
  deriving DecidableEq

namespace Event

def span : Event → Span
  | .leaf node => node.span
  | .opening tag => tag.span
  | .closing tag => tag.span

/-- Whether the text after a `<` makes it markup and not a character of the text. -/
def startsMarkup : Text → Bool
  | '!' :: _ => true
  | '/' :: s => startsTagName s
  | s => startsTagName s

/-- The text up to the next expression or markup. -/
def textRun : Text → Text
  | [] => []
  | c :: s => if c == '\x7b' || (c == '<' && startsMarkup s) then [] else c :: textRun s

/-- Reads text of at least one character, whatever that is. -/
def readText (c : Cursor) : Reading Event :=
  let n := 1 + (textRun (c.rest.drop 1)).length
  ⟨.leaf (.text (c.excerpt n)), [], c.advance n⟩

def readExpression (c : Cursor) : Reading Event :=
  let r := Enclosed.readCode c
  ⟨.leaf (.expression r.value), r.diagnostics, r.next⟩

def readComment (c : Cursor) : Reading Event :=
  let afterOpen := c.advance 4
  match afterOpen.rest.splitOnce ['-', '-', '>'] with
  | some (data, _) =>
    let next := afterOpen.advance (data.length + 3)
    ⟨.leaf (.comment (c.spanTo next) (afterOpen.excerpt data.length)), [], next⟩
  | none =>
    let span := c.spanTo c.atEnd
    ⟨.leaf (.comment span (afterOpen.excerpt afterOpen.rest.length)), [⟨.unclosedComment, span⟩],
      c.atEnd⟩

def readDoctype (c : Cursor) : Reading Event :=
  let next :=
    match c.rest.splitOnce ['>'] with
    | some (body, _) => c.advance (body.length + 1)
    | none => c.atEnd
  ⟨.leaf (.doctype (c.spanTo next)), [], next⟩

def readClosing (c : Cursor) : Reading Event :=
  let (tag, next) := ClosingTag.read c
  ⟨.closing tag, [], next⟩

/-- The closing tag right behind the start tag of a void element, which belongs to it. -/
def readVoidEnd (tag : StartTag) (c : Cursor) : Option Span × Cursor :=
  match c.rest with
  | '<' :: '/' :: _ =>
    let (closer, next) := ClosingTag.read c
    if tag.isVoid && closer.name.sameIgnoringCase tag.name.text then (some closer.span, next)
    else (none, c)
  | _ => (none, c)

/-- The number of characters before the first `</` with `name` behind it. -/
def rawTextLength (name : Text) : Text → Option Nat
  | [] => none
  | '<' :: '/' :: s =>
    if Text.sameIgnoringCase (s.take name.length) name then some 0
    else (rawTextLength name ('/' :: s)).map (· + 1)
  | _ :: s => (rawTextLength name s).map (· + 1)

/-- Reads the content and the closing tag of a raw text element. -/
def readRawText (tag : StartTag) (c : Cursor) : Reading (Span × Option Span) :=
  match rawTextLength tag.name.text c.rest with
  | some n =>
    let (closer, next) := ClosingTag.read (c.advance n)
    ⟨(c.spanTo (c.advance n), some closer.span), [], next⟩
  | none => ⟨(c.spanTo c.atEnd, none), [⟨.unclosedTag tag.name.text, tag.span⟩], c.atEnd⟩

def readElement (c : Cursor) : Reading Event :=
  let r := StartTag.read c
  let tag := r.value
  if tag.ending = .unclosed then
    ⟨.leaf (.element ⟨tag.span, tag, none, none⟩ []), r.diagnostics, r.next⟩
  else if tag.ending = .selfClosing || tag.isVoid then
    let (endTag, next) := readVoidEnd tag r.next
    ⟨.leaf (.element ⟨c.spanTo next, tag, none, endTag⟩ []), r.diagnostics, next⟩
  else if tag.isRawText then
    let raw := readRawText tag r.next
    let (content, endTag) := raw.value
    ⟨.leaf (.element ⟨c.spanTo raw.next, tag, some content, endTag⟩ []),
      r.diagnostics ++ raw.diagnostics, raw.next⟩
  else ⟨.opening tag, r.diagnostics, r.next⟩

/-- Reads the event at the cursor. -/
def read (c : Cursor) : Reading Event :=
  match c.rest with
  | '\x7b' :: _ => readExpression c
  | '<' :: '!' :: '-' :: '-' :: _ => readComment c
  | '<' :: '!' :: _ => readDoctype c
  | '<' :: '/' :: s => if startsTagName s then readClosing c else readText c
  | '<' :: s => if startsTagName s then readElement c else readText c
  | _ => readText c

theorem readVoidEnd_rest_le (tag : StartTag) (c : Cursor) :
    (readVoidEnd tag c).2.rest.length ≤ c.rest.length := by
  unfold readVoidEnd
  split
  · dsimp only
    split
    · exact Nat.le_trans (ClosingTag.read_rest_le c) (Nat.sub_le ..)
    · exact Nat.le_refl _
  · exact Nat.le_refl _

theorem readRawText_rest_le (tag : StartTag) (c : Cursor) :
    (readRawText tag c).next.rest.length ≤ c.rest.length := by
  unfold readRawText
  split
  · refine Nat.le_trans (ClosingTag.read_rest_le _) ?_
    simp only [Cursor.rest_advance, List.length_drop]
    omega
  · simp [Cursor.atEnd]

theorem readElement_rest_lt {c : Cursor} (h : c.rest ≠ []) :
    (readElement c).next.rest.length < c.rest.length := by
  have hlt := StartTag.read_rest_lt h
  simp only [readElement]
  split
  · exact hlt
  · split
    · exact Nat.lt_of_le_of_lt (readVoidEnd_rest_le _ _) hlt
    · split
      · exact Nat.lt_of_le_of_lt (readRawText_rest_le _ _) hlt
      · exact hlt

theorem read_rest_lt {c : Cursor} (h : c.rest ≠ []) :
    (read c).next.rest.length < c.rest.length := by
  have hpos := List.length_pos_iff.mpr h
  have htext : (readText c).next.rest.length < c.rest.length := by
    simp only [readText, Cursor.rest_advance, List.length_drop]
    omega
  -- all but text take their opening characters at least
  unfold read
  split
  · simp only [readExpression, Enclosed.readCode]
    exact Enclosed.read_rest_lt h _
  · unfold readComment
    dsimp only
    split <;> simp [Cursor.atEnd] <;> omega
  · unfold readDoctype
    dsimp only
    split <;> simp [Cursor.atEnd] <;> omega
  · split
    · have := ClosingTag.read_rest_le c
      simp only [readClosing]
      omega
    · exact htext
  · split
    · exact readElement_rest_lt h
    · exact htext
  · exact htext

/-- The events from the cursor to the end of the text. -/
def stream (c : Cursor) : List (Reading Event) :=
  if _ : c.rest = [] then [] else read c :: stream (read c).next
termination_by c.rest.length
decreasing_by exact read_rest_lt ‹_›

end Event

end TsxLowering.Markup
