import TsxLowering.Markup.Attribute

/-!
Reading start tags. Between its attributes a start tag may hold line breaks and stray
punctuation. It ends at `>` or `/>`; one that meets the end of the text or other markup first
is unclosed and reaches only as far as its last attribute.
-/

namespace TsxLowering.Markup

namespace StartTag

/-- What may come next in a start tag. -/
inductive Item where
  | attribute (reading : Reading Attribute)
  /-- A line break or stray punctuation. -/
  | stray (next : Cursor)
  | tagEnd (ending : Ending) (next : Cursor)
  /-- The tag does not end. -/
  | missing (diagnostics : List Diagnostic)
  deriving DecidableEq

def Item.read (c : Cursor) : Item :=
  let (token, next) := Token.next c
  match token.kind with
  | .name => .attribute (Attribute.readNamed ⟨token.span, token.text⟩ next)
  | .braceOpen =>
    match Code.split '\x7d' next.rest with
    | some (inner, _) =>
      .attribute ⟨.ofBraces token.span.start next inner, [], next.advance (inner.length + 1)⟩
    | none => .missing [⟨.unclosedExpression, ⟨token.span.start, c.atEnd.pos⟩⟩]
  | .tagEnd => .tagEnd .closed next
  | .selfClosingEnd => .tagEnd .selfClosing next
  | .equals | .lineBreak | .invalid => .stray next
  | .tagOpen | .closingTagOpen | .declarationOpen | .commentOpen | .endOfInput => .missing []

/-- Where to read on, unless the tag does not end. -/
def Item.next? : Item → Option Cursor
  | .attribute r => some r.next
  | .stray next | .tagEnd _ next => some next
  | .missing _ => none

theorem Item.read_rest_lt {c next : Cursor} (h : (Item.read c).next? = some next) :
    next.rest.length < c.rest.length := by
  have hlt := Token.next_rest_lt (c := c)
  unfold Item.read at h
  dsimp only at h
  split at h
  · cases h
    exact Nat.lt_of_le_of_lt (Attribute.readNamed_rest_le _ _) (hlt (by simp [*]))
  · split at h
    · cases h
      have := hlt (by simp [*])
      simp only [Cursor.rest_advance, List.length_drop]
      omega
    · cases h
  all_goals cases h
  all_goals exact hlt (by simp [*])

/-- A start tag from behind its name on. -/
structure Tail where
  attributes : List Attribute
  ending : Ending
  deriving DecidableEq

/-- Puts an attribute in front of what follows it. -/
def Tail.cons (a : Reading Attribute) (r : Reading Tail) : Reading Tail :=
  ⟨⟨a.value :: r.value.attributes, r.value.ending⟩, a.diagnostics ++ r.diagnostics, r.next⟩

/-- Reads up to the end of the tag. `last` is where the last attribute ended. -/
def Tail.read (last c : Cursor) : Reading Tail :=
  match _h : Item.read c with
  | .attribute a => Tail.cons a (Tail.read a.next a.next)
  | .stray next => Tail.read last next
  | .tagEnd ending next => ⟨⟨[], ending⟩, [], next⟩
  | .missing diagnostics => ⟨⟨[], .unclosed⟩, diagnostics, last⟩
termination_by c.rest.length
decreasing_by all_goals exact Item.read_rest_lt (by rw [_h]; rfl)

theorem Tail.read_rest_le {last c : Cursor} {n : Nat} (hl : last.rest.length ≤ n)
    (hc : c.rest.length ≤ n) : (Tail.read last c).next.rest.length ≤ n := by
  fun_induction Tail.read last c with
  | case1 last c a h ih =>
    have := @Item.read_rest_lt c a.next (by rw [h]; rfl)
    exact ih (by omega) (by omega)
  | case2 last c next h ih =>
    have := @Item.read_rest_lt c next (by rw [h]; rfl)
    exact ih hl (by omega)
  | case3 last c ending next h =>
    have := @Item.read_rest_lt c next (by rw [h]; rfl)
    exact Nat.le_trans (Nat.le_of_lt this) hc
  | case4 => exact hl

/-- Reads the tag whose `<` is at the cursor. -/
def read (c : Cursor) : Reading StartTag :=
  let afterOpen := c.advance 1
  let n := (afterOpen.rest.takeWhile isNameChar).length
  let name := afterOpen.excerpt n
  let r := Tail.read (afterOpen.advance n) (afterOpen.advance n)
  let tag : StartTag := ⟨c.spanTo r.next, name, r.value.attributes, r.value.ending⟩
  let unclosed : List Diagnostic :=
    match tag.ending with
    | .unclosed => [⟨.unclosedStartTag name.text, tag.span⟩]
    | _ => []
  ⟨tag, r.diagnostics ++ unclosed, r.next⟩

theorem read_rest_lt {c : Cursor} (h : c.rest ≠ []) :
    (read c).next.rest.length < c.rest.length := by
  have hpos := List.length_pos_iff.mpr h
  have hname (n : Nat) : ((c.advance 1).advance n).rest.length ≤ c.rest.length - 1 := by
    simp only [Cursor.rest_advance, List.length_drop]
    omega
  have hle (n : Nat) := Tail.read_rest_le (hname n) (hname n)
  simp only [read]
  exact Nat.lt_of_le_of_lt (hle _) (by omega)

end StartTag

end TsxLowering.Markup
