import TsxLowering.Span

/-!
A place in a source text: its byte offset and the text from there on. Readers move a cursor
only by `advance`, so its offset always belongs to the text that is left.
-/

namespace TsxLowering

/-- A part of a source text, with its place. -/
structure Excerpt where
  span : Span
  text : Text
  deriving DecidableEq

structure Cursor where
  pos : Nat
  rest : Text
  deriving DecidableEq

namespace Cursor

def ofText (source : Text) : Cursor := ⟨0, source⟩

/-- Past the next `n` characters. -/
def advance (c : Cursor) (n : Nat) : Cursor :=
  ⟨c.pos + Text.size (c.rest.take n), c.rest.drop n⟩

/-- Past the characters that satisfy `p`, up to the first that does not. -/
def skipWhile (c : Cursor) (p : Char → Bool) : Cursor := c.advance (c.rest.takeWhile p).length

/-- At the end of the text. -/
def atEnd (c : Cursor) : Cursor := c.advance c.rest.length

def spanTo (c d : Cursor) : Span := ⟨c.pos, d.pos⟩

/-- The next `n` characters. -/
def excerpt (c : Cursor) (n : Nat) : Excerpt := ⟨c.spanTo (c.advance n), c.rest.take n⟩

@[simp] theorem rest_advance (c : Cursor) (n : Nat) : (c.advance n).rest = c.rest.drop n := rfl

@[simp] theorem advance_zero (c : Cursor) : c.advance 0 = c := by simp [advance]

theorem advance_advance (c : Cursor) (m n : Nat) :
    (c.advance m).advance n = c.advance (m + n) := by
  simp [advance, List.take_add, Nat.add_assoc]

/-- The cursor stands in `source`, behind `before`. -/
def After (source before : Text) (c : Cursor) : Prop :=
  source = before ++ c.rest ∧ c.pos = before.size

theorem After.advance {source before : Text} {c : Cursor} (h : After source before c) (n : Nat) :
    After source (before ++ c.rest.take n) (c.advance n) := by
  obtain ⟨hs, hp⟩ := h
  exact ⟨by simp [hs], by simp [Cursor.advance, hp]⟩

/-- The excerpts taken at a cursor are the source under their spans. -/
theorem After.slice_excerpt {source before : Text} {c : Cursor} (h : After source before c)
    (n : Nat) : (c.excerpt n).span.slice source = (c.excerpt n).text := by
  obtain ⟨hs, hp⟩ := h
  have := Text.slice?_append before (c.rest.take n) (c.rest.drop n)
  rw [List.append_assoc, List.take_append_drop, ← hs] at this
  simp [excerpt, spanTo, Span.slice, Cursor.advance, hp, this]

end Cursor

end TsxLowering
