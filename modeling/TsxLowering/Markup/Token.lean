import TsxLowering.Cursor
import TsxLowering.Markup.TagName

/-!
The tokens of a tag. Only the punctuation that shapes tags and the names in them are tokens;
text, attribute values and code are read from the source as they stand.
-/

namespace TsxLowering.Markup

namespace Token

inductive Kind where
  | tagOpen
  | closingTagOpen
  | declarationOpen
  | commentOpen
  | tagEnd
  | selfClosingEnd
  | equals
  | braceOpen
  | lineBreak
  | name
  | endOfInput
  | invalid
  deriving DecidableEq

def Kind.startsMarkup : Kind → Bool
  | .tagOpen | .closingTagOpen | .declarationOpen | .commentOpen => true
  | _ => false

/-- The characters that may stand between tokens. A line break is a token of its own. -/
def isSkipped (c : Char) : Bool := c == ' ' || c == '\t' || c == '\r' || c == '\x0c'

/-- The kind of the longest token at the start of a text, and its number of characters. -/
def lexeme : Text → Kind × Nat
  | [] => (.endOfInput, 0)
  | '<' :: '!' :: '-' :: '-' :: _ => (.commentOpen, 4)
  | '<' :: '!' :: _ => (.declarationOpen, 2)
  | '<' :: '/' :: _ => (.closingTagOpen, 2)
  | '<' :: _ => (.tagOpen, 1)
  | '/' :: '>' :: _ => (.selfClosingEnd, 2)
  | '>' :: _ => (.tagEnd, 1)
  | '=' :: _ => (.equals, 1)
  | '\x7b' :: _ => (.braceOpen, 1)
  | '\n' :: _ => (.lineBreak, 1)
  | c :: s =>
    if isNameChar c then (.name, (s.takeWhile isNameChar).length + 1) else (.invalid, 1)

theorem lexeme_pos {s : Text} (h : s ≠ []) : 0 < (lexeme s).2 := by
  fun_cases lexeme s <;> simp_all

theorem lexeme_endOfInput_iff {s : Text} : (lexeme s).1 = .endOfInput ↔ s = [] := by
  fun_cases lexeme s <;> simp_all

end Token

structure Token where
  kind : Token.Kind
  span : Span
  text : Text
  deriving DecidableEq

namespace Token

/-- The next token at or after the cursor, and the cursor past it. -/
def next (c : Cursor) : Token × Cursor :=
  let c := c.skipWhile isSkipped
  let (kind, n) := lexeme c.rest
  (⟨kind, (c.excerpt n).span, (c.excerpt n).text⟩, c.advance n)

theorem next_rest_le (c : Cursor) : (next c).2.rest.length ≤ c.rest.length := by
  simp only [next, Cursor.skipWhile, Cursor.rest_advance, List.length_drop]
  omega

theorem next_rest_lt {c : Cursor} (h : (next c).1.kind ≠ .endOfInput) :
    (next c).2.rest.length < c.rest.length := by
  simp only [next, Cursor.skipWhile, Cursor.rest_advance, List.length_drop] at h ⊢
  rw [Ne, lexeme_endOfInput_iff] at h
  have hpos := lexeme_pos h
  have hlen := List.length_pos_iff.mpr h
  rw [List.length_drop] at hlen
  omega

/-- The tokens from the cursor to the end of the text, where `endOfInput` is the last. -/
def stream (c : Cursor) : List Token :=
  if _ : (next c).1.kind = .endOfInput then [(next c).1]
  else (next c).1 :: stream (next c).2
termination_by c.rest.length
decreasing_by exact next_rest_lt ‹_›

/-- The tokens from a byte offset on. An offset that is no boundary between characters leaves
the end alone. -/
def streamFrom (source : Text) (offset : Nat) : List Token :=
  stream <|
    match source.dropBytes offset with
    | some rest => ⟨offset, rest⟩
    | none => ⟨source.size, []⟩

end Token

end TsxLowering.Markup
