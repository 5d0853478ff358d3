import TsxLowering.Markup.Token

/-!
Reading closing tags.
-/

namespace TsxLowering.Markup

structure ClosingTag where
  name : Text
  span : Span
  deriving DecidableEq

/-- Reads the tag whose `</` is at the cursor. It reaches to its `>` if only blanks of the same
line stand between, and else to the end of its name. -/
def ClosingTag.read (c : Cursor) : ClosingTag × Cursor :=
  let afterOpen := c.advance 2
  let name := afterOpen.rest.takeWhile isNameChar
  let afterName := afterOpen.advance name.length
  let (token, afterToken) := Token.next afterName
  let next :=
    match token.kind with
    | .tagEnd => afterToken
    | _ => afterName
  (⟨name, c.spanTo next⟩, next)

theorem ClosingTag.read_rest_le (c : Cursor) :
    (ClosingTag.read c).2.rest.length ≤ c.rest.length - 2 := by
  have hname (n : Nat) : ((c.advance 2).advance n).rest.length ≤ c.rest.length - 2 := by
    simp only [Cursor.rest_advance, List.length_drop]
    omega
  simp only [ClosingTag.read]
  split
  · exact Nat.le_trans (Token.next_rest_le _) (hname _)
  · exact hname _

end TsxLowering.Markup
