import TsxLowering.Code.Scan
import TsxLowering.Markup.Diagnostic
import TsxLowering.Markup.Token
import TsxLowering.Markup.Tree

/-!
Reading attributes and their values. A value may be set off from its `=` by blanks and line
breaks, and the `=` from its name by blanks alone.
-/

namespace TsxLowering.Markup

/-- Reads a part whose opening delimiter is at the cursor, from the split of the text after
that at the closing one. -/
def Enclosed.read (c : Cursor) : Option (Text × Text) → Enclosed × Cursor
  | some (inner, _) =>
    let next := c.advance (inner.length + 2)
    (⟨c.spanTo next, inner, true⟩, next)
  | none => (⟨c.spanTo c.atEnd, c.rest.drop 1, false⟩, c.atEnd)

/-- Reads code in braces, whose opening brace is at the cursor. -/
def Enclosed.readCode (c : Cursor) : Reading Enclosed :=
  let (code, next) := Enclosed.read c (Code.split '\x7d' (c.rest.drop 1))
  ⟨code, if code.closed then [] else [⟨.unclosedExpression, code.span⟩], next⟩

namespace Attribute

/-- The text of a value that no delimiter opens. -/
def unquotedValue : Text → Text
  | [] => []
  | c :: s =>
    if isAsciiBlank c || c == '>' || (c == '/' && s.head? == some '>') then []
    else c :: unquotedValue s

/-- Reads the value after `=`. -/
def Value.read (c : Cursor) : Reading Value :=
  let c := c.skipWhile isAsciiBlank
  match c.rest with
  | '"' :: s =>
    let (value, next) := Enclosed.read c (Text.splitOnce s ['"'])
    ⟨.quoted value, [], next⟩
  | '\'' :: s =>
    let (value, next) := Enclosed.read c (Text.splitOnce s ['\''])
    ⟨.quoted value, [], next⟩
  | '`' :: s =>
    let (literal, next) := Enclosed.read c (Code.splitTemplate s)
    ⟨.template literal, [], next⟩
  | '\x7b' :: _ =>
    let r := Enclosed.readCode c
    ⟨.expression r.value, r.diagnostics, r.next⟩
  | s =>
    let n := (unquotedValue s).length
    ⟨.unquoted (c.excerpt n), [], c.advance n⟩

/-- Reads what follows the name of an attribute. -/
def readNamed (name : Excerpt) (c : Cursor) : Reading Attribute :=
  let (token, next) := Token.next c
  let r : Reading Value :=
    match token.kind with
    | .equals => Value.read next
    | _ => ⟨.empty, [], c⟩
  ⟨.normal ⟨name.span.start, r.next.pos⟩ name r.value, r.diagnostics, r.next⟩

/-- The attribute that `inner` makes between braces. The cursor is past the opening brace. -/
def ofBraces (start : Nat) (c : Cursor) (inner : Text) : Attribute :=
  let span : Span := ⟨start, (c.advance (inner.length + 1)).pos⟩
  let c := c.skipWhile isBlank
  let body := inner.trim
  match body with
  | '.' :: '.' :: '.' :: code => .spread span ((c.advance 3).excerpt code.length)
  | _ => .shorthand span (c.excerpt body.length)

end Attribute

theorem Enclosed.read_rest_le (c : Cursor) (split : Option (Text × Text)) :
    (Enclosed.read c split).2.rest.length ≤ c.rest.length := by
  cases split <;> simp [Enclosed.read, Cursor.atEnd]

theorem Enclosed.read_rest_lt {c : Cursor} (h : c.rest ≠ []) (split : Option (Text × Text)) :
    (Enclosed.read c split).2.rest.length < c.rest.length := by
  have := List.length_pos_iff.mpr h
  cases split <;> simp [Enclosed.read, Cursor.atEnd] <;> omega

theorem Attribute.Value.read_rest_le (c : Cursor) :
    (Value.read c).next.rest.length ≤ c.rest.length := by
  have hskip : (c.skipWhile isAsciiBlank).rest.length ≤ c.rest.length := by
    simp [Cursor.skipWhile]
  refine Nat.le_trans ?_ hskip
  simp only [Value.read]
  split
  · exact Enclosed.read_rest_le _ _
  · exact Enclosed.read_rest_le _ _
  · exact Enclosed.read_rest_le _ _
  · exact Enclosed.read_rest_le _ _
  · simp

theorem Attribute.readNamed_rest_le (name : Excerpt) (c : Cursor) :
    (readNamed name c).next.rest.length ≤ c.rest.length := by
  unfold readNamed
  dsimp only
  split
  · exact Nat.le_trans (Value.read_rest_le _) (Token.next_rest_le c)
  · exact Nat.le_refl _

end TsxLowering.Markup
