import TsxLowering.Proofs.Descent.Literals
import TsxLowering.Proofs.NestedCode

/-!
The steps of the one-pass scan, by what stands at the cursor.
-/

namespace TsxLowering.Code.Descent

open Markup (startsTagName isVoidName)

variable {c : Char} {rest : Text}

/-- The step past a literal of this length, if the literal has an end. -/
def past (frames : List Frame) : Option Nat → Step
  | some n => .go n frames
  | none => .unclosed

/-! ### In code -/

section code

variable (close : Char) (depth : Nat) (prev : Char) (outer : List Frame) (before : Text)

lemma codeStep_string (hquote : c = '"' ∨ c = '\'') (rest : Text) :
    codeStep close depth prev outer before c rest =
      past (.code close depth c :: outer) (quotedLength c rest) := by
  rcases hquote with rfl | rfl <;> rfl

lemma codeStep_less (rest : Text) :
    codeStep close depth prev outer before '<' rest =
      if startsTagName rest && (precedesOperand prev || followsReturn before) then
        .go (tagName rest).length
          (.tag (.ofName (tagName rest)) 0 :: .code close depth ')' :: outer)
      else .go 0 (.code close depth '<' :: outer) := rfl

lemma codeStep_blockComment (rest : Text) :
    codeStep close depth prev outer before '/' ('*' :: rest) =
      past (.code close depth prev :: outer) ((blockCommentLength rest).map (· + 1)) := by
  simp only [codeStep]
  cases blockCommentLength rest <;> rfl

lemma codeStep_closing (hbracket : c = ')' ∨ c = ']' ∨ c = '\x7d') (rest : Text) :
    codeStep close depth prev outer before c rest =
      match depth with
      | 0 => if c = close then leave outer else .go 0 (.code close 0 c :: outer)
      | depth + 1 => .go 0 (.code close depth c :: outer) := by
  rcases hbracket with rfl | rfl | rfl <;> rfl

end code

/-! ### In template literals -/

lemma templateStep_plain (hescape : c ≠ '\\') (hbacktick : c ≠ '`')
    (hdollar : c = '$' → rest.head? ≠ some '\x7b') (outer : List Frame) :
    templateStep outer c rest = .go 0 (.template :: outer) := by
  unfold templateStep
  split
  · contradiction
  · contradiction
  · simp at hdollar
  · rfl

/-! ### In tags -/

section tag

variable (role : TagRole) (depth : Nat) (outer : List Frame)

lemma tagStep_quoted (hquote : c = '"' ∨ c = '\'') (rest : Text) :
    tagStep role depth outer c rest = past (.tag role depth :: outer) (lengthPast [c] rest) := by
  rw [lengthPast]
  rcases hquote with rfl | rfl
  · simp only [tagStep]
    cases Text.splitOnce rest ['"'] <;> rfl
  · simp only [tagStep]
    cases Text.splitOnce rest ['\''] <;> rfl

lemma tagStep_plain (hquote : c ≠ '"') (hquote' : c ≠ '\'') (hbacktick : c ≠ '`')
    (hbrace : c ≠ '\x7b') (hslash : c = '/' → rest.head? ≠ some '>') (hend : c ≠ '>') :
    tagStep role depth outer c rest = .go 0 (.tag role depth :: outer) := by
  unfold tagStep
  split
  iterate 4
    · contradiction
  · simp at hslash
  · contradiction
  · rfl

end tag

lemma afterTag_ofName (name : Text) (selfClosing : Bool) (depth : Nat) (outer : List Frame) :
    afterTag (.ofName name) selfClosing depth outer =
      if !selfClosing && !isVoidName name then .markup (depth + 1) :: outer
      else if depth = 0 then outer
      else .markup depth :: outer := by
  unfold TagRole.ofName
  cases isVoidName name <;> cases selfClosing <;> rfl

/-! ### In markup -/

section markup

variable (depth : Nat) (outer : List Frame) (before : Text)

lemma markupStep_comment (h : ['!', '-', '-'] <+: rest) :
    markupStep depth outer before '<' rest =
      past (.markup depth :: outer) (lengthPast ['-', '-', '>'] rest) := by
  obtain ⟨r, rfl⟩ := h
  rw [lengthPast]
  simp only [List.cons_append, List.nil_append, markupStep]
  cases Text.splitOnce ('!' :: '-' :: '-' :: r) ['-', '-', '>'] <;> rfl

lemma markupStep_slash (rest : Text) :
    markupStep depth outer before '<' ('/' :: rest) =
      if startsTagName rest then
        .go (1 + (tagName rest).length) (.tag .closing depth :: outer)
      else .go 0 (.markup depth :: outer) := rfl

lemma markupStep_plain (hopen : c ≠ '\x7b') (hclose : c ≠ '\x7d') (hless : c ≠ '<')
    (rest : Text) : markupStep depth outer before c rest = .go 0 (.markup depth :: outer) := by
  unfold markupStep
  split <;> first | rfl | contradiction

end markup

end TsxLowering.Code.Descent
