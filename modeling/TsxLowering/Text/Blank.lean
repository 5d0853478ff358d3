import TsxLowering.Text

/-!
Blank characters: those with the Unicode property White_Space, and the few of them that
ASCII has inside a line or at its end.
-/

namespace TsxLowering

/-- The characters with the property White_Space. -/
def isBlank (c : Char) : Bool :=
  let n := c.toNat
  (9 ≤ n && n ≤ 13) || n == 0x20 || n == 0x85 || n == 0xA0 || n == 0x1680 ||
    (0x2000 ≤ n && n ≤ 0x200A) || n == 0x2028 || n == 0x2029 || n == 0x202F ||
    n == 0x205F || n == 0x3000

/-- Space, tab, line feed, form feed and carriage return. The vertical tab is not among them. -/
def isAsciiBlank (c : Char) : Bool :=
  c == ' ' || c == '\t' || c == '\n' || c == '\x0c' || c == '\r'

theorem isBlank_of_isAsciiBlank {c : Char} (h : isAsciiBlank c = true) : isBlank c = true := by
  simp only [isAsciiBlank, Bool.or_eq_true, beq_iff_eq] at h
  rcases h with (((rfl | rfl) | rfl) | rfl) | rfl <;> decide

namespace Text

def isBlank (s : Text) : Bool := s.all TsxLowering.isBlank

def trimStart (s : Text) : Text := s.dropWhile TsxLowering.isBlank

def trimEnd (s : Text) : Text := (s.reverse.dropWhile TsxLowering.isBlank).reverse

def trim (s : Text) : Text := trimEnd (trimStart s)

/-- Only blanks are trimmed. -/
theorem exists_trim_append (s : Text) :
    ∃ trail : Text, trail.isBlank = true ∧ s.dropWhile TsxLowering.isBlank = s.trim ++ trail := by
  refine ⟨((trimStart s).reverse.takeWhile TsxLowering.isBlank).reverse, ?_, ?_⟩
  · rw [isBlank, List.all_reverse]
    exact List.all_takeWhile
  · rw [trim, trimEnd, ← List.reverse_append, List.takeWhile_append_dropWhile,
      List.reverse_reverse, trimStart]

end Text

end TsxLowering
