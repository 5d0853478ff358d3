import TsxLowering.Cursor

/-!
What a reader of markup reports. All but one of the problems leave a tree with the parts that
were read.
-/

namespace TsxLowering.Markup

inductive Problem where
  | unclosedTag (name : Text)
  | unclosedStartTag (name : Text)
  | mismatchedClosingTag (expected found : Text)
  | strayClosingTag (name : Text)
  | unclosedExpression
  | unclosedComment
  | unclosedFrontmatter
  | sourceTooLarge (size : Nat)
  deriving DecidableEq

def Problem.message : Problem → Text
  | .unclosedTag name => "unclosed tag: <".toList ++ name ++ ">".toList
  | .unclosedStartTag name => "unclosed start tag: <".toList ++ name
  | .mismatchedClosingTag expected found =>
    "mismatched closing tag: expected </".toList ++ expected ++ ">, found </".toList ++ found ++
      ">".toList
  | .strayClosingTag name => "unexpected closing tag: </".toList ++ name ++ ">".toList
  | .unclosedExpression => "unclosed expression".toList
  | .unclosedComment => "unclosed comment".toList
  | .unclosedFrontmatter => "unclosed frontmatter".toList
  | .sourceTooLarge size => s!"source is too large: {size} bytes".toList

structure Diagnostic where
  problem : Problem
  span : Span
  deriving DecidableEq

/-- Whether there is no tree. -/
def Diagnostic.isFatal (d : Diagnostic) : Bool :=
  match d.problem with
  | .sourceTooLarge _ => true
  | _ => false

/-- What was read, what there is to report about it, and where to read on. -/
structure Reading (α : Type) where
  value : α
  diagnostics : List Diagnostic
  next : Cursor
  deriving DecidableEq

end TsxLowering.Markup
