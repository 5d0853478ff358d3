import TsxLowering.Markup.Diagnostic
import TsxLowering.Text.Blank

/-!
Reading the script at the start of a component, which stands between two fences of three
hyphens. Only blanks may come before the opening fence, and behind it on its line. The closing
fence starts a line.
-/

namespace TsxLowering.Markup

structure Frontmatter where
  /-- Both fences included. -/
  span : Span
  content : Excerpt
  deriving DecidableEq

namespace Frontmatter

/-- The text before the first line that starts with a fence, and the text after that fence. -/
def splitFence (atLineStart : Bool) : Text → Option (Text × Text)
  | [] => none
  | c :: s =>
    match atLineStart, c, s with
    | true, '-', '-' :: '-' :: rest => some ([], rest)
    | _, _, _ => (splitFence (c == '\n') s).map fun (before, rest) => (c :: before, rest)

/-- The number of characters before the first line break. -/
def lineLength (s : Text) : Nat := (s.takeWhile (· != '\n')).length

def isBlankLine (s : Text) : Bool := Text.isBlank (s.take (lineLength s))

/-- Reads the script. What stands behind the closing fence on its line is markup, unless it is
blank. An opening fence without a closing one is reported, and all of the source is markup. -/
def read (source : Text) : Reading (Option Frontmatter) :=
  let start := Cursor.ofText source
  let fence := start.skipWhile isBlank
  match fence.rest with
  | '-' :: '-' :: '-' :: opening =>
    let content := fence.advance 3
    if isBlankLine opening then
      let line := lineLength opening
      match splitFence true (opening.drop (line + 1)) with
      | some (script, _) =>
        let body := content.excerpt (line + 1 + script.length)
        let close := content.advance (line + 1 + script.length + 3)
        let next :=
          if isBlankLine close.rest then close.advance (lineLength close.rest + 1) else close
        ⟨some ⟨fence.spanTo next, body⟩, [], next⟩
      | none => ⟨none, [⟨.unclosedFrontmatter, fence.spanTo content⟩], start⟩
    else ⟨none, [], start⟩
  | _ => ⟨none, [], start⟩

end Frontmatter

end TsxLowering.Markup
