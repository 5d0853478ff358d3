import TsxLowering.Text.Blank

/-!
Tag names: where one may begin, which characters it holds, and the names with a rule of
their own. A void element has no content; the content of a raw text element is not markup.
-/

namespace TsxLowering.Markup

/-- Whether the text after `<` or `</` makes it a tag. A `>` does, for the unnamed fragment. -/
def startsTagName : Text → Bool
  | [] => false
  | c :: _ => c.isAlpha || c == '>' || 0x80 ≤ c.toNat

/-- The characters of tag and attribute names: all but blanks and the punctuation of markup. -/
def isNameChar (c : Char) : Bool :=
  !(isBlank c || c == '"' || c == '\'' || c == '`' || c == '<' || c == '>' || c == '/' ||
    c == '=' || c == '\x7b' || c == '\x7d')

def voidNames : List Text :=
  ["area", "base", "br", "col", "embed", "hr", "img", "input", "link", "meta", "param",
    "source", "track", "wbr"].map String.toList

def rawTextNames : List Text := ["script", "style"].map String.toList

def isVoidName (name : Text) : Bool := voidNames.any (name.sameIgnoringCase ·)

def isRawTextName (name : Text) : Bool := rawTextNames.any (name.sameIgnoringCase ·)

end TsxLowering.Markup
