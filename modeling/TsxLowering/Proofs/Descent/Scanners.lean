import TsxLowering.Code.Scan

/-!
Where embedded code ends, by recursive descent.

There is one scanner for each construct. They work by offsets into a text, and those for code,
markup, tags and template literals call each other. Nothing in their form says that they end or
that they read inside the text, so both are outcomes of a scan here, and have to be excluded.

The characters of the text stand for any units: those below 256 for the bytes of a byte string.
-/

namespace TsxLowering

namespace Code.Descent

inductive Fault where
  /-- A part of a text was asked for that the text does not have. -/
  | outOfRange
  deriving DecidableEq

/-- A scan may run forever, end with a fault, meet the end of the text, or give a result. -/
abbrev Scan := OptionT (ExceptT Fault Option)

def charAt (s : Text) (i : Nat) : Scan Char :=
  match s[i]? with
  | some c => pure c
  | none => throwThe Fault .outOfRange

/-- The part of a text from `i` up to `j`. -/
def slice (s : Text) (i j : Nat) : Scan Text :=
  if i ≤ j ∧ j ≤ s.length then pure ((s.take j).drop i) else throwThe Fault .outOfRange

/-- The offset that stands `n` characters before the end of a text. -/
def fromEnd (s : Text) (n : Nat) : Scan Nat :=
  if n ≤ s.length then pure (s.length - n) else throwThe Fault .outOfRange

/-- The offset past the first `pattern` from `i` on. -/
def pastFirst (pattern s : Text) (i : Nat) : Scan Nat :=
  match Text.splitOnce (s.drop i) pattern with
  | some (body, _) => pure (i + body.length + pattern.length)
  | none => failure

/-! ### Comments, and what stands before an element -/

def lineCommentEnd (s : Text) (start : Nat) : Scan Nat := do
  return start + lineCommentLength (← slice s start s.length)

def blockCommentEnd (s : Text) (start : Nat) : Scan Nat := pastFirst ['*', '/'] s (start + 2)

/-- Whether the text before `i` ends with the word `return`. -/
def followsReturnAt (s : Text) (i : Nat) : Scan Bool := do
  let before := ((← slice s 0 i).reverse.dropWhile isAsciiBlank).reverse
  if ['r', 'e', 't', 'u', 'r', 'n'].isSuffixOf before then
    let head ← slice before 0 (← fromEnd before 6)
    return !(head.getLast?.any fun c => c.isAlphanum || c == '_' || c == '$')
  else
    return false

/-- Whether a `<` at `i` may open an element. -/
def operandDue (s : Text) (prev : Char) (i : Nat) : Scan Bool :=
  if precedesOperand prev then pure true else followsReturnAt s i

structure TagExtent where
  /-- The offset past the name. -/
  nameStop : Nat
  /-- The offset past the tag. -/
  stop : Nat
  selfClosing : Bool
  deriving DecidableEq

end Code.Descent

namespace Text

open Code Code.Descent
open Markup (startsTagName isVoidName)

/-! ### Strings and regular expressions -/

/-- The offset past a string, from inside it on. -/
def stringRest (s : Text) (quote : Char) (i : Nat) : Scan Nat :=
  match s[i]? with
  | none => failure
  | some c =>
    if c = '\\' then s |>.stringRest quote (i + 2)
    else if c = '\n' then pure i
    else if c = quote then pure (i + 1)
    else s |>.stringRest quote (i + 1)
partial_fixpoint

def stringEnd (s : Text) (start : Nat) : Scan Nat := do
  s.stringRest (← charAt s start) (start + 1)

/-- The offset past a regular expression, flags included, from inside it on. If it is open at the
end of the line, only its first `/` is passed over. -/
def regexRest (s : Text) (start : Nat) (inClass : Bool) (i : Nat) : Scan Nat :=
  match s[i]? with
  | none => pure (start + 1)
  | some c =>
    match c with
    | '\\' => s |>.regexRest start inClass (i + 2)
    | '[' => s |>.regexRest start true (i + 1)
    | ']' => s |>.regexRest start false (i + 1)
    | '/' =>
      if inClass then s |>.regexRest start inClass (i + 1)
      else pure (i + 1 + ((s.drop (i + 1)).takeWhile Char.isAlpha).length)
    | '\n' => pure (start + 1)
    | _ => s |>.regexRest start inClass (i + 1)
partial_fixpoint

def regexEnd (s : Text) (start : Nat) : Scan Nat := s.regexRest start false (start + 1)

/-! ### Code, markup, tags and template literals -/

mutual

/-- The offset of the `close` that ends the code, from inside it on. -/
def codeRest (s : Text) (close : Char) (depth : Nat) (prev : Char) (i : Nat) : Scan Nat :=
  match s[i]? with
  | none => failure
  | some c =>
    match c with
    | '"' | '\'' => do s |>.codeRest close depth c (← s.stringEnd i)
    | '`' => do s |>.codeRest close depth c (← s |>.templateRest (i + 1))
    | '<' => do
      if startsTagName (s.drop (i + 1)) && (← operandDue s prev i) then
        s |>.codeRest close depth ')' (← s |>.markupRest 0 i)
      else
        s |>.codeRest close depth c (i + 1)
    | '/' =>
      match s[i + 1]? with
      -- comments leave the character before them where it is
      | some '/' => do s |>.codeRest close depth prev (← lineCommentEnd s i)
      | some '*' => do s |>.codeRest close depth prev (← blockCommentEnd s i)
      | _ =>
        if precedesOperand prev then do s |>.codeRest close depth c (← s.regexEnd i)
        else s |>.codeRest close depth c (i + 1)
    | '(' | '[' | '\x7b' => s |>.codeRest close (depth + 1) c (i + 1)
    | ')' | ']' | '\x7d' =>
      match depth with
      | 0 => if c = close then pure i else s |>.codeRest close 0 c (i + 1)
      | depth + 1 => s |>.codeRest close depth c (i + 1)
    | _ => s |>.codeRest close depth (if isAsciiBlank c then prev else c) (i + 1)
partial_fixpoint

/-- The offset past the backtick that ends a template literal, from inside it on. -/
def templateRest (s : Text) (i : Nat) : Scan Nat :=
  match s[i]? with
  | none => failure
  | some c =>
    match c with
    | '\\' => s |>.templateRest (i + 2)
    | '`' => pure (i + 1)
    | '$' =>
      if s[i + 1]? = some '\x7b' then do
        s |>.templateRest ((← s |>.codeRest '\x7d' 0 '=' (i + 2)) + 1)
      else s |>.templateRest (i + 1)
    | _ => s |>.templateRest (i + 1)
partial_fixpoint

/-- The offset past the element that balances the first tag of markup, or of a brace before
that which closes the code around it. -/
def markupRest (s : Text) (depth : Nat) (i : Nat) : Scan Nat :=
  match s[i]? with
  | none => failure
  | some c =>
    match c with
    | '\x7b' => do s |>.markupRest depth ((← s |>.codeRest '\x7d' 0 '=' (i + 1)) + 1)
    | '\x7d' => pure i
    | '<' => do
      if ['<', '!', '-', '-'].isPrefixOf (← slice s i s.length) then
        s |>.markupRest depth (← pastFirst ['-', '-', '>'] s i)
      else if s[i + 1]? = some '/' && startsTagName (s.drop (i + 2)) then
        let tag ← s |>.tagEnd (i + 2)
        if depth - 1 = 0 then pure tag.stop else s |>.markupRest (depth - 1) tag.stop
      else if startsTagName (s.drop (i + 1)) then
        let tag ← s |>.tagEnd (i + 1)
        if !tag.selfClosing && !isVoidName (← slice s (i + 1) tag.nameStop) then
          s |>.markupRest (depth + 1) tag.stop
        else if depth = 0 then pure tag.stop
        else s |>.markupRest depth tag.stop
      else s |>.markupRest depth (i + 1)
    | _ => s |>.markupRest depth (i + 1)
partial_fixpoint

/-- The extent of a tag whose name starts at `start`. -/
def tagEnd (s : Text) (start : Nat) : Scan TagExtent := do
  let nameStop := start + (tagName (← slice s start s.length)).length
  let (stop, selfClosing) ← s |>.tagRest nameStop
  return ⟨nameStop, stop, selfClosing⟩
partial_fixpoint

/-- The offset past a tag, from behind its name on, and whether it closes itself. -/
def tagRest (s : Text) (i : Nat) : Scan (Nat × Bool) :=
  match s[i]? with
  | none => failure
  | some c =>
    match c with
    | '"' | '\'' => do s |>.tagRest (← pastFirst [c] s (i + 1))
    | '`' => do s |>.tagRest (← s |>.templateRest (i + 1))
    | '\x7b' => do s |>.tagRest ((← s |>.codeRest '\x7d' 0 '=' (i + 1)) + 1)
    | '/' => if s[i + 1]? = some '>' then pure (i + 2, true) else s |>.tagRest (i + 1)
    | '>' => pure (i + 1, false)
    | _ => s |>.tagRest (i + 1)
partial_fixpoint

end

/-- The offset of the `close` that ends the code at `start`. It starts as after an operator. -/
def codeEnd (s : Text) (start : Nat) (close : Char) : Scan Nat := s.codeRest close 0 '=' start

/-- The offset past a template literal whose first backtick is at `start`. -/
def templateEnd (s : Text) (start : Nat) : Scan Nat := s.templateRest (start + 1)

/-- The offset past the markup whose first tag is at `start`. -/
def markupEnd (s : Text) (start : Nat) : Scan Nat := s.markupRest 0 start

end Text

end TsxLowering
