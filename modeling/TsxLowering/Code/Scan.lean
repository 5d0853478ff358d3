import TsxLowering.Code.Literal
import TsxLowering.Markup.TagName

/-!
Where embedded code ends, as a one-pass scan.

Code, template literals and the markup inside code nest in each other, so the scan keeps a
stack of frames. Strings, comments and regular expressions do not nest and are skipped whole.
In markup inside code a quote is plain text; only what stands in braces there is code again.
-/

namespace TsxLowering.Code

open Markup (startsTagName isVoidName)

/-- What a tag inside code does to the depth of the markup around it. -/
inductive TagRole where
  | opening
  | void
  | closing
  deriving DecidableEq

def TagRole.ofName (name : Text) : TagRole := if isVoidName name then .void else .opening

inductive Frame where
  /-- Code up to `close`, inside `depth` brackets; `prev` is its last character that is neither
  blank nor in a comment. -/
  | code (close : Char) (depth : Nat) (prev : Char)
  | template
  /-- Text between tags, inside `depth` elements. -/
  | markup (depth : Nat)
  /-- A tag past its name. -/
  | tag (role : TagRole) (depth : Nat)
  deriving DecidableEq

inductive Step where
  /-- The character closes the outermost frame. -/
  | found
  /-- Something that starts here does not end. -/
  | unclosed
  /-- Skip so many characters more and go on in these frames. -/
  | go (skip : Nat) (frames : List Frame)
  deriving DecidableEq

def leave : List Frame → Step
  | [] => .found
  | frame :: outer => .go 0 (frame :: outer)

/-- A frame for code in braces. It starts as after an operator. -/
def braces : Frame := .code '\x7d' 0 '='

/-- The characters after which an operand is due, so that `/` opens a regular expression and
`<` an element. -/
def precedesOperand (c : Char) : Bool :=
  ['=', '!', '+', '-', '*', '%', '>', '&', '|', '^', '~', '?', ':', '(', '[', '\x7b', ',',
    ';'].contains c

/-- Whether the word before, whose characters come last first, is `return`. -/
def followsReturn (before : Text) : Bool :=
  match ['n', 'r', 'u', 't', 'e', 'r'].isPrefixOf? (before.dropWhile isAsciiBlank) with
  | none => false
  | some [] => true
  | some (c :: _) => !(c.isAlphanum || c == '_' || c == '$')

def tagName (s : Text) : Text :=
  s.takeWhile fun c => !(isAsciiBlank c || c == '>' || c == '/' || c == '\x7b')

def codeStep (close : Char) (depth : Nat) (prev : Char) (outer : List Frame) (before : Text)
    (c : Char) (rest : Text) : Step :=
  -- blanks do not count as the character before
  let plain (depth : Nat) : Step :=
    .go 0 (.code close depth (if isAsciiBlank c then prev else c) :: outer)
  match c with
  | '"' | '\'' =>
    match quotedLength c rest with
    | some n => .go n (.code close depth c :: outer)
    | none => .unclosed
  | '`' => .go 0 (.template :: .code close depth c :: outer)
  | '<' =>
    if startsTagName rest && (precedesOperand prev || followsReturn before) then
      let name := tagName rest
      -- behind the element no operand is due, as behind a bracket
      .go name.length (.tag (.ofName name) 0 :: .code close depth ')' :: outer)
    else plain depth
  | '/' =>
    match rest with
    | '/' :: _ => .go (lineCommentLength rest) (.code close depth prev :: outer)
    | '*' :: s =>
      match blockCommentLength s with
      | some n => .go (n + 1) (.code close depth prev :: outer)
      | none => .unclosed
    | _ =>
      match regexLength false rest with
      | some n =>
        if precedesOperand prev then .go n (.code close depth c :: outer) else plain depth
      | none => plain depth
  | '(' | '[' | '\x7b' => plain (depth + 1)
  | ')' | ']' | '\x7d' =>
    match depth with
    | 0 => if c = close then leave outer else plain 0
    | depth + 1 => plain depth
  | _ => plain depth

/-- A template literal holds code in `$` and braces. -/
def templateStep (outer : List Frame) (c : Char) (rest : Text) : Step :=
  match c, rest with
  | '\\', _ => .go 1 (.template :: outer)
  | '`', _ => leave outer
  | '$', '\x7b' :: _ => .go 1 (braces :: .template :: outer)
  | _, _ => .go 0 (.template :: outer)

/-- The frames once a tag has ended. Markup ends with the tag that brings its depth to zero. -/
def afterTag (role : TagRole) (selfClosing : Bool) (depth : Nat) (outer : List Frame) :
    List Frame :=
  match role, selfClosing with
  | .opening, false => .markup (depth + 1) :: outer
  | .closing, _ => if depth ≤ 1 then outer else .markup (depth - 1) :: outer
  | _, _ => if depth = 0 then outer else .markup depth :: outer

def tagStep (role : TagRole) (depth : Nat) (outer : List Frame) (c : Char) (rest : Text) :
    Step :=
  match c, rest with
  | '"', _ | '\'', _ =>
    match rest.splitOnce [c] with
    | some (value, _) => .go (value.length + 1) (.tag role depth :: outer)
    | none => .unclosed
  | '`', _ => .go 0 (.template :: .tag role depth :: outer)
  | '\x7b', _ => .go 0 (braces :: .tag role depth :: outer)
  | '/', '>' :: _ => .go 1 (afterTag role true depth outer)
  | '>', _ => .go 0 (afterTag role false depth outer)
  | _, _ => .go 0 (.tag role depth :: outer)

/-- A closing brace in markup belongs to the code around it, which ends unbalanced markup. -/
def markupStep (depth : Nat) (outer : List Frame) (before : Text) (c : Char) (rest : Text) :
    Step :=
  match c, rest with
  | '\x7b', _ => .go 0 (braces :: .markup depth :: outer)
  | '\x7d', _ =>
    match outer with
    -- markup stands in code, so this is a brace of that
    | .code close d prev :: outer => codeStep close d prev outer before c rest
    | _ => .unclosed
  | '<', '!' :: '-' :: '-' :: _ =>
    match rest.splitOnce ['-', '-', '>'] with
    | some (body, _) => .go (body.length + 3) (.markup depth :: outer)
    | none => .unclosed
  | '<', '/' :: s =>
    if startsTagName s then .go (1 + (tagName s).length) (.tag .closing depth :: outer)
    else .go 0 (.markup depth :: outer)
  | '<', _ =>
    if startsTagName rest then
      let name := tagName rest
      .go name.length (.tag (.ofName name) depth :: outer)
    else .go 0 (.markup depth :: outer)
  | _, _ => .go 0 (.markup depth :: outer)

/-- One character `c`, with the text before it (last character first) and after it. -/
def step (frames : List Frame) (before : Text) (c : Char) (rest : Text) : Step :=
  match frames with
  | [] => .unclosed
  | .code close depth prev :: outer => codeStep close depth prev outer before c rest
  | .template :: outer => templateStep outer c rest
  | .markup depth :: outer => markupStep depth outer before c rest
  | .tag role depth :: outer => tagStep role depth outer c rest

/-- The text up to the character that closes the outermost frame, and the text after it. -/
def run (skip : Nat) (frames : List Frame) (before : Text) : Text → Option (Text × Text)
  | [] => none
  | c :: rest =>
    match skip with
    | skip + 1 => run skip frames (c :: before) rest
    | 0 =>
      match step frames before c rest with
      | .found => some (before.reverse, rest)
      | .unclosed => none
      | .go skip frames => run skip frames (c :: before) rest

/-- Splits a text that starts with code where that code meets its own `close`. -/
def split (close : Char) (s : Text) : Option (Text × Text) := run 0 [.code close 0 '='] [] s

/-- Splits a text that starts inside a template literal where the literal ends. -/
def splitTemplate (s : Text) : Option (Text × Text) := run 0 [.template] [] s

end TsxLowering.Code
