import TsxLowering.Text.Blank

/-!
The parts of script code in which a bracket is only a character: strings, comments and
regular expressions. Each function gives the number of characters that belong to the part
after its opening delimiter.
-/

namespace TsxLowering.Code

/-- A string ends at its quote. A line break ends it too, and is left to what follows, unless
the quote is a backtick. -/
def quotedLength (quote : Char) : Text → Option Nat
  | [] => none
  | '\\' :: _ :: s => (quotedLength quote s).map (· + 2)
  | c :: s =>
    if c = quote then some 1
    else if c = '\n' && quote != '`' then some 0
    else (quotedLength quote s).map (· + 1)

/-- A line comment leaves the line break to what follows, and may end with the text. -/
def lineCommentLength (s : Text) : Nat := (s.takeWhile (· != '\n')).length

def blockCommentLength (s : Text) : Option Nat :=
  (s.splitOnce ['*', '/']).map fun (body, _) => body.length + 2

/-- A regular expression ends at a `/` outside of a `[ ]` class, with the letters after it as
its flags. One that is open at the line's end is none. -/
def regexLength (inClass : Bool) : Text → Option Nat
  | [] => none
  | '\\' :: _ :: s => (regexLength inClass s).map (· + 2)
  | c :: s =>
    if c = '/' && !inClass then some (1 + (s.takeWhile Char.isAlpha).length)
    else if c = '\n' then none
    else
      (regexLength (if c = '[' then true else if c = ']' then false else inClass) s).map (· + 1)

end TsxLowering.Code
