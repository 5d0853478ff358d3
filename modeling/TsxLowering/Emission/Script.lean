import TsxLowering.Code.Literal

/-!
The end of a script. Markup that follows a script starts with `<`, which would continue a last
statement that has no semicolon.
-/

namespace TsxLowering.Emission

/-- The last character of a script outside of blanks and comments, where a string counts as its
closing quote. -/
def lastSignificant (skip : Nat) (last : Option Char) : Text → Option Char
  | [] => last
  | c :: s =>
    match skip with
    | skip + 1 => lastSignificant skip last s
    | 0 =>
      match c, s with
      | '/', '/' :: _ => lastSignificant (Code.lineCommentLength s) last s
      | '/', '*' :: body =>
        lastSignificant ((Code.blockCommentLength body).elim s.length (· + 1)) last s
      | '"', _ | '\'', _ | '`', _ =>
        lastSignificant ((Code.quotedLength c s).getD s.length) (some c) s
      | _, _ => lastSignificant 0 (if isBlank c then last else some c) s

/-- Whether a statement has to be put between the script and markup. -/
def needsSeparator (script : Text) : Bool := (lastSignificant 0 none script).any (· != ';')

end TsxLowering.Emission
