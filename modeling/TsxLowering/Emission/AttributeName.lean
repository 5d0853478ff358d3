import TsxLowering.Text
import TsxLowering.Unicode.IdentifierContinue
import TsxLowering.Unicode.IdentifierStart

/-!
Which attribute names can stand as they are in JSX: identifiers, in which hyphens may follow
the first character, with or without a second one behind a colon.
-/

namespace TsxLowering

inductive NameClass where
  | direct
  /-- The name has to be a string in an object that is spread. -/
  | needsSpread
  deriving DecidableEq

namespace NameClass

def isIdentifierStart (c : Char) : Bool := Unicode.isIdentifierStart c || c == '$' || c == '_'

/-- Zero width joiners are allowed inside an identifier. -/
def isIdentifierPart (c : Char) : Bool :=
  Unicode.isIdentifierContinue c || c == '$' || c == '\u200c' || c == '\u200d'

def isJsxIdentifier : Text → Bool
  | [] => false
  | c :: s => isIdentifierStart c && s.all fun c => isIdentifierPart c || c == '-'

def ofName (name : Text) : NameClass :=
  let fits :=
    match name.splitOnce [':'] with
    | some (space, name) => isJsxIdentifier space && isJsxIdentifier name
    | none => isJsxIdentifier name
  if fits then .direct else .needsSpread

end NameClass

end TsxLowering
