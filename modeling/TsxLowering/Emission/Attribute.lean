import TsxLowering.Emission.AttributeName
import TsxLowering.Emission.Piece
import TsxLowering.Encoding.JsonString
import TsxLowering.Markup.Tree

/-!
Attributes in JSX.

An attribute whose name JSX allows stays in its place, written in the way JSX wants it. The
others move into one object behind the last attribute, in their order, and that object is
spread.
-/

namespace TsxLowering.Emission

open Markup (Attribute StartTag)

/-- A value as a JSX string. Such a string has no escapes, so a value with both kinds of quote
becomes code. -/
def jsxString (value : Text) : Text :=
  if !value.contains '"' then '"' :: value ++ ['"']
  else if !value.contains '\'' then '\'' :: value ++ ['\'']
  else '\x7b' :: JsonString.encode value ++ ['\x7d']

def synthetic (text : String) : Piece := .synthetic text.toList

/-- The form in place of an attribute with a name that JSX allows. -/
def normalPieces (span : Span) (name : Excerpt) : Attribute.Value → List Piece
  | .empty => [.copied name.span]
  | .quoted _ | .expression _ => [.copied span]
  | .unquoted value =>
    [.copied ⟨span.start, value.span.start⟩, .derived value.span (jsxString value.text)]
  | .template literal =>
    [.copied ⟨span.start, literal.span.start⟩, synthetic "\x7b", .copied literal.span,
      synthetic "\x7d"]

/-- The value of an entry in the object that is spread. -/
def entryValuePieces : Attribute.Value → List Piece
  | .empty => [synthetic "true"]
  | .expression code => [synthetic "(", .copied code.innerSpan, synthetic ")"]
  | .template literal =>
    if literal.closed then [.copied literal.span]
    else [.derived literal.span (JsonString.encode literal.text)]
  | .quoted value => [.derived value.span (JsonString.encode value.text)]
  | .unquoted value => [.derived value.span (JsonString.encode value.text)]

def keyPiece (name : Excerpt) : Piece := .derived name.span (JsonString.encode name.text)

/-- What becomes of an attribute. -/
inductive Placement where
  | dropped
  | inPlace (pieces : List Piece)
  /-- An entry of the object that is spread. -/
  | entry (pieces : List Piece)
  deriving DecidableEq

def placement : Attribute → Placement
  | .normal span name value =>
    match NameClass.ofName name.text with
    | .direct => .inPlace (normalPieces span name value)
    | .needsSpread => .entry (keyPiece name :: synthetic ":" :: entryValuePieces value)
  | .spread span _ => .inPlace [.copied span]
  | .shorthand _ name =>
    if name.text.isEmpty then .dropped
    else
      match NameClass.ofName name.text with
      | .direct =>
        .inPlace
          [.copied name.span, synthetic "=\x7b", .copied name.span, synthetic "\x7d"]
      | .needsSpread =>
        .entry [keyPiece name, synthetic ":(", .copied name.span, synthetic ")"]

/-- The attributes that stay in place, each with the source between it and the attribute before,
which ended at `cursor`. -/
def inPlacePieces (cursor : Nat) : List Attribute → List Piece
  | [] => []
  | a :: rest =>
    let pieces :=
      match placement a with
      | .inPlace pieces => .copied ⟨cursor, a.span.start⟩ :: pieces
      | _ => []
    pieces ++ inPlacePieces a.span.stop rest

def spreadEntries (attributes : List Attribute) : List (List Piece) :=
  attributes.filterMap fun a =>
    match placement a with
    | .entry pieces => some pieces
    | _ => none

/-- The object that holds the other attributes, spread, if there are any. -/
def spreadPieces (attributes : List Attribute) : List Piece :=
  match spreadEntries attributes with
  | [] => []
  | entries =>
    synthetic " \x7b...\x7b" :: (entries.intersperse [synthetic ","]).flatten ++
      [synthetic "\x7d\x7d"]

/-- All between the name and the tail of a start tag. -/
def attributePieces (tag : StartTag) : List Piece :=
  inPlacePieces tag.name.span.stop tag.attributes ++ spreadPieces tag.attributes

end TsxLowering.Emission
