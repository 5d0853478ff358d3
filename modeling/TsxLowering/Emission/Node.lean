import TsxLowering.Emission.Attribute

/-!
Markup in TSX. Source text between nodes is copied as it stands, so what the reader of the
markup attached to no node is kept.
-/

namespace TsxLowering.Emission

open Markup (Element Node StartTag)

/-- Escapes a text for a template literal: each backslash and backtick, and a dollar sign in
front of an opening brace. -/
def escapeTemplate : Text → Text
  | [] => []
  | c :: s =>
    if c == '`' || c == '\\' || (c == '$' && s.head? == some '\x7b') then
      '\\' :: c :: escapeTemplate s
    else c :: escapeTemplate s

/-- Parts each `*/`, which would end a comment. -/
def escapeComment : Text → Text
  | '*' :: '/' :: s => '*' :: ' ' :: '/' :: escapeComment s
  | c :: s => c :: escapeComment s
  | [] => []

/-- The content of a raw text element, as a template literal in braces. -/
def rawTextPieces (source : Text) (raw : Span) : List Piece :=
  if raw.isEmpty then []
  else
    let text := raw.slice source
    let escaped := escapeTemplate text
    [synthetic "\x7b`", if escaped = text then .copied raw else .derived raw escaped,
      synthetic "`\x7d"]

def commentPieces (data : Excerpt) : List Piece :=
  [synthetic "\x7b/*",
    if (data.text.splitOnce ['*', '/']).isSome then .derived data.span (escapeComment data.text)
    else .copied data.span,
    synthetic "*/\x7d"]

/-- The source between two offsets, if they are in order. -/
def gap (start stop : Nat) : List Piece := if start < stop then [.copied ⟨start, stop⟩] else []

/-- A start tag that is closed. JSX wants the tag of a void element to close itself. -/
def startTagPieces (tag : StartTag) : List Piece :=
  let tail : List Piece :=
    if tag.isVoid && tag.ending != .selfClosing then [.clipped tag.tail, synthetic "/>"]
    else [.copied tag.tail]
  .copied ⟨tag.span.start, tag.name.span.stop⟩ :: attributePieces tag ++ tail

mutual

def nodePieces (source : Text) : Node → List Piece
  | .element e children =>
    let tag := e.startTag
    if tag.ending = .unclosed then [.copied e.span]
    else if tag.ending = .selfClosing || tag.isVoid then startTagPieces tag
    else
      let contentEnd := e.endTag.elim e.span.stop Span.start
      let content :=
        match e.rawText with
        | some raw => rawTextPieces source raw ++ gap raw.stop contentEnd
        | none => nodeListPieces source tag.span.stop contentEnd children
      startTagPieces tag ++ content ++ (e.endTag.map Piece.copied).toList
  | .text t => [.copied t.span]
  | .expression e => [.copied e.span]
  | .comment _ data => commentPieces data
  | .doctype _ => []

/-- The nodes, and all of the source from `cursor` to `stop` that lies outside of them. -/
def nodeListPieces (source : Text) (cursor stop : Nat) : List Node → List Piece
  | [] => gap cursor stop
  | n :: ns =>
    gap cursor n.span.start ++ nodePieces source n ++
      nodeListPieces source (max cursor n.span.stop) stop ns

end

end TsxLowering.Emission
