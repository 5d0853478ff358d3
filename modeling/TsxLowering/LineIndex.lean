import TsxLowering.Bisection
import TsxLowering.Span

/-!
Lines and columns of a text. Both count from zero. A line ends with its line feed, and a
column counts bytes or, for the tools that read source maps, UTF-16 code units.
-/

namespace TsxLowering

structure Position where
  line : Nat
  column : Nat
  deriving DecidableEq

/-- A line of a text: the offset at which it starts, and the text from there on. -/
structure Line where
  start : Nat
  rest : Text
  deriving DecidableEq

structure LineIndex where
  /-- The offset at which the text ends. -/
  stop : Nat
  lines : Array Line
  deriving DecidableEq

namespace LineIndex

/-- The lines after the line feeds of a text that starts at `pos`. -/
def linesAfter (pos : Nat) : Text → List Line
  | [] => []
  | c :: s =>
    let next := pos + c.utf8Size
    if c = '\n' then ⟨Offset.ofIndex next, s⟩ :: linesAfter next s else linesAfter next s

def ofText (text : Text) : LineIndex :=
  ⟨Offset.ofIndex text.size, (⟨0, text⟩ :: linesAfter 0 text).toArray⟩

def lineCount (i : LineIndex) : Nat := i.lines.size

def lineStart? (i : LineIndex) (line : Nat) : Option Nat := i.lines[line]?.map Line.start

/-- Looks for a line that starts at the offset. -/
def search (i : LineIndex) (offset : Nat) : SearchResult :=
  binarySearch i.lines fun l => compare l.start offset

/-- The position of an offset that is not past the end, with the column in bytes. -/
def position? (i : LineIndex) (offset : Nat) : Option Position :=
  if offset ≤ i.stop then
    let line := match i.search offset with
      | .found line => line
      | .absent line => line - 1
    (i.lineStart? line).map fun start => ⟨line, offset - start⟩
  else none

/-- The position of an offset between two characters, with the column in UTF-16 units. In ASCII
these are the bytes. -/
def unitPosition? (i : LineIndex) (offset : Nat) : Option Position := do
  let p ← i.position? offset
  let line ← i.lines[p.line]?
  let segment ← line.rest.takeBytes p.column
  return ⟨p.line, if segment.isAscii then p.column else segment.units⟩

/-- The offset of a position on a line that exists. The column may run past the line's end. -/
def offset? (i : LineIndex) (p : Position) : Except Overflow (Option Nat) :=
  match i.lineStart? p.line with
  | some start => some <$> Offset.add start p.column
  | none => .ok none

/-- The line starts strictly between two offsets. -/
def startsBetween (i : LineIndex) (start stop : Nat) : List Nat :=
  let first := match i.search start with
    | .found line => line + 1
    | .absent line => line
  ((i.lines.toList.drop (min first i.lines.size)).map Line.start).takeWhile (· < stop)

end LineIndex

end TsxLowering
