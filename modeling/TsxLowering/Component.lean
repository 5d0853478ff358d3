import TsxLowering.Text.Blank
import TsxLowering.Unicode.Alphabetic
import TsxLowering.Unicode.Number
import TsxLowering.Unicode.Uppercase

/-!
The name of a component, taken from the path of its file, and the declaration that exports it.
-/

namespace TsxLowering.Component

/-- The parts of a path between its slashes. -/
def splitPath : Text → List Text
  | [] => [[]]
  | '/' :: s => [] :: splitPath s
  | c :: s =>
    match splitPath s with
    | part :: parts => (c :: part) :: parts
    | [] => [[c]]

/-- The last part of a path, but for empty parts and single dots at its end. Two dots are no
file's name. -/
def fileName? (path : Text) : Option Text :=
  match (splitPath path).reverse.dropWhile fun part => part.isEmpty || part == ['.'] with
  | [] => none
  | part :: _ => if part = ['.', '.'] then none else some part

/-- The name up to its last dot, unless that is its first character. -/
def stem (name : Text) : Text :=
  match (name.reverse.dropWhile (· != '.')).drop 1 with
  | [] => name
  | before => before.reverse

def isWordChar (c : Char) : Bool := Unicode.isAlphabetic c || Unicode.isNumber c || c == '_'

def isWordBreak (c : Char) : Bool := c == '-' || c == '.' || isBlank c

/-- Joins words, each with its first character in upper case. Characters that neither belong
to a word nor separate two are left out. -/
def joinWords (atWordStart : Bool) : Text → Text
  | [] => []
  | c :: s =>
    if isWordChar c then (if atWordStart then Unicode.uppercase c else [c]) ++ joinWords false s
    else joinWords (atWordStart || isWordBreak c) s

/-- A name that starts with a letter, or nothing if the file's name has no letter. -/
def name (path : Text) : Text :=
  match fileName? path with
  | some file => joinWords true ((stem file).dropWhile (!Unicode.isAlphabetic ·))
  | none => []

def functionSuffix : Text := "__AstroComponent_".toList

def functionName (path : Text) : Text := name path ++ functionSuffix

/-- The declaration that stands for the component where its code is type-checked. -/
def exportDeclaration (componentName : Text) : Text :=
  "export default function ".toList ++ componentName ++ functionSuffix ++
    "(_props: Record<string, any>): any \x7b\x7d".toList

end TsxLowering.Component
