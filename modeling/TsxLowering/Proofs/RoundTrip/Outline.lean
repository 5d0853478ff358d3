import TsxLowering.Emission.AttributeName
import TsxLowering.Markup.Tree
import TsxLowering.Proofs.RoundTrip.Code

/-!
Markup without places: what there is to say about a tree apart from where each part stands.

An outline is a row of nodes, and is printed in one way. A tree has an outline when all in it is
closed and no part of it is of a kind that outlines leave out: doctypes, void and raw text
elements, and values without quotes or in backticks.
-/

namespace TsxLowering.Markup

/-! ### Names -/

/-- A name of an attribute: characters that may stand in names, at least one. -/
structure IsName (name : Text) : Prop where
  ne_nil : name ≠ []
  chars : ∀ c ∈ name, isNameChar c = true

/-- A name of an element with a start tag and an end tag, or with a tag that closes itself. -/
structure IsTagName (name : Text) : Prop where
  letter : ∃ c, name.head? = some c ∧ c.isAlpha = true
  chars : ∀ c ∈ name, isNameChar c = true
  not_void : isVoidName name = false
  not_rawText : isRawTextName name = false

instance (name : Text) : Decidable (IsName name) :=
  decidable_of_iff (name ≠ [] ∧ name.all isNameChar = true)
    ⟨fun h => ⟨h.1, List.all_eq_true.mp h.2⟩, fun h => ⟨h.ne_nil, List.all_eq_true.mpr h.chars⟩⟩

instance (name : Text) : Decidable (IsTagName name) :=
  decidable_of_iff (name.head?.any Char.isAlpha = true ∧ name.all isNameChar = true ∧
      isVoidName name = false ∧ isRawTextName name = false)
    ⟨fun ⟨hletter, hchars, hvoid, hrawText⟩ =>
        ⟨(Option.any_eq_true _ _).mp hletter, List.all_eq_true.mp hchars, hvoid, hrawText⟩,
      fun h => ⟨(Option.any_eq_true _ _).mpr h.letter, List.all_eq_true.mpr h.chars, h.not_void,
        h.not_rawText⟩⟩

def isIdentifier : Text → Bool
  | [] => false
  | c :: s => NameClass.isIdentifierStart c && s.all NameClass.isIdentifierPart

/-! ### Attributes -/

/-- An attribute without its place. -/
inductive AttributeOutline where
  | bare (name : Text)
  | quoted (name value : Text)
  | code (name code : Text)
  | spread (name : Text)
  | shorthand (name : Text)
  deriving DecidableEq

namespace AttributeOutline

/-- The attribute, set off from what stands before it. -/
def print : AttributeOutline → Text
  | .bare name => ' ' :: name
  | .quoted name value => ' ' :: name ++ '=' :: '"' :: value ++ ['"']
  | .code name inner => ' ' :: name ++ '=' :: '\x7b' :: inner ++ ['\x7d']
  | .spread name => ' ' :: '\x7b' :: '.' :: '.' :: '.' :: name ++ ['\x7d']
  | .shorthand name => ' ' :: '\x7b' :: name ++ ['\x7d']

def WellFormed : AttributeOutline → Prop
  | .bare name => IsName name
  | .quoted name value => IsName name ∧ '"' ∉ value
  | .code name inner => IsName name ∧ Code.Balanced .code inner
  | .spread name | .shorthand name => isIdentifier name = true

end AttributeOutline

def Attribute.outline? : Attribute → Option AttributeOutline
  | .normal _ name .empty => some (.bare name.text)
  | .normal _ name (.quoted value) =>
    if value.closed then some (.quoted name.text value.text) else none
  | .normal _ name (.expression code) =>
    if code.closed then some (.code name.text code.text) else none
  | .normal _ _ _ => none
  | .spread _ code => some (.spread code.text)
  | .shorthand _ name => some (.shorthand name.text)

/-! ### Nodes -/

/-- A row of nodes without their places: the first node, and the row that follows it. -/
inductive Outline where
  | nil
  | text (text : Text) (rest : Outline)
  | expression (code : Text) (rest : Outline)
  | comment (data : Text) (rest : Outline)
  | element (name : Text) (attributes : List AttributeOutline) (children rest : Outline)
  | selfClosing (name : Text) (attributes : List AttributeOutline) (rest : Outline)
  deriving DecidableEq

namespace Outline

def print : Outline → Text
  | .nil => []
  | .text run rest => run ++ rest.print
  | .expression code rest => '\x7b' :: code ++ '\x7d' :: rest.print
  | .comment data rest => ['<', '!', '-', '-'] ++ data ++ ['-', '-', '>'] ++ rest.print
  | .element name attributes children rest =>
    '<' :: name ++ attributes.flatMap AttributeOutline.print ++ '>' :: children.print ++
      '<' :: '/' :: name ++ '>' :: rest.print
  | .selfClosing name attributes rest =>
    '<' :: name ++ attributes.flatMap AttributeOutline.print ++ ' ' :: '/' :: '>' :: rest.print

def startsWithText : Outline → Bool
  | .text .. => true
  | _ => false

/-- Text is not empty, holds neither markup nor code, and does not stand next to other text. -/
def WellFormed : Outline → Prop
  | .nil => True
  | .text run rest =>
    (run ≠ [] ∧ '<' ∉ run ∧ '\x7b' ∉ run) ∧ rest.startsWithText = false ∧ rest.WellFormed
  | .expression code rest => Code.Balanced .code code ∧ rest.WellFormed
  | .comment data rest => ¬ ['-', '-', '>'] <:+: data ∧ rest.WellFormed
  | .element name attributes children rest =>
    IsTagName name ∧ (∀ a ∈ attributes, a.WellFormed) ∧ children.WellFormed ∧ rest.WellFormed
  | .selfClosing name attributes rest =>
    IsTagName name ∧ (∀ a ∈ attributes, a.WellFormed) ∧ rest.WellFormed

end Outline

namespace Node

mutual

/-- The outline of a node in front of others. -/
def outline? (rest : Outline) : Node → Option Outline
  | .text t => some (.text t.text rest)
  | .expression code => if code.closed then some (.expression code.text rest) else none
  | .comment _ data => some (.comment data.text rest)
  | .doctype _ => none
  | .element e children => do
    let attributes ← e.startTag.attributes.mapM Attribute.outline?
    match e.startTag.ending, e.rawText, e.endTag with
    | .closed, none, some _ =>
      return .element e.startTag.name.text attributes (← outlines? children) rest
    | .selfClosing, none, none =>
      if children.isEmpty then some (.selfClosing e.startTag.name.text attributes rest) else none
    | _, _, _ => none

def outlines? : List Node → Option Outline
  | [] => some .nil
  | n :: nodes => do outline? (← outlines? nodes) n

end

end Node

end TsxLowering.Markup
