import TsxLowering.Text

/-!
How a source map is delivered with the code it belongs to.
-/

namespace TsxLowering

inductive MapMode where
  | omitted
  /-- Handed back beside the code. -/
  | external
  /-- A comment at the end of the code. -/
  | inline
  | both
  deriving DecidableEq

namespace MapMode

def all : List MapMode := [.omitted, .external, .inline, .both]

def name : MapMode → Text
  | .omitted => "none".toList
  | .external => "external".toList
  | .inline => "inline".toList
  | .both => "both".toList

def isEnabled (m : MapMode) : Bool := m != .omitted

def returnsMap (m : MapMode) : Bool := m == .external || m == .both

def embedsMap (m : MapMode) : Bool := m == .inline || m == .both

/-- A name that is not one of a mode. -/
structure Unknown where
  name : Text
  deriving DecidableEq

def Unknown.message (u : Unknown) : Text :=
  "unknown sourcemap mode `".toList ++ u.name ++
    "`, expected one of: none, external, inline, both".toList

def ofName (name : Text) : Except Unknown MapMode :=
  match all.find? (·.name == name) with
  | some m => .ok m
  | none => .error ⟨name⟩

theorem ofName_name (m : MapMode) : ofName m.name = .ok m := by cases m <;> rfl

end MapMode

end TsxLowering
