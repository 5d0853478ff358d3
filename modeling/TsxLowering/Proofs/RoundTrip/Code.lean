import TsxLowering.Proofs.NestedCode

/-!
Code in which everything that is opened is closed, and that holds neither regular expressions nor
markup.

It is nested code with no condition on what stands before it. So a scan finds its end at the closing
brace right behind it. Main statement: `split_balanced`.
-/

namespace TsxLowering.Code

/-- Whether a text stands in code or in a template literal. -/
inductive Place where
  | code
  | template

/-- A text in which all is closed that is opened. -/
inductive Balanced : Place → Text → Prop
  | nil {place : Place} : Balanced place []
  | plain {c : Char} {s : Text} (plain : isPlain c = true) (rest : Balanced .code s) :
      Balanced .code (c :: s)
  | brackets {opening closing : Char} {s t : Text} (pair : (opening, closing) ∈ bracketPairs)
      (inner : Balanced .code s) (rest : Balanced .code t) :
      Balanced .code (opening :: s ++ closing :: t)
  | string {quote : Char} {s t : Text} (quote_eq : quote = '"' ∨ quote = '\'')
      (body : StringBody quote s) (rest : Balanced .code t) :
      Balanced .code (quote :: s ++ quote :: t)
  | template {s t : Text} (body : Balanced .template s) (rest : Balanced .code t) :
      Balanced .code ('`' :: s ++ '`' :: t)
  | lineComment {s t : Text} (body : '\n' ∉ s) (rest : Balanced .code t) :
      Balanced .code ('/' :: '/' :: s ++ '\n' :: t)
  | blockComment {s t : Text} (body : ¬ ['*', '/'] <:+: s) (rest : Balanced .code t) :
      Balanced .code ('/' :: '*' :: s ++ '*' :: '/' :: t)
  | escape {c : Char} {s : Text} (rest : Balanced .template s) :
      Balanced .template ('\\' :: c :: s)
  /-- A dollar sign in front of a brace would start code. -/
  | char {c : Char} {s : Text} (backtick_ne : c ≠ '`') (backslash_ne : c ≠ '\\')
      (dollar : c = '$' → s.head? ≠ some '\x7b') (rest : Balanced .template s) :
      Balanced .template (c :: s)
  | interpolation {s t : Text} (code : Balanced .code s) (rest : Balanced .template t) :
      Balanced .template ('$' :: '\x7b' :: s ++ '\x7d' :: t)

def Place.region (prev : Char) : Place → Region
  | .code => .code prev
  | .template => .template

lemma Balanced.nested {operand : Char} {place : Place} {s : Text} (h : Balanced place s) :
    ∀ prev, Nested operand (place.region prev) s := by
  induction h with
  | @nil place => exact fun prev => .nil (by cases place <;> exact Region.noConfusion)
  | plain plain _ ih => exact fun _ => .plain plain (ih _)
  | brackets pair _ _ ihs iht => exact fun _ => .brackets pair (ihs _) (iht _)
  | string quote_eq body _ ih => exact fun _ => .string quote_eq body (ih _)
  | template _ _ ihs iht => exact fun prev => .template (ihs prev) (iht _)
  | lineComment body _ ih => exact fun _ => .lineComment body (ih _)
  | blockComment body _ ih => exact fun _ => .blockComment body (ih _)
  | escape _ ih => exact fun prev => .escape (ih prev)
  | char hbacktick hbackslash hdollar _ ih =>
    exact fun prev => .char hbacktick hbackslash hdollar (ih prev)
  | interpolation _ _ ihs iht => exact fun prev => .interpolation (ihs _) (iht prev)

lemma Balanced.append {place : Place} {s t : Text} (h : Balanced place s) (hplace : place = .code)
    (ht : Balanced .code t) : Balanced .code (s ++ t) := by
  induction h with
  | nil => exact ht
  | plain plain _ ih => exact .plain plain (ih rfl)
  | brackets pair inner _ _ ih => simpa using Balanced.brackets pair inner (ih rfl)
  | string quote_eq body _ ih => simpa using Balanced.string quote_eq body (ih rfl)
  | template body _ _ ih => simpa using Balanced.template body (ih rfl)
  | lineComment body _ ih => simpa using Balanced.lineComment body (ih rfl)
  | blockComment body _ ih => simpa using Balanced.blockComment body (ih rfl)
  | escape => cases hplace
  | char => cases hplace
  | interpolation => cases hplace

/-- **The end of balanced code** is the closing brace behind it. -/
theorem split_balanced {s : Text} (h : Balanced .code s) (tail : Text) :
    split '\x7d' (s ++ '\x7d' :: tail) = some (s, tail) :=
  split_of_passes (h.nested '=').passes (by decide) tail

end TsxLowering.Code
