import TsxLowering.Emission.Node
import TsxLowering.Proofs.NestedCode

/-!
Raw text in a template literal.

A backslash is written in front of each character that would end the literal or start code in it,
and in front of each backslash. So the text is got back by taking one backslash from each pair, and
a scan that enters the literal leaves it at its own last backtick, whatever is in the text. Main
statement: `rawText_contained`.
-/

namespace TsxLowering.Emission

/-- What an escaped text stands for: of each backslash with the character behind it, the
character. -/
def unescape : Text → Text
  | '\\' :: c :: s => c :: unescape s
  | c :: s => c :: unescape s
  | [] => []

/-- Whether what comes next is escaped: behind a backslash that is not escaped itself. -/
def escapesNext (before : Text) : Bool :=
  before.foldl (fun escaped c => c == '\\' && !escaped) false

lemma unescape_cons {c : Char} (h : c ≠ '\\') (s : Text) : unescape (c :: s) = c :: unescape s := by
  cases s <;> simp [unescape, h]

lemma escapesNext_pair (c : Char) (s : Text) : escapesNext ('\\' :: c :: s) = escapesNext s := by
  simp [escapesNext]

lemma escapesNext_cons {c : Char} (h : c ≠ '\\') (s : Text) :
    escapesNext (c :: s) = escapesNext s := by
  have hc : (c == '\\') = false := beq_false_of_ne h
  simp [escapesNext, hc]

/-! ### One character -/

lemma head?_of_escapeTemplate {s : Text} (h : (escapeTemplate s).head? = some '\x7b') :
    s.head? = some '\x7b' := by
  cases s with
  | nil => cases h
  | cons c s =>
    unfold escapeTemplate at h
    split at h
    · cases h
    · exact h

/-- A character gets a backslash, or it is one that means nothing where it stands. -/
lemma escapeTemplate_step (c : Char) (s : Text) :
    escapeTemplate (c :: s) = '\\' :: c :: escapeTemplate s ∨
      escapeTemplate (c :: s) = c :: escapeTemplate s ∧ c ≠ '`' ∧ c ≠ '\\' ∧
        (c = '$' → (escapeTemplate s).head? ≠ some '\x7b') := by
  rw [escapeTemplate]
  split
  · exact .inl rfl
  · next hplain =>
    simp only [Bool.or_eq_true, Bool.and_eq_true, beq_iff_eq, not_or, not_and] at hplain
    obtain ⟨⟨hbacktick, hbackslash⟩, hdollar⟩ := hplain
    exact .inr ⟨rfl, hbacktick, hbackslash, fun h hhead =>
      hdollar h (head?_of_escapeTemplate hhead)⟩

/-! ### Whole texts -/

lemma unescape_escapeTemplate (s : Text) : unescape (escapeTemplate s) = s := by
  induction s with
  | nil => rfl
  | cons c s ih =>
    rcases escapeTemplate_step c s with h | ⟨h, -, hbackslash, -⟩
    · rw [h, unescape, ih]
    · rw [h, unescape_cons hbackslash, ih]

lemma escapesNext_of_escapeTemplate {s before after : Text} {c : Char}
    (h : escapeTemplate s = before ++ c :: after)
    (hc : c = '`' ∨ c = '$' ∧ after.head? = some '\x7b') : escapesNext before = true := by
  induction s generalizing before with
  | nil => simp [escapeTemplate] at h
  | cons d s ih =>
    rcases escapeTemplate_step d s with hd | ⟨hd, hbacktick, hbackslash, hdollar⟩
    · rw [hd] at h
      -- `c` is not the backslash put in, so it is the escaped character or comes later
      match before with
      | [] =>
        obtain rfl : '\\' = c := (List.cons.inj h).1
        simp at hc
      | [e] =>
        obtain rfl : '\\' = e := (List.cons.inj h).1
        rfl
      | e :: f :: before =>
        obtain ⟨rfl, hpair⟩ := List.cons.inj h
        obtain ⟨rfl, hrest⟩ := List.cons.inj hpair
        rw [escapesNext_pair]
        exact ih hrest
    · rw [hd] at h
      match before with
      | [] =>
        obtain ⟨rfl, rfl⟩ := List.cons.inj h
        rcases hc with hc | ⟨hc, hhead⟩
        · exact absurd hc hbacktick
        · exact absurd hhead (hdollar hc)
      | e :: before =>
        obtain ⟨rfl, hrest⟩ := List.cons.inj h
        rw [escapesNext_cons hbackslash]
        exact ih hrest

lemma nested_escapeTemplate (s : Text) : Code.Nested ')' .template (escapeTemplate s) := by
  induction s with
  | nil => exact .nil Code.Region.noConfusion
  | cons c s ih =>
    rcases escapeTemplate_step c s with h | ⟨h, hbacktick, hbackslash, hdollar⟩
    · rw [h]
      exact .escape ih
    · rw [h]
      exact .char hbacktick hbackslash hdollar ih

lemma splitTemplate_escapeTemplate (s rest : Text) :
    Code.splitTemplate (escapeTemplate s ++ '`' :: rest) = some (escapeTemplate s, rest) := by
  have hpasses : Code.Leads [.template] (escapeTemplate s) [.template] ('`' :: rest) :=
    (nested_escapeTemplate s).passes [] rest
  rw [Code.splitTemplate, hpasses []]
  simp [Code.run, Code.step, Code.templateStep, Code.leave]

lemma split_escapeTemplate (s rest : Text) :
    Code.split '\x7d' ('`' :: escapeTemplate s ++ '`' :: '\x7d' :: rest) =
      some ('`' :: escapeTemplate s ++ ['`'], rest) := by
  have hliteral : Code.Nested ')' (.code '=') ('`' :: escapeTemplate s ++ ['`']) :=
    .template (nested_escapeTemplate s) (.nil Code.Region.noConfusion)
  have hbrace : '\x7d' ∈ Code.bracketPairs.map Prod.snd := by decide
  have hsplit := Code.split_of_passes hliteral.passes hbrace rest
  rwa [List.append_assoc] at hsplit

/-- **Raw text in its container**: taking one backslash from each pair gives the text back, no
backtick and no dollar sign in front of a brace is without a backslash of its own, and a scan finds
the end of the literal, and of the braces around it, where they were put. -/
theorem rawText_contained (s rest : Text) :
    unescape (escapeTemplate s) = s ∧
      (∀ before after, escapeTemplate s = before ++ '`' :: after → escapesNext before = true) ∧
      (∀ before after, escapeTemplate s = before ++ '$' :: '\x7b' :: after →
        escapesNext before = true) ∧
      Code.splitTemplate (escapeTemplate s ++ '`' :: rest) = some (escapeTemplate s, rest) ∧
      Code.split '\x7d' ('`' :: escapeTemplate s ++ '`' :: '\x7d' :: rest) =
        some ('`' :: escapeTemplate s ++ ['`'], rest) := by
  refine ⟨unescape_escapeTemplate s, fun before after h => ?_, fun before after h => ?_,
    splitTemplate_escapeTemplate s rest, split_escapeTemplate s rest⟩
  · exact escapesNext_of_escapeTemplate h (.inl rfl)
  · exact escapesNext_of_escapeTemplate h (.inr ⟨rfl, rfl⟩)

/-- A backtick, and a dollar sign in front of a brace. -/
def delimiters : Text := ['`', '$', '\x7b']

theorem rawText_contained_delimiters :
    escapeTemplate delimiters = ['\\'] ++ '`' :: ['\\', '$', '\x7b'] ∧
      escapesNext ['\\'] = true ∧
      escapeTemplate delimiters = ['\\', '`', '\\'] ++ '$' :: '\x7b' :: [] ∧
      escapesNext ['\\', '`', '\\'] = true := by
  obtain ⟨-, hbacktick, hdollar, -⟩ := rawText_contained delimiters []
  have hfirst : escapeTemplate delimiters = ['\\'] ++ '`' :: ['\\', '$', '\x7b'] := by decide
  have hsecond : escapeTemplate delimiters = ['\\', '`', '\\'] ++ '$' :: '\x7b' :: [] := by decide
  exact ⟨hfirst, hbacktick _ _ hfirst, hsecond, hdollar _ _ hsecond⟩

end TsxLowering.Emission
