import TsxLowering.Proofs.Emission.Rewriting
import TsxLowering.Proofs.RoundTrip.Spelling
import TsxLowering.Proofs.TrimmedCode.Closing

/-!
Shorthands whose code is put in parentheses.

The name of a shorthand is the code in its braces without the blanks around it. Where it cannot
stand in JSX it becomes an entry, with the name in parentheses for a value. The code has been read
up to its closing brace with the blanks; so the entry may lack the line break that ends a comment or
a string in the code, or the blank that makes an operator of its first character. Then the value
need not end at its parenthesis.
-/

namespace TsxLowering

open Markup (Attribute Element Node Parsed parse)

variable {source : Text}

namespace Emission

/-- There is nothing in the braces under a span but a name, with blanks before and behind it. -/
structure Braced (source : Text) (span : Span) (name lead trail : Text) : Prop where
  written : source.slice? span.start span.stop =
    some ('\x7b' :: (lead ++ name ++ trail ++ ['\x7d']))
  lead_blank : lead.isBlank = true
  trail_blank : trail.isBlank = true

lemma Braced.inner_eq {span : Span} {name lead trail inner : Text}
    (h : Braced source span name lead trail)
    (hslice : source.slice? span.start span.stop = some ('\x7b' :: (inner ++ ['\x7d']))) :
    lead ++ name ++ trail = inner := by
  have heq := Option.some.inj (h.written.symm.trans hslice)
  exact List.append_cancel_right (List.cons.inj heq).2

lemma exists_braced {span : Span} {name : Excerpt}
    (h : (Attribute.shorthand span name).Spelled source) :
    ∃ lead trail, Braced source span name.text lead trail := by
  obtain ⟨inner, htrim, hslice⟩ := h
  obtain ⟨trail, htrail, hsplit⟩ := inner.exists_trim_append
  rw [← List.takeWhile_append_dropWhile (p := isBlank) (l := inner), hsplit, htrim,
    ← List.append_assoc] at hslice
  exact ⟨_, trail, hslice, List.all_takeWhile, htrail⟩

end Emission

open Emission (Braced)

/-- **The value of an entry made of a shorthand** ends at its own parenthesis, wherever the code in
the braces would, exactly if the name is not open at its end and either begins as it does in the
braces or ends there with what it begins with now. It begins as before if the blanks in front of it
are those of ASCII, or if it opens with no regular expression and no tag. Such a name ends at the
parenthesis unless there is a line break behind it. -/
theorem shorthand_closes_iff (h : source.size ≤ Offset.limit) :
    ∃ p, parse source = .ok p ∧ ∀ (e : Element) (children : List Node) (span : Span)
      (name : Excerpt), .element e children ∈ Node.descendants p.document.nodes →
      .shorthand span name ∈ e.startTag.attributes → name.text ≠ [] →
      NameClass.ofName name.text = .needsSpread →
      ∃ lead trail, Braced source span name.text lead trail ∧
        Emission.attributeCode source (.shorthand span name) =
          JsonString.encode name.text ++ ':' :: '(' :: name.text ++ [')'] ∧
        (Code.Closes (lead ++ name.text ++ trail) →
          (Code.Closes name.text ↔ Code.endsOpen name.text = false ∧
            (lead.all isAsciiBlank = true ∨ Code.opensOperand 0 name.text = false ∨
              Code.Closes (name.text ++ ['\n']))) ∧
          ('\n' ∉ trail →
            lead.all isAsciiBlank = true ∨ Code.opensOperand 0 name.text = false →
            Code.Closes name.text)) := by
  obtain ⟨p, hp⟩ := Markup.exists_parse_eq_ok h
  refine ⟨p, hp, fun e children span name he ha hne hclass => ?_⟩
  have hread := Markup.parse_startTag_read hp he
  have hfaithful := hread.faithful.tail.inOrder.faithful _ ha
  obtain ⟨lead, trail, hbraced⟩ := Emission.exists_braced (hread.spelled _ ha)
  refine ⟨lead, trail, hbraced, Emission.attributeCode_shorthand hfaithful.2.1 hne hclass span,
    fun hcloses => ?_⟩
  exact Code.closes_iff_of_blanks hbraced.lead_blank hbraced.trail_blank hcloses

/-- Two shorthands with a line break before the closing brace, in one of which `//` begins a
comment, and one with a regular expression behind a no-break space. -/
def brokenLines : Text :=
  "<p \x7b f(\"//\")\n\x7d \x7bb // c\n\x7d \x7b\u00a0/\"/\"\x7d/>".toList

theorem shorthand_closes_brokenLines :
    brokenLines.size ≤ Offset.limit ∧ ∃ p e call note ratio, parse brokenLines = .ok p ∧
      .element e [] ∈ Node.descendants p.document.nodes ∧
      e.startTag.attributes =
        [.shorthand ⟨3, 14⟩ call, .shorthand ⟨15, 24⟩ note, .shorthand ⟨25, 33⟩ ratio] ∧
      NameClass.ofName call.text = .needsSpread ∧ NameClass.ofName note.text = .needsSpread ∧
      NameClass.ofName ratio.text = .needsSpread ∧
      Code.Closes (' ' :: call.text ++ ['\n']) ∧ Code.Closes call.text ∧
      Code.Closes (note.text ++ ['\n']) ∧ ¬ Code.Closes note.text ∧
      Code.Closes ('\u00a0' :: ratio.text) ∧ ¬ Code.Closes ratio.text := by
  refine ⟨by decide, ?_⟩
  obtain ⟨p, hp, hshorthands⟩ := @shorthand_closes_iff brokenLines (by decide)
  let call : Excerpt := ⟨⟨5, 12⟩, "f(\"//\")".toList⟩
  let note : Excerpt := ⟨⟨16, 22⟩, "b // c".toList⟩
  let ratio : Excerpt := ⟨⟨28, 32⟩, "/\"/\"".toList⟩
  let e : Element := ⟨⟨0, 35⟩, ⟨⟨0, 35⟩, ⟨⟨1, 2⟩, ['p']⟩,
    [.shorthand ⟨3, 14⟩ call, .shorthand ⟨15, 24⟩ note, .shorthand ⟨25, 33⟩ ratio],
    .selfClosing⟩, none, none⟩
  have hparse : parse brokenLines = .ok ⟨⟨⟨0, 35⟩, none, ⟨0, 35⟩, [.element e []]⟩, []⟩ := by
    decide +kernel
  obtain rfl := Except.ok.inj (hp.symm.trans hparse)
  have he : .element e [] ∈ Node.descendants [.element e []] := by simp
  have hcall : Code.Closes (' ' :: call.text ++ ['\n']) := by decide +kernel
  have hnote : Code.Closes (note.text ++ ['\n']) := by decide +kernel
  have hratio : Code.Closes ('\u00a0' :: ratio.text) := by decide +kernel
  have hcallClass : NameClass.ofName call.text = .needsSpread := by decide +kernel
  have hnoteClass : NameClass.ofName note.text = .needsSpread := by decide +kernel
  have hratioClass : NameClass.ofName ratio.text = .needsSpread := by decide +kernel
  refine ⟨_, e, call, note, ratio, hp, he, rfl, hcallClass, hnoteClass, hratioClass, hcall, ?_,
    hnote, ?_, hratio, ?_⟩
  · obtain ⟨lead, trail, hbraced, -, hcloses⟩ :=
      hshorthands e [] ⟨3, 14⟩ call he (by simp [e]) (by decide) hcallClass
    have hinner : lead ++ call.text ++ trail = ' ' :: call.text ++ ['\n'] :=
      hbraced.inner_eq (by decide +kernel)
    exact (hcloses (hinner ▸ hcall)).1.mpr ⟨by decide +kernel, .inr (.inl (by decide +kernel))⟩
  · obtain ⟨lead, trail, hbraced, -, hcloses⟩ :=
      hshorthands e [] ⟨15, 24⟩ note he (by simp [e]) (by decide) hnoteClass
    have hinner : lead ++ note.text ++ trail = note.text ++ ['\n'] :=
      hbraced.inner_eq (by decide +kernel)
    have hopen : Code.endsOpen note.text = true := by decide +kernel
    intro hclosed
    cases ((hcloses (hinner ▸ hnote)).1.mp hclosed).1.symm.trans hopen
  · obtain ⟨lead, trail, hbraced, -, hcloses⟩ :=
      hshorthands e [] ⟨25, 33⟩ ratio he (by simp [e]) (by decide) hratioClass
    have hinner : lead ++ ratio.text ++ trail = '\u00a0' :: ratio.text :=
      hbraced.inner_eq (by decide +kernel)
    have hopen : Code.endsOpen ratio.text = true := by decide +kernel
    intro hclosed
    cases ((hcloses (hinner ▸ hratio)).1.mp hclosed).1.symm.trans hopen

/-- **Trimming opens code at either end.** A line break behind the name has ended a comment; a
no-break space before it has made a division of what is a regular expression without it. -/
theorem shorthand_trimmed_open :
    (¬ ∀ (source : Text) (p : Parsed), parse source = .ok p → ∀ (e : Element)
      (children : List Node) (span : Span) (name : Excerpt) (trail : Text),
      .element e children ∈ Node.descendants p.document.nodes →
      .shorthand span name ∈ e.startTag.attributes → name.text ≠ [] →
      NameClass.ofName name.text = .needsSpread → Braced source span name.text [] trail →
      Code.Closes (name.text ++ trail) → Code.Closes name.text) ∧
    ¬ ∀ (source : Text) (p : Parsed), parse source = .ok p → ∀ (e : Element)
      (children : List Node) (span : Span) (name : Excerpt) (lead : Text),
      .element e children ∈ Node.descendants p.document.nodes →
      .shorthand span name ∈ e.startTag.attributes → name.text ≠ [] →
      NameClass.ofName name.text = .needsSpread → Braced source span name.text lead [] →
      Code.Closes (lead ++ name.text) → Code.Closes name.text := by
  constructor
  · intro h
    let note : Excerpt := ⟨⟨4, 10⟩, "a // c".toList⟩
    let e : Element := ⟨⟨0, 14⟩, ⟨⟨0, 14⟩, ⟨⟨1, 2⟩, ['p']⟩, [.shorthand ⟨3, 12⟩ note],
      .selfClosing⟩, none, none⟩
    have hparse : parse "<p \x7ba // c\n\x7d/>".toList =
        .ok ⟨⟨⟨0, 14⟩, none, ⟨0, 14⟩, [.element e []]⟩, []⟩ := by decide +kernel
    exact absurd (h _ _ hparse e [] ⟨3, 12⟩ note ['\n'] (by simp) (by simp [e]) (by decide)
      (by decide +kernel) ⟨by decide +kernel, rfl, rfl⟩ (by decide +kernel)) (by decide +kernel)
  · intro h
    let ratio : Excerpt := ⟨⟨6, 10⟩, "/\"/\"".toList⟩
    let e : Element := ⟨⟨0, 13⟩, ⟨⟨0, 13⟩, ⟨⟨1, 2⟩, ['p']⟩, [.shorthand ⟨3, 11⟩ ratio],
      .selfClosing⟩, none, none⟩
    have hparse : parse "<p \x7b\u00a0/\"/\"\x7d/>".toList =
        .ok ⟨⟨⟨0, 13⟩, none, ⟨0, 13⟩, [.element e []]⟩, []⟩ := by decide +kernel
    exact absurd (h _ _ hparse e [] ⟨3, 11⟩ ratio ['\u00a0'] (by simp) (by simp [e]) (by decide)
      (by decide +kernel) ⟨by decide +kernel, rfl, rfl⟩ (by decide +kernel)) (by decide +kernel)

end TsxLowering
