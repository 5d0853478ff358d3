import TsxLowering.Proofs.Emission.Fits
import TsxLowering.Proofs.NestedCode
import TsxLowering.Proofs.Spans

/-!
Comments of the markup as comments in the code.

A comment in code ends at the first `*/`, so each of these in the data gets a space inside. Then no
`*/` is left, and none arises where the data meets the delimiters around it: a scan that enters the
braces leaves them at the brace that was put behind the comment. Main statement:
`comment_contained`.
-/

namespace TsxLowering

open Markup (Node)

namespace Emission

/-- The data of a comment as it is written: with a space inside of each `*/`, and otherwise as it
is. -/
def Parted (data written : Text) : Prop :=
  ∃ parts : List Text, (∀ p ∈ parts, ¬ ['*', '/'] <:+: p) ∧
    data = ['*', '/'].intercalate parts ∧ written = ['*', ' ', '/'].intercalate parts

lemma head?_escapeComment (s : Text) : (escapeComment s).head? = s.head? := by
  fun_cases escapeComment s <;> rfl

lemma not_infix_escapeComment (s : Text) : ¬ ['*', '/'] <:+: escapeComment s := by
  fun_induction escapeComment s with
  | case1 s ih =>
    simp only [List.infix_cons_iff, List.cons_prefix_cons]
    simpa using ih
  | case2 c s hne ih =>
    rw [List.infix_cons_iff, List.cons_prefix_cons]
    rintro (⟨rfl, rest, hrest⟩ | h)
    · -- a slash behind an asterisk would stand there in the data too
      have hhead : s.head? = some '/' := by rw [← head?_escapeComment s, ← hrest]; rfl
      obtain ⟨t, rfl⟩ := List.head?_eq_some_iff.mp hhead
      exact hne t rfl rfl
    · exact ih h
  | case3 => simp

lemma intercalate_cons {sep p : Text} {parts : List Text} (h : parts ≠ []) :
    sep.intercalate (p :: parts) = p ++ sep ++ sep.intercalate parts := by
  cases parts with
  | nil => contradiction
  | cons q parts => simp [List.intercalate]

lemma intercalate_head (sep : Text) (c : Char) (p : Text) (later : List Text) :
    sep.intercalate ((c :: p) :: later) = c :: sep.intercalate (p :: later) := by
  cases later <;> rfl

lemma parted_escapeComment (s : Text) : Parted s (escapeComment s) := by
  -- there is a first part, which the next character is added to
  suffices h : ∃ parts : List Text, parts ≠ [] ∧ (∀ p ∈ parts, ¬ ['*', '/'] <:+: p) ∧
      s = ['*', '/'].intercalate parts ∧ escapeComment s = ['*', ' ', '/'].intercalate parts by
    obtain ⟨parts, -, hparts⟩ := h
    exact ⟨parts, hparts⟩
  fun_induction escapeComment s with
  | case1 s ih =>
    obtain ⟨parts, hne, hfree, hdata, hwritten⟩ := ih
    refine ⟨[] :: parts, by simp, List.forall_mem_cons.mpr ⟨by simp, hfree⟩, ?_, ?_⟩
    · rw [intercalate_cons hne, ← hdata]
      rfl
    · rw [intercalate_cons hne, ← hwritten]
      rfl
  | case2 c s hnot ih =>
    obtain ⟨parts, hne, hfree, hdata, hwritten⟩ := ih
    obtain ⟨p, later, rfl⟩ := List.exists_cons_of_ne_nil hne
    obtain ⟨hp, hlater⟩ := List.forall_mem_cons.mp hfree
    refine ⟨(c :: p) :: later, by simp, List.forall_mem_cons.mpr ⟨?_, hlater⟩, ?_, ?_⟩
    · rw [List.infix_cons_iff, List.cons_prefix_cons]
      rintro (⟨rfl, rest, rfl⟩ | h)
      · rw [List.singleton_append, intercalate_head] at hdata
        exact hnot _ rfl hdata
      · exact hp h
    · rw [hdata, intercalate_head]
    · rw [hwritten, intercalate_head]
  | case3 => exact ⟨[[]], by simp, by simp, rfl, rfl⟩

lemma escapeComment_eq_self {s : Text} (h : s.splitOnce ['*', '/'] = none) :
    escapeComment s = s := by
  fun_induction escapeComment s with
  | case1 s => simp [Text.splitOnce, List.isPrefixOf?] at h
  | case2 c s hnot ih =>
    unfold Text.splitOnce at h
    split at h
    · cases h
    · rw [ih (Option.map_eq_none_iff.mp h)]
  | case3 => rfl

/-- Data that is copied needs no change, so in any case the changed data is written. -/
lemma generatedCode_commentPieces {source : Text} {data : Excerpt} (h : data.Faithful source) :
    generatedCode source (commentPieces data) =
      ['\x7b', '/', '*'] ++ escapeComment data.text ++ ['*', '/', '\x7d'] := by
  have hslice : data.span.slice source = data.text := by rw [Span.slice, h]; rfl
  have hwritten : (if (data.text.splitOnce ['*', '/']).isSome then
      Piece.derived data.span (escapeComment data.text)
      else .copied data.span).text source = escapeComment data.text := by
    split
    · rfl
    · next hnone =>
      rw [escapeComment_eq_self (Option.not_isSome_iff_eq_none.mp hnone)]
      exact hslice
  have hopen : (synthetic "\x7b/*").text source = ['\x7b', '/', '*'] := by
    simp only [synthetic, Piece.text, String.reduceToList]
  have hclose : (synthetic "*/\x7d").text source = ['*', '/', '\x7d'] := by
    simp only [synthetic, Piece.text, String.reduceToList]
  simp only [commentPieces, generatedCode_cons, generatedCode_nil, hwritten, hopen, hclose,
    List.append_assoc, List.append_nil]

lemma prefix_of_append_terminator {s before after rest : Text} (hs : ¬ ['*', '/'] <:+: s)
    (h : s ++ '*' :: '/' :: rest = before ++ '*' :: '/' :: after) : s <+: before := by
  rcases List.append_eq_append_iff.mp h with ⟨w, rfl, -⟩ | ⟨w, rfl, hw⟩
  · exact List.prefix_append s w
  · have hfree : ¬ ['*'] ++ ['/'] <:+: w := fun hin =>
      hs (hin.trans (List.suffix_append _ _).isInfix)
    by_cases hnil : w = []
    · simp [hnil]
    · have hnot : ¬ ['*', '/'] <+: w ++ '*' :: '/' :: rest :=
        Text.not_prefix_of_not_infix (by decide) hfree hnil
      exact absurd ⟨after, hw⟩ hnot

lemma split_comment {s : Text} (hs : ¬ ['*', '/'] <:+: s) (rest : Text) :
    Code.split '\x7d' ('/' :: '*' :: s ++ '*' :: '/' :: '\x7d' :: rest) =
      some ('/' :: '*' :: s ++ ['*', '/'], rest) := by
  have hcomment : Code.Nested ')' (.code '=') ('/' :: '*' :: s ++ ['*', '/']) :=
    .blockComment hs (.nil Code.Region.noConfusion)
  have hbrace : '\x7d' ∈ Code.bracketPairs.map Prod.snd := by decide
  have hsplit := Code.split_of_passes hcomment.passes hbrace rest
  rwa [List.append_assoc] at hsplit

end Emission

/-- **Comments stay comments**: a comment of the source is one comment in braces of the code, that
ends with the `*/` right before the closing brace, whatever follows, and holds the data with each
`*/` of it parted by a space. -/
theorem comment_contained {source : Text} {parsed : Markup.Parsed}
    (hparse : Markup.parse source = .ok parsed) {span : Span} {data : Excerpt}
    (hcomment : .comment span data ∈ Node.descendants parsed.document.nodes) (options : Options) :
    ∃ written, Emission.Parted data.text written ∧
      generatedCode source (Emission.nodePieces source (.comment span data)) =
        ['\x7b', '/', '*'] ++ written ++ ['*', '/', '\x7d'] ∧
      ['\x7b', '/', '*'] ++ written ++ ['*', '/', '\x7d'] <:+:
        componentCode source options parsed.document ∧
      ∀ rest,
        (∀ before after, written ++ '*' :: '/' :: '\x7d' :: rest = before ++ '*' :: '/' :: after →
          written <+: before) ∧
        Code.split '\x7d' ('/' :: '*' :: written ++ '*' :: '/' :: '\x7d' :: rest) =
          some ('/' :: '*' :: written ++ ['*', '/'], rest) := by
  have hfaithful := Markup.parse_faithful hparse
  have hdata : data.Faithful source :=
    (hfaithful.body.placed _ hcomment).excerpts_faithful data (by simp [Node.excerpts])
  have hcode := Emission.generatedCode_commentPieces hdata
  have hfree := Emission.not_infix_escapeComment data.text
  refine ⟨_, Emission.parted_escapeComment data.text, hcode, ?_, fun rest => ⟨?_, ?_⟩⟩
  · rw [← hcode]
    exact generatedCode_isInfix
      (Emission.nodePieces_isInfix_documentPieces hfaithful source _ hcomment rfl)
  · exact fun before after => Emission.prefix_of_append_terminator hfree
  · exact Emission.split_comment hfree rest

/-- A comment with no end, whose data begins like the end of a comment, holds one between other
asterisks and slashes, and ends like the beginning of one. -/
def openComment : Text := "<p><!--/**//*".toList

theorem comment_contained_openComment :
    ∃ parsed, Markup.parse openComment = .ok parsed ∧
      .comment ⟨3, 13⟩ ⟨⟨7, 13⟩, ['/', '*', '*', '/', '/', '*']⟩ ∈
        Node.descendants parsed.document.nodes ∧
      ∃ written, written = ['/', '*', '*', ' ', '/', '/', '*'] ∧
        ['\x7b', '/', '*'] ++ written ++ ['*', '/', '\x7d'] <:+:
          componentCode openComment ⟨none, .omitted⟩ parsed.document ∧
        ∀ rest, Code.split '\x7d' ('/' :: '*' :: written ++ '*' :: '/' :: '\x7d' :: rest) =
          some ('/' :: '*' :: written ++ ['*', '/'], rest) := by
  let comment : Node := .comment ⟨3, 13⟩ ⟨⟨7, 13⟩, ['/', '*', '*', '/', '/', '*']⟩
  let tag : Markup.StartTag := ⟨⟨0, 3⟩, ⟨⟨1, 2⟩, ['p']⟩, [], .closed⟩
  have hparse : Markup.parse openComment = .ok ⟨⟨⟨0, 13⟩, none, ⟨0, 13⟩,
      [.element ⟨⟨0, 13⟩, tag, none, none⟩ [comment]]⟩,
      [⟨.unclosedComment, ⟨3, 13⟩⟩, ⟨.unclosedTag ['p'], ⟨0, 3⟩⟩]⟩ := by decide +kernel
  have hmem : comment ∈ Node.descendants [.element ⟨⟨0, 13⟩, tag, none, none⟩ [comment]] := by
    decide +kernel
  have hcode : generatedCode openComment (Emission.nodePieces openComment comment) =
      ['\x7b', '/', '*'] ++ ['/', '*', '*', ' ', '/', '/', '*'] ++ ['*', '/', '\x7d'] := by
    decide +kernel
  obtain ⟨written, -, hwritten, hin, hrest⟩ := comment_contained hparse hmem ⟨none, .omitted⟩
  obtain rfl := List.append_cancel_left (List.append_cancel_right (hcode.symm.trans hwritten))
  exact ⟨_, hparse, hmem, _, rfl, hin, fun rest => (hrest rest).2⟩

end TsxLowering
