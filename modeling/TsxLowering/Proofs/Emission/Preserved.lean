import TsxLowering.Proofs.Emission.Fits

/-!
Code is preserved.

Text, expressions and the code in attributes stand in the generated code as they do in the
source, whatever is done to the markup around them, and the map leads from each offset in such
a copy back to the offset it was copied from.
-/

namespace TsxLowering

open Markup (Attribute Document Element Node StartTag)

variable {source : Text} {s : Span}

/-! ### What is preserved -/

/-- The code in an attribute: that of an expression or of a spread, a template, or a name that
stands for its own value. -/
def Markup.Attribute.codeSpan? : Attribute → Option Span
  | .normal _ _ (.expression code) => some code.innerSpan
  | .normal _ _ (.template literal) => some literal.span
  | .normal .. => none
  | .spread _ code => some code.span
  | .shorthand _ name => if name.span.isEmpty then none else some name.span

/-- The parts of a node itself, not of the nodes inside, that are preserved. -/
def Markup.Node.codeSpans : Node → List Span
  | .text t => [t.span]
  | .expression e => [e.span]
  | .element e _ => e.startTag.attributes.filterMap Attribute.codeSpan?
  | .comment .. | .doctype _ => []

namespace Emission

/-- The source under the span is part of a copy. -/
def Copies (pieces : List Piece) (s : Span) : Prop :=
  ∃ t, .copied t ∈ pieces ∧ t.start ≤ s.start ∧ s.stop ≤ t.stop

lemma Copies.mono {pieces pieces' : List Piece} (h : Copies pieces s) (hsub : pieces ⊆ pieces') :
    Copies pieces' s := by
  obtain ⟨t, ht, hbounds⟩ := h
  exact ⟨t, hsub ht, hbounds⟩

lemma copies_of_mem {pieces : List Piece} (h : .copied s ∈ pieces) : Copies pieces s :=
  ⟨s, h, Nat.le_refl _, Nat.le_refl _⟩

/-! ### Attributes -/

lemma codeSpan?_bounds {a : Attribute} (h : a.Faithful source) (hs : a.codeSpan? = some s) :
    s.Fits source ∧ a.span.start ≤ s.start ∧ s.stop ≤ a.span.stop := by
  cases a with
  | normal span name value =>
    obtain ⟨-, hstart, hlt, hvalue⟩ := h
    simp only [Attribute.span]
    cases value with
    | expression v =>
      cases hs
      obtain ⟨hv, hle, hstop⟩ := hvalue
      have := v.innerSpan_stop_le
      refine ⟨hv.inner_fits, ?_, by omega⟩
      simp only [Markup.Enclosed.innerSpan]
      omega
    | template v =>
      cases hs
      obtain ⟨hv, hle, hstop⟩ := hvalue
      exact ⟨hv.fits, by omega, by omega⟩
    | empty => cases hs
    | quoted v => cases hs
    | unquoted v => cases hs
  | spread span code =>
    cases hs
    obtain ⟨-, hcode, hstart, hstop⟩ := h
    exact ⟨hcode.fits, Nat.le_of_lt hstart, Nat.le_of_lt hstop⟩
  | shorthand span name =>
    obtain ⟨-, hname, hstart, hstop⟩ := h
    simp only [Attribute.codeSpan?] at hs
    split at hs <;> cases hs
    exact ⟨hname.fits, Nat.le_of_lt hstart, Nat.le_of_lt hstop⟩

lemma placement_copies {a : Attribute} (h : a.Faithful source) (hclosed : a.isClosed = true)
    (hs : a.codeSpan? = some s) : Copies (placement a).pieces s := by
  have hbounds := (codeSpan?_bounds h hs).2
  cases a with
  | normal span name value =>
    cases value with
    | expression v =>
      cases hs
      simp only [placement]
      split
      · exact ⟨span, by simp [Placement.pieces, normalPieces], hbounds⟩
      · exact copies_of_mem (by simp [Placement.pieces, entryValuePieces])
    | template v =>
      cases hs
      have hv : v.closed = true := hclosed
      simp only [placement]
      split
      · exact copies_of_mem (by simp [Placement.pieces, normalPieces])
      · exact copies_of_mem (by simp [Placement.pieces, entryValuePieces, hv])
    | empty => cases hs
    | quoted v => cases hs
    | unquoted v => cases hs
  | spread span code => exact ⟨span, by simp [placement, Placement.pieces], hbounds⟩
  | shorthand span name =>
    simp only [Attribute.codeSpan?] at hs
    split at hs
    · cases hs
    next hempty =>
    cases hs
    simp only [placement, h.2.1.isEmpty_text, hempty, Bool.false_eq_true, if_false]
    split
    · exact copies_of_mem (by simp [Placement.pieces])
    · exact copies_of_mem (by simp [Placement.pieces])

/-! ### Nodes -/

lemma startTagPieces_subset {e : Element} {children : List Node}
    (h : (Node.element e children).Placed source) (hending : e.startTag.ending ≠ .unclosed) :
    startTagPieces e.startTag ⊆ nodePieces source (.element e children) := by
  rcases h with h | @⟨_, _, _, he, holds, rawText, content⟩
  · cases h with
    | unclosed _ ending => exact absurd ending hending
    | childless _ ending kind =>
      rw [nodePieces_childless ending kind]
      exact List.Subset.refl _
    | rawText _ ending void _ rawText _ _ contentEnd =>
      rw [nodePieces_rawText ending void rawText contentEnd, List.append_assoc]
      exact List.subset_append_left _ _
  · rw [nodePieces_content holds rawText, List.append_assoc]
    exact List.subset_append_left _ _

lemma nodePieces_copies {n : Node} (h : n.Placed source) (hs : s ∈ n.codeSpans) :
    s.Fits source ∧ Copies (nodePieces source n) s := by
  cases n with
  | text t =>
    obtain rfl := List.mem_singleton.mp hs
    obtain ⟨⟨h⟩⟩ := h
    exact ⟨h.fits, copies_of_mem (by simp [nodePieces])⟩
  | expression e =>
    obtain rfl := List.mem_singleton.mp hs
    obtain ⟨⟨⟩ | ⟨h⟩⟩ := h
    exact ⟨h.fits, copies_of_mem (by simp [nodePieces])⟩
  | comment span data => cases hs
  | doctype span => cases hs
  | element e children =>
    obtain ⟨a, ha, hs⟩ := List.mem_filterMap.mp hs
    have htag := h.startTag
    have hfaithful := htag.tail.inOrder.faithful a ha
    obtain ⟨hfits, hstart, hstop⟩ := codeSpan?_bounds hfaithful hs
    refine ⟨hfits, ?_⟩
    by_cases hending : e.startTag.ending = .unclosed
    · -- the tag is copied as it stands
      obtain ⟨-, hle, hge⟩ := htag.tail.inOrder.bounds a ha
      have := htag.start_lt_name_stop
      rw [nodePieces_unclosed hending, h.span_eq_of_unclosed hending]
      exact ⟨e.startTag.span, by simp, by omega, by omega⟩
    · have hclosed := htag.tail.closed hending a ha
      exact ((placement_copies hfaithful hclosed hs).mono (placement_subset ha)).mono
        (startTagPieces_subset h hending)

/-! ### Documents -/

lemma documentPieces_copies {d : Document} {spans : List Span} (h : d.Faithful source spans)
    (name : Text) {n : Node} (hn : n ∈ Node.descendants d.nodes) (hs : s ∈ n.codeSpans) :
    s.Fits source ∧ Copies (documentPieces source name d) s := by
  obtain ⟨before, after, -, hbefore, hafter⟩ := tiling_wrapper h
  obtain ⟨hfits, hcopies⟩ := nodePieces_copies (h.body.placed n hn) hs
  refine ⟨hfits, ?_⟩
  rw [← leadingBlank_append d.nodes, Node.descendants_append] at hn
  rcases List.mem_append.mp hn with hn | hn
  · -- blank text before the wrapper is copied with all before the wrapper
    have hblank := isBlankNode_leadingBlank d.nodes
    rw [descendants_of_blank hblank] at hn
    obtain ⟨hstart, -, hstop⟩ := hbefore.node_bounds n hn
    have hspan : s = n.span := by
      have := hblank n hn
      cases n with
      | text t => exact List.mem_singleton.mp hs
      | _ => cases this
    refine ⟨leadSpan d, leadSpan_mem source name d, ?_, ?_⟩
    · rw [hspan]
      exact hstart
    · rw [hspan]
      exact hstop
  · have hsub : nodePieces source n ⊆ bodyPieces source d :=
      (nodePieces_isInfix hafter (Nat.le_refl _) n hn).subset
    exact hcopies.mono (List.Subset.trans hsub (bodyPieces_isInfix source name d).subset)

end Emission

/-- **Code is preserved**: text, expressions and the code in attributes stand in the generated
code as they do in the source, and the map leads back from each offset in them. -/
theorem convert_preserves_code {options : Options} {parsed : Markup.Parsed}
    (hmode : options.mapMode = .external) (hparse : Markup.parse source = .ok parsed)
    (hsize : (componentCode source options parsed.document).size ≤ Offset.limit) :
    ∃ map encoded,
      convert source options =
        .ok ⟨componentCode source options parsed.document, some ⟨map, encoded⟩⟩ ∧
      ∀ n ∈ Node.descendants parsed.document.nodes, ∀ s ∈ n.codeSpans,
        s.Preserved source (componentCode source options parsed.document) map := by
  obtain ⟨encoded, hconvert⟩ := convert_external hmode hparse hsize
  refine ⟨_, encoded, hconvert, fun n hn s hs => ?_⟩
  obtain ⟨hfits, t, ht, hstart, hstop⟩ :=
    Emission.documentPieces_copies (Markup.parse_faithful hparse) _ hn hs
  exact preserved_of_copied (Markup.parse_eq_ok hparse) ht
    (componentPieces_fits hparse options _ ht)
    hfits hstart hstop

/-- The code of an attribute that moves, an expression inside of its element, and the code of an
attribute in a start tag that is never closed. -/
def movedCode : Text := "<a :b=\x7bc\x7d>\x7bd\x7d</a><e \x7bf\x7d".toList

theorem convert_preserves_movedCode :
    ∃ parsed, Markup.parse movedCode = .ok parsed ∧
      (componentCode movedCode ⟨none, .external⟩ parsed.document).size ≤ Offset.limit ∧
      (Node.descendants parsed.document.nodes).flatMap Node.codeSpans =
        [⟨7, 8⟩, ⟨10, 13⟩, ⟨21, 22⟩] ∧
      ∃ map encoded, convert movedCode ⟨none, .external⟩ =
          .ok ⟨componentCode movedCode ⟨none, .external⟩ parsed.document, some ⟨map, encoded⟩⟩ ∧
        ∀ n ∈ Node.descendants parsed.document.nodes, ∀ s ∈ n.codeSpans,
          s.Preserved movedCode
            (componentCode movedCode ⟨none, .external⟩ parsed.document) map := by
  let a : StartTag := ⟨⟨0, 10⟩, ⟨⟨1, 2⟩, ['a']⟩,
    [.normal ⟨3, 9⟩ ⟨⟨3, 5⟩, [':', 'b']⟩ (.expression ⟨⟨6, 9⟩, ['c'], true⟩)], .closed⟩
  let e : StartTag := ⟨⟨17, 23⟩, ⟨⟨18, 19⟩, ['e']⟩,
    [.shorthand ⟨20, 23⟩ ⟨⟨21, 22⟩, ['f']⟩], .unclosed⟩
  let document : Document := ⟨⟨0, 23⟩, none, ⟨0, 23⟩,
    [.element ⟨⟨0, 17⟩, a, none, some ⟨13, 17⟩⟩ [.expression ⟨⟨10, 13⟩, ['d'], true⟩],
      .element ⟨⟨17, 23⟩, e, none, none⟩ []]⟩
  have hparse : Markup.parse movedCode =
      .ok ⟨document, [⟨.unclosedStartTag ['e'], ⟨17, 23⟩⟩]⟩ := by decide +kernel
  have hsize : (componentCode movedCode ⟨none, .external⟩ document).size ≤ Offset.limit := by
    decide +kernel
  exact ⟨_, hparse, hsize, by decide +kernel, convert_preserves_code rfl hparse hsize⟩

end TsxLowering
