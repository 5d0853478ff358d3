import TsxLowering.Proofs.Emission.Fits

/-!
Plain markup passes through.

Where no part of the markup has to be rewritten, the markup in the wrapper is the source from
there on, character for character. Tags that are not closed or that close nothing, and elements
and expressions that never end, do not matter for this: what is attached to no node is copied
from between the nodes.
-/

namespace TsxLowering

open Markup (Attribute Document Element Node StartTag)

variable {source : Text}

/-! ### Plain markup -/

namespace Markup

/-- The value is written in the same way in JSX. -/
def Attribute.Value.isPlain : Attribute.Value → Bool
  | .empty | .quoted _ | .expression _ => true
  | .unquoted _ | .template _ => false

/-- The attribute is written in the same way in JSX. -/
def Attribute.isPlain : Attribute → Bool
  | .normal _ name value => NameClass.ofName name.text == .direct && value.isPlain
  | .spread .. => true
  | .shorthand .. => false

/-- A void element closes itself, and in no other way. -/
def Element.closesAsJsx (e : Element) : Bool :=
  !e.startTag.isVoid || e.startTag.ending == .selfClosing && e.endTag.isNone

/-- The node itself, apart from the nodes inside, is written in the same way in JSX. A start tag
that is not closed is not looked into. -/
def Node.isPlain : Node → Bool
  | .text _ | .expression _ => true
  | .comment .. | .doctype _ => false
  | .element e _ =>
    e.startTag.ending == .unclosed ||
      e.startTag.attributes.all Attribute.isPlain && e.rawText.all Span.isEmpty && e.closesAsJsx

lemma Node.isPlain_element {e : Element} {children : List Node}
    (h : (Node.element e children).isPlain = true) (hending : e.startTag.ending ≠ .unclosed) :
    (∀ a ∈ e.startTag.attributes, a.isPlain = true) ∧
      (∀ raw, e.rawText = some raw → raw.isEmpty = true) ∧
      (e.startTag.isVoid = true → e.startTag.ending = .selfClosing ∧ e.endTag = none) := by
  simpa [Node.isPlain, Element.closesAsJsx, hending, and_assoc, Option.all_eq_true,
    imp_iff_not_or] using h

end Markup

namespace Emission

/-- The pieces make the source between the two offsets again. -/
def Restores (source : Text) (a b : Nat) (pieces : List Piece) : Prop :=
  generatedCode source pieces = Span.slice ⟨a, b⟩ source

lemma restores_piecewise : Piecewise source (Restores source) where
  nil := (Span.slice_empty _).symm
  copied _ _ _ := by simp [Restores, Piece.text]
  append ha hb hc hab hbc hxs hys := by
    unfold Restores at hxs hys ⊢
    rw [generatedCode_append, hxs, hys, Span.slice_append_slice ha hb hc hab hbc]

/-! ### Attributes -/

lemma placement_of_plain {a : Attribute} (h : a.Faithful source) (hplain : a.isPlain = true) :
    ∃ pieces, placement a = .inPlace pieces ∧ Restores source a.span.start a.span.stop pieces := by
  have hcopied := restores_piecewise.span h.fits
  cases a with
  | normal span name value =>
    simp only [Attribute.isPlain, Bool.and_eq_true, beq_iff_eq] at hplain
    obtain ⟨hdirect, hplain⟩ := hplain
    refine ⟨normalPieces span name value, by simp [placement, hdirect], ?_⟩
    cases value with
    | empty =>
      -- such an attribute is its name
      obtain ⟨-, hstart, -, hstop⟩ := h
      have hspan : name.span = span := by
        show name.span = ⟨span.start, span.stop⟩
        rw [← hstart, ← show name.span.stop = span.stop from hstop]
      simp only [normalPieces, hspan]
      exact hcopied
    | quoted v => exact hcopied
    | expression v => exact hcopied
    | unquoted v => cases hplain
    | template v => cases hplain
  | spread span code => exact ⟨_, rfl, hcopied⟩
  | shorthand span name => cases hplain

lemma inPlacePieces_of_plain {start stop : Nat} {attributes : List Attribute}
    (h : Attribute.InOrder source start attributes stop) (hstart : source.Boundary start)
    (hplain : ∀ a ∈ attributes, a.isPlain = true) :
    Restores source start (Attribute.endOf start attributes) (inPlacePieces start attributes) := by
  induction attributes generalizing start with
  | nil => exact restores_piecewise.nil
  | cons a rest ih =>
    obtain ⟨hle, ha, hrest⟩ := h
    obtain ⟨pieces, hplace, hpieces⟩ := placement_of_plain ha (hplain a (by simp))
    have hstop := ha.fits.stop_boundary
    obtain ⟨hend, hendLe⟩ := hrest.endOf_bounds hstop
    have hgap := restores_piecewise.copied hstart ha.fits.start_boundary hle
    have hhead := restores_piecewise.append hstart ha.fits.start_boundary hstop hle
      ha.fits.start_le hgap hpieces
    have := restores_piecewise.append hstart hstop hend (Nat.le_trans hle ha.fits.start_le) hendLe
      hhead (ih hrest hstop fun b hb => hplain b (by simp [hb]))
    simp only [inPlacePieces, hplace, Attribute.endOf]
    exact this

lemma spreadPieces_of_plain {attributes : List Attribute}
    (h : ∀ a ∈ attributes, a.Faithful source) (hplain : ∀ a ∈ attributes, a.isPlain = true) :
    spreadPieces attributes = [] := by
  have hnone : spreadEntries attributes = [] := by
    refine List.filterMap_eq_nil_iff.mpr fun a ha => ?_
    obtain ⟨pieces, hplace, -⟩ := placement_of_plain (h a ha) (hplain a ha)
    rw [hplace]
  simp [spreadPieces, hnone]

/-! ### Nodes -/

lemma startTagPieces_of_plain {t : StartTag} (h : t.Faithful source)
    (hplain : ∀ a ∈ t.attributes, a.isPlain = true)
    (hvoid : t.isVoid = true → t.ending = .selfClosing) :
    Restores source t.span.start t.span.stop (startTagPieces t) := by
  have hstart := h.fits.start_boundary
  have hstop := h.fits.stop_boundary
  have hname := h.name.fits.stop_boundary
  have hnameLe := Nat.le_of_lt h.start_lt_name_stop
  obtain ⟨hend, hendLe⟩ := h.tail.inOrder.endOf_bounds hname
  have htailLe := h.attributesEnd_between.le
  rw [← StartTag.attributesEnd_eq] at hend hendLe
  have hattributes := inPlacePieces_of_plain h.tail.inOrder hname hplain
  rw [← StartTag.attributesEnd_eq] at hattributes
  -- from the name over the attributes to the end, each part as it is in the source
  have hopened := restores_piecewise.append hstart hname hend hnameLe hendLe
    (restores_piecewise.copied hstart hname hnameLe) hattributes
  have htag := restores_piecewise.append hstart hend hstop (Nat.le_trans hnameLe hendLe) htailLe
    hopened (restores_piecewise.copied hend hstop htailLe)
  have hwhole : (t.isVoid && t.ending != .selfClosing) = false := by
    simpa using hvoid
  simp only [startTagPieces, attributePieces, hwhole, Bool.false_eq_true, if_false,
    spreadPieces_of_plain h.tail.inOrder.faithful hplain, List.append_nil]
  exact htag

lemma meets_restores {n : Node} (h : n.Placed source) (hplain : n.isPlain = true) :
    Meets source (Restores source) n := by
  cases n with
  | text => trivial
  | expression => trivial
  | comment => cases hplain
  | doctype => cases hplain
  | element e children =>
    intro hending
    obtain ⟨hattributes, hraw, hvoid⟩ := Node.isPlain_element hplain hending
    refine ⟨startTagPieces_of_plain h.startTag hattributes fun hv => (hvoid hv).1, ?_, ?_⟩
    · intro raw hr
      have hempty := hraw raw hr
      have hle := (h.rawText_fits hr).start_le
      have heq : raw.start = raw.stop := by
        simp only [Span.isEmpty, decide_eq_true_eq] at hempty
        omega
      rw [rawTextPieces, if_pos hempty, heq]
      exact restores_piecewise.nil
    · intro hv t ht
      rw [(hvoid hv).2] at ht
      cases ht

lemma generatedCode_scriptPieces {d : Document} {spans : List Span} (h : d.Faithful source spans) :
    generatedCode source (scriptPieces d) =
      d.frontmatter.elim [] (·.content.text) ++ (leadSpan d).slice source ++
        if d.frontmatter.any fun f => needsSeparator f.content.text
          then "\"\";".toList else [] := by
  have hscript : generatedCode source (d.frontmatter.toList.map fun f => .copied f.content.span) =
      d.frontmatter.elim [] (·.content.text) := by
    cases hf : d.frontmatter with
    | none => rfl
    | some f => simp [Piece.text, (h.frontmatter f hf).content.slice_eq]
  rw [scriptPieces, generatedCode_append, generatedCode_append, hscript]
  congr 1
  · simp [Piece.text, leadSpan]
  · split <;> simp [separator, synthetic, Piece.text]

lemma generatedCode_documentPieces (source name : Text) (d : Document) :
    generatedCode source (documentPieces source name d) =
      generatedCode source (scriptPieces d) ++ "<Fragment>\n".toList ++
        generatedCode source (bodyPieces source d) ++ "\n</Fragment>\n".toList ++
        Component.exportDeclaration name := by
  simp [documentPieces, wrapperOpen, wrapperClose, synthetic, Piece.text]

end Emission

/-- **Plain markup passes through**: the code is the script, the source before the wrapper, and
in the wrapper all the rest of the source, however malformed. -/
theorem convert_passes_through {options : Options} {parsed : Markup.Parsed}
    (hmode : options.mapMode = .omitted) (hparse : Markup.parse source = .ok parsed)
    (hsize : (componentCode source options parsed.document).size ≤ Offset.limit)
    (hplain : ∀ n ∈ Node.descendants parsed.document.nodes, n.isPlain = true) :
    ∃ lead body,
      source.slice? parsed.document.bodySpan.start (Emission.wrapperStart parsed.document) =
        some lead ∧
      source.slice? (Emission.wrapperStart parsed.document) source.size = some body ∧
      convert source options =
        .ok ⟨parsed.document.frontmatter.elim [] (·.content.text) ++ lead ++
          (if parsed.document.frontmatter.any fun f => Emission.needsSeparator f.content.text
            then "\"\";".toList else []) ++
          "<Fragment>\n".toList ++ body ++ "\n</Fragment>\n".toList ++
          Component.exportDeclaration (options.filename.elim [] Component.name), none⟩ := by
  have hfaithful := Markup.parse_faithful hparse
  have hlead := Emission.leadSpan_fits hfaithful
  have hbody := Emission.restores_piecewise.body hfaithful fun n hn =>
    Emission.meets_restores (hfaithful.body.placed n hn) (hplain n hn)
  rw [hfaithful.body_stop] at hbody
  have hwrapped : Span.Fits ⟨Emission.wrapperStart parsed.document, source.size⟩ source :=
    Span.fits_of_boundary hlead.stop_boundary source.boundary_size hlead.stop_boundary.le_size
  have hcode := Emission.generatedCode_documentPieces source
    (options.filename.elim [] Component.name) parsed.document
  rw [Emission.generatedCode_scriptPieces hfaithful, hbody] at hcode
  refine ⟨_, _, hlead.slice?_eq, hwrapped.slice?_eq, ?_⟩
  rw [convert_omitted hmode hparse hsize, componentCode, componentPieces, hcode]

/-- A script without a semicolon, a closing tag that closes nothing, and a start tag that is not
closed, with an attribute that JSX would not allow. -/
def malformed : Text := "---\nf\n---\n <p \x7b...a\x7d>b</i></p><q :d".toList

theorem convert_passes_malformed_through :
    ∃ parsed, Markup.parse malformed = .ok parsed ∧
      (componentCode malformed ⟨none, .omitted⟩ parsed.document).size ≤ Offset.limit ∧
      (∀ n ∈ Node.descendants parsed.document.nodes, n.isPlain = true) ∧
      convert malformed ⟨none, .omitted⟩ =
        .ok ⟨"\nf\n \"\";<Fragment>\n<p \x7b...a\x7d>b</i></p><q :d\n</Fragment>\n".toList ++
          Component.exportDeclaration [], none⟩ := by
  let p : StartTag := ⟨⟨11, 21⟩, ⟨⟨12, 13⟩, ['p']⟩, [.spread ⟨14, 20⟩ ⟨⟨18, 19⟩, ['a']⟩], .closed⟩
  let q : StartTag := ⟨⟨30, 35⟩, ⟨⟨31, 32⟩, ['q']⟩,
    [.normal ⟨33, 35⟩ ⟨⟨33, 35⟩, [':', 'd']⟩ .empty], .unclosed⟩
  let document : Document := ⟨⟨0, 35⟩, some ⟨⟨0, 10⟩, ⟨⟨3, 6⟩, ['\n', 'f', '\n']⟩⟩, ⟨10, 35⟩,
    [.text ⟨⟨10, 11⟩, [' ']⟩,
      .element ⟨⟨11, 30⟩, p, none, some ⟨26, 30⟩⟩ [.text ⟨⟨21, 22⟩, ['b']⟩],
      .element ⟨⟨30, 35⟩, q, none, none⟩ []]⟩
  have hparse : Markup.parse malformed = .ok ⟨document, [⟨.strayClosingTag ['i'], ⟨22, 26⟩⟩,
      ⟨.unclosedStartTag ['q'], ⟨30, 35⟩⟩]⟩ := by decide +kernel
  have hsize : (componentCode malformed ⟨none, .omitted⟩ document).size ≤ Offset.limit := by
    decide +kernel
  have hplain : ∀ n ∈ Node.descendants document.nodes, n.isPlain = true := by decide +kernel
  obtain ⟨lead, body, hlead, hbody, hconvert⟩ := convert_passes_through rfl hparse hsize hplain
  obtain rfl : [' '] = lead := Option.some.inj ((by decide +kernel : some _ = _).trans hlead)
  obtain rfl : "<p \x7b...a\x7d>b</i></p><q :d".toList = body :=
    Option.some.inj ((by decide +kernel : some _ = _).trans hbody)
  refine ⟨_, hparse, hsize, hplain, hconvert.trans ?_⟩
  decide +kernel

end TsxLowering
