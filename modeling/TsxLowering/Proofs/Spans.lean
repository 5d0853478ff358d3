import TsxLowering.Proofs.Faithful.Reports

/-!
Spans and stored texts agree.

All spans that a parse gives back, those of its reports included, lie in the source between
characters, and all texts that it stores are the source under the spans stored with them.
-/

namespace TsxLowering.Markup

variable {source : Text}

/-! ### All spans and all texts of a parse -/

/-- The text between the delimiters, with its place. -/
def Enclosed.inner (e : Enclosed) : Excerpt := ⟨e.innerSpan, e.text⟩

namespace Attribute

def Value.spans : Value → List Span
  | .empty => []
  | .unquoted v => [v.span]
  | .quoted v | .template v | .expression v => [v.span, v.innerSpan]

def Value.excerpts : Value → List Excerpt
  | .empty => []
  | .unquoted v => [v]
  | .quoted v | .template v | .expression v => [v.inner]

def spans : Attribute → List Span
  | .normal span name value => span :: name.span :: value.spans
  | .spread span part | .shorthand span part => [span, part.span]

def excerpts : Attribute → List Excerpt
  | .normal _ name value => name :: value.excerpts
  | .spread _ part | .shorthand _ part => [part]

/-- An attribute begins with its name and ends with its value, if it has one. -/
def Bounded : Attribute → Prop
  | .normal span name value =>
    span.start = name.span.start ∧ span.stop = value.span?.elim name.span.stop Span.stop
  | .spread .. | .shorthand .. => True

end Attribute

def Element.spans (e : Element) : List Span :=
  e.span :: e.startTag.span :: e.startTag.name.span ::
    (e.rawText.toList ++ e.endTag.toList ++ e.startTag.attributes.flatMap Attribute.spans)

namespace Node

/-- The spans of a node itself, not of the nodes inside. -/
def spans : Node → List Span
  | .element e _ => e.spans
  | .text t => [t.span]
  | .expression e => [e.span, e.innerSpan]
  | .comment span data => [span, data.span]
  | .doctype span => [span]

/-- The texts that a node itself stores. -/
def excerpts : Node → List Excerpt
  | .element e _ => e.startTag.name :: e.startTag.attributes.flatMap Attribute.excerpts
  | .text t => [t]
  | .expression e => [e.inner]
  | .comment _ data => [data]
  | .doctype _ => []

/-- All in the node itself that stands between delimiters has them, and its attributes are
written from their names to their values. -/
def Delimited (source : Text) : Node → Prop
  | .element e _ => ∀ a ∈ e.startTag.attributes, a.Delimited source ∧ a.Bounded
  | .expression e => e.Within source '\x7b' '\x7d'
  | .text _ | .comment .. | .doctype _ => True

end Node

def Frontmatter.spans (f : Frontmatter) : List Span := [f.span, f.content.span]

namespace Parsed

def spans (p : Parsed) : List Span :=
  p.document.span :: p.document.bodySpan ::
    (p.document.frontmatter.toList.flatMap Frontmatter.spans ++
      (Node.descendants p.document.nodes).flatMap Node.spans ++ p.diagnostics.map Diagnostic.span)

def excerpts (p : Parsed) : List Excerpt :=
  p.document.frontmatter.toList.map Frontmatter.content ++
    (Node.descendants p.document.nodes).flatMap Node.excerpts

/-- What a parse says about the source is there. -/
structure Grounded (source : Text) (p : Parsed) : Prop where
  spans : ∀ s ∈ p.spans, s.start ≤ s.stop ∧ s.stop ≤ source.size ∧
    source.Boundary s.start ∧ source.Boundary s.stop
  texts : ∀ e ∈ p.excerpts, source.slice? e.span.start e.span.stop = some e.text
  delimiters : ∀ n ∈ Node.descendants p.document.nodes, n.Delimited source

end Parsed

/-! ### Attributes -/

namespace Attribute

lemma Value.Faithful.spans_fit {start stop : Nat} {v : Value} (h : v.Faithful source start stop) :
    ∀ s ∈ v.spans, s.Fits source := by
  cases v with
  | empty => simp [Value.spans]
  | unquoted v => exact List.forall_mem_singleton.mpr h.1.fits
  | _ v => exact List.forall_mem_cons.mpr ⟨h.1.fits, List.forall_mem_singleton.mpr h.1.inner_fits⟩

lemma Value.Faithful.excerpts_faithful {start stop : Nat} {v : Value}
    (h : v.Faithful source start stop) : ∀ e ∈ v.excerpts, e.Faithful source := by
  cases v with
  | empty => simp [Value.excerpts]
  | unquoted v => exact List.forall_mem_singleton.mpr h.1
  | _ v => exact List.forall_mem_singleton.mpr h.1.text

variable {a : Attribute}

lemma Faithful.spans_fit (h : a.Faithful source) : ∀ s ∈ a.spans, s.Fits source := by
  have hspan := h.fits
  cases a with
  | normal span name value =>
    obtain ⟨hname, -, -, hvalue⟩ := h
    exact List.forall_mem_cons.mpr
      ⟨hspan, List.forall_mem_cons.mpr ⟨hname.fits, hvalue.spans_fit⟩⟩
  | _ span part =>
    exact List.forall_mem_cons.mpr ⟨hspan, List.forall_mem_singleton.mpr h.2.1.fits⟩

lemma Faithful.excerpts_faithful (h : a.Faithful source) :
    ∀ e ∈ a.excerpts, e.Faithful source := by
  cases a with
  | normal span name value =>
    obtain ⟨hname, -, -, hvalue⟩ := h
    exact List.forall_mem_cons.mpr ⟨hname, hvalue.excerpts_faithful⟩
  | _ span part => exact List.forall_mem_singleton.mpr h.2.1

lemma Faithful.bounded (h : a.Faithful source) : a.Bounded := by
  cases a with
  | normal span name value =>
    obtain ⟨-, hstart, -, hvalue⟩ := h
    refine ⟨hstart.symm, ?_⟩
    cases value with
    | empty => exact hvalue.symm
    | unquoted v => exact hvalue.2.2.symm
    | _ v => exact hvalue.2.2.symm
  | _ => trivial

end Attribute

/-! ### Nodes -/

namespace Node

lemma Placed.faithful {e : Element} {children : List Node}
    (h : (Node.element e children).Placed source) : e.Faithful source := by
  rcases h with h | h
  · cases h with
    | unclosed h => exact h
    | childless h => exact h
    | rawText h => exact h
  · exact h

lemma Placed.spans_fit {n : Node} (h : n.Placed source) : ∀ s ∈ n.spans, s.Fits source := by
  cases n with
  | text t =>
    obtain ⟨⟨h⟩⟩ := h
    exact List.forall_mem_singleton.mpr h.fits
  | expression e =>
    obtain ⟨⟨⟩ | ⟨h⟩⟩ := h
    exact List.forall_mem_cons.mpr ⟨h.fits, List.forall_mem_singleton.mpr h.inner_fits⟩
  | comment span data =>
    obtain ⟨⟨⟩ | ⟨⟩ | ⟨hspan, hdata⟩⟩ := h
    exact List.forall_mem_cons.mpr ⟨hspan, List.forall_mem_singleton.mpr hdata.fits⟩
  | doctype span =>
    obtain ⟨⟨⟩ | ⟨⟩ | ⟨⟩ | ⟨hspan⟩⟩ := h
    exact List.forall_mem_singleton.mpr hspan
  | element e children =>
    have he := h.faithful
    intro s hs
    simp only [spans, Element.spans, List.mem_cons, List.mem_append, Option.mem_toList,
      List.mem_flatMap] at hs
    rcases hs with rfl | rfl | rfl | (hraw | hend) | ⟨a, ha, hs⟩
    · exact he.fits
    · exact he.startTag.fits
    · exact he.startTag.name.fits
    · exact h.rawText_fits hraw
    · exact (he.endTag s hend).1
    · exact (he.startTag.tail.inOrder.faithful a ha).spans_fit s hs

lemma Placed.excerpts_faithful {n : Node} (h : n.Placed source) :
    ∀ e ∈ n.excerpts, e.Faithful source := by
  cases n with
  | text t =>
    obtain ⟨⟨h⟩⟩ := h
    exact List.forall_mem_singleton.mpr h
  | expression e =>
    obtain ⟨⟨⟩ | ⟨h⟩⟩ := h
    exact List.forall_mem_singleton.mpr h.text
  | comment span data =>
    obtain ⟨⟨⟩ | ⟨⟩ | ⟨-, hdata⟩⟩ := h
    exact List.forall_mem_singleton.mpr hdata
  | doctype span => simp [excerpts]
  | element e children =>
    have htag := h.startTag
    refine List.forall_mem_cons.mpr ⟨htag.name, fun x hx => ?_⟩
    obtain ⟨a, ha, hx⟩ := List.mem_flatMap.mp hx
    exact (htag.tail.inOrder.faithful a ha).excerpts_faithful x hx

end Node

/-! ### What the events give -/

lemma StartTag.Faithful.delimited {t : StartTag} (h : t.Faithful source)
    (hdelimited : t.Delimited source) :
    ∀ a ∈ t.attributes, a.Delimited source ∧ a.Bounded :=
  fun a ha => ⟨hdelimited a ha, (h.tail.inOrder.faithful a ha).bounded⟩

lemma Event.Sound.leaf_delimited {n : Node} {ds : List Diagnostic}
    (h : Event.Sound source (.leaf n) ds) : n.Delimited source := by
  obtain ⟨⟨hleaf⟩, -, hcomes⟩ := h
  have htag := Node.Placed.leaf hleaf
  cases hcomes with
  | text => trivial
  | expression within => exact within
  | comment => trivial
  | openComment => trivial
  | doctype => trivial
  | startTag delimited _ becomes => cases becomes <;> exact htag.startTag.delimited delimited

lemma Event.Sound.opening_delimited {tag : StartTag} {ds : List Diagnostic}
    (h : Event.Sound source (.opening tag) ds) :
    ∀ a ∈ tag.attributes, a.Delimited source ∧ a.Bounded := by
  obtain ⟨_ | ⟨htag, -⟩, -, hcomes⟩ := h
  obtain - | - | - | - | - | - | ⟨delimited, -, becomes⟩ := hcomes
  cases becomes
  exact htag.delimited delimited

lemma yields_delimited : Nesting.Yields (Event.Sound source) (Node.Delimited source) where
  leaf := by
    intro node ds event
    rw [event.descendants_leaf]
    exact List.forall_mem_singleton.mpr event.leaf_delimited
  unclosed event := event.opening_delimited
  closed event _ _ := event.opening_delimited

lemma StartTag.unclosedReport_fits {t : StartTag} (h : t.span.Fits source) :
    ∀ d ∈ t.unclosedReport, d.span.Fits source := by
  unfold unclosedReport
  split
  · exact List.forall_mem_singleton.mpr h
  · simp

lemma StartTag.Becomes.reports_fit {t : StartTag} {e : Event} {ds : List Diagnostic}
    (h : t.Becomes source e ds) (hfits : t.span.Fits source) : ∀ d ∈ ds, d.span.Fits source := by
  cases h with
  | openRawText => exact List.forall_mem_singleton.mpr hfits
  | _ => simp

lemma StartTag.Becomes.faithful {t : StartTag} {e : Event} {ds : List Diagnostic}
    (h : t.Becomes source e ds) (he : e.Faithful source) : t.Faithful source := by
  cases he with
  | leaf hleaf => cases h <;> exact (Node.Placed.leaf hleaf).startTag
  | opening htag => cases h; exact htag
  | closing => cases h

lemma Event.Sound.reports_fit {e : Event} {ds : List Diagnostic} (h : Event.Sound source e ds) :
    ∀ d ∈ ds, d.span.Fits source := by
  obtain ⟨hfaithful, hspan, hcomes⟩ := h
  cases hcomes with
  | expression _ reports => exact fun d hd => (reports d hd).fits
  | openComment => exact List.forall_mem_singleton.mpr hspan
  | startTag _ reports becomes =>
    have htag := (becomes.faithful hfaithful).fits
    refine List.forall_mem_append.mpr ⟨List.forall_mem_append.mpr ⟨?_, ?_⟩, ?_⟩
    · exact fun d hd => (reports d hd).fits
    · exact StartTag.unclosedReport_fits htag
    · exact becomes.reports_fit htag
  | _ => simp

lemma warns_fits : Nesting.Warns (Event.Sound source) (·.span.Fits source) where
  event event := event.reports_fit
  stray event := event.fits
  mismatched event := event.fits
  unclosed event := event.fits

/-! ### The document -/

lemma Frontmatter.reports_fit (source : Text) :
    ∀ d ∈ (Frontmatter.read source).diagnostics, d.span.Fits source := by
  have hfence := (Cursor.In.ofText source).reaches (Cursor.reaches_skipWhile _ isBlank)
  unfold read
  dsimp only
  split
  · split
    · split
      · simp
      · exact List.forall_mem_singleton.mpr (hfence.fits_spanTo (Cursor.reaches_advance _ 3))
    · simp
  · simp

lemma Frontmatter.Faithful.spans_fit {f : Frontmatter} (h : f.Faithful source) :
    ∀ s ∈ f.spans, s.Fits source :=
  List.forall_mem_cons.mpr ⟨h.fits, List.forall_mem_singleton.mpr h.content.fits⟩

lemma parse_span {p : Parsed} (h : parse source = .ok p) :
    p.document.span = ⟨0, source.size⟩ := by
  simp only [parse, parse_eq_ok h, if_true] at h
  cases h
  rfl

lemma parse_spans_fit {p : Parsed} (h : parse source = .ok p) :
    ∀ s ∈ p.spans, s.Fits source := by
  obtain ⟨hfrontmatter, hstart, hstop, hbody⟩ := parse_faithful h
  obtain ⟨n, -, hbuilt, -, hdiagnostics⟩ := parse_built_sound h
  have hend : source.Boundary p.document.bodySpan.stop := hstop ▸ source.boundary_size
  intro s hs
  simp only [Parsed.spans, List.mem_cons, List.mem_append, List.mem_flatMap, Option.mem_toList,
    List.mem_map] at hs
  rcases hs with rfl | rfl | (⟨f, hf, hs⟩ | ⟨m, hm, hs⟩) | ⟨d, hd, rfl⟩
  · rw [parse_span h]
    exact Span.fits_of_boundary (Cursor.In.ofText source).boundary source.boundary_size
      (Nat.zero_le _)
  · exact Span.fits_of_boundary hstart hend hbody.le
  · exact (hfrontmatter f hf).spans_fit s hs
  · exact (hbody.placed m hm).spans_fit s hs
  · rw [hdiagnostics, List.mem_append, List.mem_reverse] at hd
    rcases hd with hd | hd
    · exact Frontmatter.reports_fit source d hd
    · exact hbuilt.forall_diagnostics warns_fits d hd

lemma parse_excerpts_faithful {p : Parsed} (h : parse source = .ok p) :
    ∀ e ∈ p.excerpts, e.Faithful source := by
  obtain ⟨hfrontmatter, -, -, hbody⟩ := parse_faithful h
  intro e he
  simp only [Parsed.excerpts, List.mem_append, List.mem_map, List.mem_flatMap,
    Option.mem_toList] at he
  rcases he with ⟨f, hf, rfl⟩ | ⟨m, hm, he⟩
  · exact (hfrontmatter f hf).content
  · exact (hbody.placed m hm).excerpts_faithful e he

lemma parse_delimited {p : Parsed} (h : parse source = .ok p) :
    ∀ n ∈ Node.descendants p.document.nodes, n.Delimited source :=
  parse_forall_descendants yields_delimited h

/-- **Spans and stored texts agree** with the source, whatever is malformed in it. -/
theorem parse_grounded (h : source.size ≤ Offset.limit) :
    ∃ p, parse source = .ok p ∧ p.Grounded source := by
  obtain ⟨p, hp⟩ := exists_parse_eq_ok h
  refine ⟨p, hp, fun s hs => ?_, parse_excerpts_faithful hp, parse_delimited hp⟩
  have hfits := parse_spans_fit hp s hs
  exact ⟨hfits.start_le, hfits.stop_boundary.le_size, hfits.start_boundary, hfits.stop_boundary⟩

/-- Blanks of three bytes around a name, a backslash before a character of two, a value with no
closing quote, and code with no closing brace. -/
def wideCharacters : Text := "<p \x7b\u2003é\u2003\x7d>\x7b\"\\é\"\x7d<q r='é\x7bs".toList

theorem parse_grounded_wideCharacters :
    wideCharacters.size ≤ Offset.limit ∧
      ∃ p, parse wideCharacters = .ok p ∧ p.Grounded wideCharacters ∧
        p.excerpts.map Excerpt.text =
          ["p", "é", "\"\\é\"", "q", "r", "é\x7bs"].map String.toList := by
  refine ⟨by decide, ?_⟩
  obtain ⟨p, hp, hgrounded⟩ : ∃ p, parse wideCharacters = .ok p ∧ p.Grounded wideCharacters :=
    parse_grounded (by decide)
  have htexts : (parse wideCharacters).toOption.map (·.excerpts.map Excerpt.text) =
      some (["p", "é", "\"\\é\"", "q", "r", "é\x7bs"].map String.toList) := by decide +kernel
  rw [hp] at htexts
  exact ⟨p, hp, hgrounded, Option.some.inj htexts⟩

end TsxLowering.Markup
