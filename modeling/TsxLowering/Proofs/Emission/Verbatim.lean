import TsxLowering.Proofs.Emission.Overlay
import TsxLowering.Proofs.Spans

/-!
Derived text, and entries of the map that look like copies.

Derived text comes about in a few ways. Each of them makes a text longer or leaves it as it is,
but for one: a value in single quotes whose attribute moves is written in double quotes, and is
as long as before when nothing in it has to be escaped. So an entry of the map whose two spans
have one length is a copy or such a value. Main statements: `documentPieces_derivations`, which
lists the ways, and `convert_verbatim_iff`.
-/

namespace TsxLowering

open Markup (Attribute Document Element Enclosed Node StartTag)

variable {source : Text}

namespace Markup

/-- The value of an attribute that moves, if it is quoted. -/
def Attribute.movedValue? : Attribute → Option Enclosed
  | .normal _ name (.quoted value) =>
    if NameClass.ofName name.text = .needsSpread then some value else none
  | .normal .. | .spread .. | .shorthand .. => none

/-- The quoted values of the attributes of a node itself that move. -/
def Node.movedValues : Node → List Enclosed
  | .element e _ =>
    if e.startTag.ending = .unclosed then []
    else e.startTag.attributes.filterMap Attribute.movedValue?
  | .text _ | .expression _ | .comment .. | .doctype _ => []

def Document.movedValues (d : Document) : List Enclosed :=
  (Node.descendants d.nodes).flatMap Node.movedValues

end Markup

namespace Emission

/-! ### Rewriting makes longer -/

lemma escape_cases (c : Char) :
    JsonString.escape c = [c] ∨ c.utf8Size < Text.size (JsonString.escape c) := by
  unfold JsonString.escape
  split
  all_goals try exact .inr (by decide)
  split
  · right
    have hlength := Text.length_le_size
      ['\\', 'u', '0', '0', JsonString.hexDigit (c.toNat / 16), JsonString.hexDigit (c.toNat % 16)]
    exact Nat.lt_of_le_of_lt c.utf8Size_le_four (Nat.lt_of_lt_of_le (by simp) hlength)
  · exact .inl rfl

lemma size_enclosed {quote : Char} (h : quote.utf8Size = 1) (t : Text) :
    Text.size (quote :: t ++ [quote]) = t.size + 2 := by
  simp only [List.cons_append, Text.size_cons, Text.size_append, Text.size_nil, h]
  omega

lemma flatMap_escape_cases (s : Text) : s.flatMap JsonString.escape = s ∨
    s.size < Text.size (s.flatMap JsonString.escape) := by
  induction s with
  | nil => exact .inl rfl
  | cons c s ih =>
    rw [List.flatMap_cons, Text.size_append, Text.size_cons]
    rcases escape_cases c with hc | hc <;> rcases ih with hs | hs
    · exact .inl (by rw [hc, hs]; rfl)
    · exact .inr (by rw [hc]; simpa using hs)
    · exact .inr (by rw [hs]; omega)
    · exact .inr (by omega)

lemma encode_cases (s : Text) :
    JsonString.encode s = '"' :: s ++ ['"'] ∨ s.size + 2 < (JsonString.encode s).size := by
  have hsize : (JsonString.encode s).size = Text.size (s.flatMap JsonString.escape) + 2 :=
    size_enclosed rfl _
  rcases flatMap_escape_cases s with h | h
  · exact .inl (by rw [JsonString.encode, h])
  · exact .inr (by omega)

lemma size_lt_encode (s : Text) : s.size + 1 < (JsonString.encode s).size := by
  rcases encode_cases s with h | h
  · rw [h, size_enclosed rfl]
    omega
  · omega

lemma size_lt_jsxString (value : Text) : value.size < (jsxString value).size := by
  have hencode := size_lt_encode value
  unfold jsxString
  split
  · rw [size_enclosed rfl]
    omega
  · split
    · rw [size_enclosed rfl]
      omega
    · simp only [List.cons_append, Text.size_cons, Text.size_append]
      omega

lemma escapeTemplate_cases (s : Text) :
    escapeTemplate s = s ∨ s.size < (escapeTemplate s).size := by
  induction s with
  | nil => exact .inl rfl
  | cons c s ih =>
    have hpos := '\\'.utf8Size_pos
    unfold escapeTemplate
    rw [Text.size_cons]
    split
    · right
      rw [Text.size_cons, Text.size_cons]
      rcases ih with h | h
      · rw [h]
        omega
      · omega
    · rw [Text.size_cons]
      rcases ih with h | h
      · exact .inl (by rw [h])
      · exact .inr (by omega)

lemma escapeComment_cases (s : Text) :
    escapeComment s = s ∨ s.size < (escapeComment s).size := by
  fun_induction escapeComment s with
  | case1 s ih =>
    right
    have hpos := ' '.utf8Size_pos
    simp only [Text.size_cons]
    rcases ih with h | h
    · rw [h]
      omega
    · omega
  | case2 c s _ ih =>
    rcases ih with h | h
    · exact .inl (by rw [h])
    · exact .inr (by simpa using h)
  | case3 => exact .inl rfl

/-! ### The ways to derive a text -/

/-- A text that is derived from the source under a span, where `values` are the quoted values
whose attributes move. -/
inductive Derivation (source : Text) (values : List Enclosed) : Span → Text → Prop
  | string {e : Excerpt} (h : e.Faithful source) :
      Derivation source values e.span (JsonString.encode e.text)
  | jsxString {e : Excerpt} (h : e.Faithful source) :
      Derivation source values e.span (jsxString e.text)
  | quoted {v : Enclosed} {quote : Char} (mem : v ∈ values) (hquote : quote = '"' ∨ quote = '\'')
      (h : v.Within source quote quote) :
      Derivation source values v.span (JsonString.encode v.text)
  | openTemplate {v : Enclosed} (closed : v.closed = false) (h : v.Within source '`' '`') :
      Derivation source values v.span (JsonString.encode v.text)
  | comment {data : Excerpt} (h : data.Faithful source) :
      Derivation source values data.span (escapeComment data.text)
  | rawText {raw : Span} (h : raw.Fits source) :
      Derivation source values raw (escapeTemplate (raw.slice source))

/-- If the piece is derived, this is done in one of the known ways. -/
def Derived (source : Text) (values : List Enclosed) : Piece → Prop
  | .derived s t => Derivation source values s t
  | .copied _ | .clipped _ | .synthetic _ => True

variable {values : List Enclosed}

lemma entryValuePieces_derived {start stop : Nat} {value : Attribute.Value}
    (h : value.Faithful source start stop) (hdelimited : value.Delimited source)
    (hmoved : ∀ v, value = .quoted v → v ∈ values) :
    ∀ p ∈ entryValuePieces value, Derived source values p := by
  cases value with
  | empty => exact List.forall_mem_singleton.mpr trivial
  | quoted v =>
    obtain ⟨quote, hquote, hwithin⟩ := hdelimited
    exact List.forall_mem_singleton.mpr (.quoted (hmoved v rfl) hquote hwithin)
  | unquoted v => exact List.forall_mem_singleton.mpr (.string h.1)
  | expression v => simp [entryValuePieces, Derived, synthetic]
  | template v =>
    simp only [entryValuePieces]
    split
    · exact List.forall_mem_singleton.mpr trivial
    · next hclosed =>
      exact List.forall_mem_singleton.mpr (.openTemplate (by simpa using hclosed) hdelimited)

lemma normalPieces_derived {span : Span} {name : Excerpt} {value : Attribute.Value}
    (h : (Attribute.normal span name value).Faithful source) :
    ∀ p ∈ normalPieces span name value, Derived source values p := by
  cases value with
  | unquoted v =>
    have hvalue : v.Faithful source := h.2.2.2.1
    simp only [normalPieces, List.forall_mem_cons]
    exact ⟨trivial, .jsxString hvalue, by simp⟩
  | _ => simp [normalPieces, Derived, synthetic]

lemma placement_derived {a : Attribute} (h : a.Faithful source) (hdelimited : a.Delimited source)
    (hmoved : ∀ v, a.movedValue? = some v → v ∈ values) :
    ∀ p ∈ (placement a).pieces, Derived source values p := by
  cases a with
  | normal span name value =>
    simp only [placement]
    split
    · exact normalPieces_derived h
    · next hclass =>
      simp only [Placement.pieces, List.forall_mem_cons]
      refine ⟨.string h.1, trivial, entryValuePieces_derived h.2.2.2 hdelimited ?_⟩
      rintro v rfl
      exact hmoved v (by simp [Attribute.movedValue?, hclass])
  | spread span code => exact List.forall_mem_singleton.mpr trivial
  | shorthand span name =>
    simp only [placement]
    split
    · simp [Placement.pieces]
    · split <;> simp only [Placement.pieces, List.forall_mem_cons]
      · exact ⟨trivial, trivial, trivial, trivial, by simp⟩
      · exact ⟨.string h.2.1, trivial, trivial, trivial, by simp⟩

lemma commentPieces_derived {data : Excerpt} (h : data.Faithful source) :
    ∀ p ∈ commentPieces data, Derived source values p := by
  simp only [commentPieces, List.forall_mem_cons]
  refine ⟨trivial, ?_, trivial, by simp⟩
  split
  · exact .comment h
  · trivial

lemma rawTextPieces_derived {raw : Span} (h : raw.Fits source) :
    ∀ p ∈ rawTextPieces source raw, Derived source values p := by
  unfold rawTextPieces
  split
  · simp
  · simp only [List.forall_mem_cons]
    refine ⟨trivial, ?_, trivial, by simp⟩
    split
    · trivial
    · exact .rawText h

lemma meets_derived {n : Node} (h : n.Placed source) (hdelimited : n.Delimited source)
    (hmoved : n.movedValues ⊆ values) : Meets source (All (Derived source values)) n := by
  cases n with
  | text => trivial
  | expression => trivial
  | comment =>
    obtain ⟨⟨⟩ | ⟨⟩ | ⟨_, hdata⟩⟩ := h
    exact commentPieces_derived hdata
  | doctype => simp [Meets, All]
  | element e children =>
    intro hending
    refine ⟨forall_mem_startTagPieces (fun _ => trivial) (fun _ => trivial) (fun _ _ => trivial) ?_,
      fun raw hraw => rawTextPieces_derived (h.rawText_fits hraw), by simp [All]⟩
    intro a ha
    refine placement_derived (h.startTag.tail.inOrder.faithful a ha) (hdelimited a ha).1 ?_
    intro v hv
    refine hmoved ?_
    simp only [Node.movedValues, hending, if_false]
    exact List.mem_filterMap.mpr ⟨a, ha, hv⟩

/-- **All derived text of a document** comes about in one of the known ways. -/
theorem documentPieces_derivations {d : Document} {spans : List Span}
    (h : d.Faithful source spans)
    (hdelimited : ∀ n ∈ Node.descendants d.nodes, n.Delimited source) (name : Text) :
    ∀ p ∈ documentPieces source name d, Derived source d.movedValues p :=
  forall_mem_documentPieces h (fun _ _ => trivial)
    (by simp [framePieces, separator, wrapperOpen, wrapperClose, synthetic, Derived])
    fun n hn => meets_derived (h.body.placed n hn) (hdelimited n hn)
      fun _ hv => List.mem_flatMap.mpr ⟨n, hn, hv⟩

/-! ### Derived text as long as its source -/

/-- A value in single quotes is written in double quotes. -/
def Requoted (source : Text) (values : List Enclosed) (s : Span) (t : Text) : Prop :=
  ∃ v ∈ values, v.span = s ∧ s.slice source = '\'' :: v.text ++ ['\''] ∧
    t = '"' :: v.text ++ ['"']

lemma Derivation.fits {s : Span} {t : Text} (h : Derivation source values s t) :
    s.Fits source := by
  cases h with
  | string h => exact h.fits
  | jsxString h => exact h.fits
  | quoted _ _ h => exact ⟨_, h.written⟩
  | openTemplate _ h => exact ⟨_, h.written⟩
  | comment h => exact h.fits
  | rawText h => exact h

lemma size_lt_of_open {v : Enclosed} {opening closing : Char} (hopening : opening.utf8Size = 1)
    (hclosed : v.closed = false) (h : v.Within source opening closing) :
    v.span.stop - v.span.start < (JsonString.encode v.text).size := by
  have hwritten := h.written
  simp only [hclosed, Bool.false_eq_true, if_false, List.append_nil] at hwritten
  have hstop := Text.size_of_slice? hwritten
  have hlt := size_lt_encode v.text
  rw [Text.size_cons, hopening] at hstop
  omega

lemma quoted_eq_or_requoted {v : Enclosed} {quote : Char} (mem : v ∈ values)
    (hquote : quote = '"' ∨ quote = '\'') (h : v.Within source quote quote)
    (hsize : (JsonString.encode v.text).size = v.span.stop - v.span.start) :
    JsonString.encode v.text = v.span.slice source ∨
      Requoted source values v.span (JsonString.encode v.text) := by
  have hone : quote.utf8Size = 1 := by rcases hquote with rfl | rfl <;> rfl
  cases hclosed : v.closed with
  | false =>
    have := size_lt_of_open hone hclosed h
    omega
  | true =>
    have hwritten := h.written
    simp only [hclosed, if_true] at hwritten
    have hslice : v.span.slice source = quote :: v.text ++ [quote] := by
      rw [Span.slice, hwritten]
      rfl
    have hstop := Text.size_of_slice? hwritten
    rw [size_enclosed hone] at hstop
    -- a JSON string has double quotes, and is longer if anything is escaped
    rcases encode_cases v.text with hencode | hlonger
    · rcases hquote with rfl | rfl
      · exact .inl (hencode.trans hslice.symm)
      · exact .inr ⟨v, mem, rfl, hslice, hencode⟩
    · omega

/-- **Derived text is as long as its source** only if it is the source, or the quotes alone are
others. -/
theorem Derivation.size_eq_iff {s : Span} {t : Text} (h : Derivation source values s t) :
    t.size = s.stop - s.start ↔ t = s.slice source ∨ Requoted source values s t := by
  have hslice := h.fits.size_slice
  -- all other ways to derive a text make it longer than its source
  constructor
  · intro hsize
    cases h with
    | @string e h =>
      have hlt := size_lt_encode e.text
      rw [h.slice_eq] at hslice
      omega
    | @jsxString e h =>
      have hlt := size_lt_jsxString e.text
      rw [h.slice_eq] at hslice
      omega
    | quoted mem hquote h => exact quoted_eq_or_requoted mem hquote h hsize
    | openTemplate closed h =>
      have := size_lt_of_open rfl closed h
      omega
    | @comment data h =>
      rw [h.slice_eq] at hslice ⊢
      rcases escapeComment_cases data.text with heq | hlt
      · exact .inl heq
      · omega
    | @rawText h =>
      rcases escapeTemplate_cases (s.slice source) with heq | hlt
      · exact .inl heq
      · omega
  · rintro (rfl | ⟨v, -, -, hsource, rfl⟩)
    · exact hslice
    · rw [hsource, size_enclosed rfl] at hslice
      rw [size_enclosed rfl, hslice]

end Emission

/-! ### Entries of the map -/

lemma pieceMap_verbatim_iff {pieces : List Piece} {values : List Enclosed}
    (hfits : ∀ p ∈ pieces, p.Fits source)
    (hderived : ∀ p ∈ pieces, Emission.Derived source values p) :
    ∀ e ∈ (pieceMap source pieces).mappings.toList, e.isVerbatim = .ok true ↔
      e.generated.slice (generatedCode source pieces) = e.source.slice source ∨
        Emission.Requoted source values e.source
          (e.generated.slice (generatedCode source pieces)) := by
  intro e he
  obtain ⟨before, p, after, rfl, hentry, hslice⟩ := exists_of_mem_pieceMap he
  have hp := hfits p (by simp)
  obtain ⟨-, horigin, hgenerated⟩ := Piece.mapping?_eq_some_iff.mp hentry
  rw [hp.origin?_eq] at horigin
  have hsource := hp.span_fits horigin
  have hlength : e.isVerbatim = .ok true ↔
      (p.text source).size = e.source.stop - e.source.start := by
    have hle : e.generated.start ≤ e.generated.stop := by
      rw [hgenerated]
      exact Nat.le_add_right _ _
    rw [Mapping.isVerbatim_eq hle hsource.start_le, hgenerated, Nat.add_sub_cancel_left]
    simp
  have hcode : e.generated.slice (generatedCode source (before ++ p :: after)) = p.text source := by
    rw [Span.slice, hslice, Option.getD_some]
  rw [hlength, hcode]
  -- a copy is one, and derived text of the same length is known
  have hcopy (hcopied : p.text source = e.source.slice source) :
      (p.text source).size = e.source.stop - e.source.start ↔
        p.text source = e.source.slice source ∨
          Emission.Requoted source values e.source (p.text source) := by
    have := hsource.size_slice
    rw [← hcopied] at this
    exact ⟨fun _ => .inl hcopied, fun _ => this⟩
  cases p with
  | copied s => exact hcopy (by rw [← Option.some.inj horigin]; rfl)
  | clipped s => exact hcopy (by rw [← Option.some.inj horigin]; rfl)
  | derived s t =>
    cases horigin
    have hderivation : Emission.Derivation source values e.source t :=
      hderived (.derived e.source t) (by simp)
    exact hderivation.size_eq_iff
  | synthetic => cases horigin

variable {options : Options} {parsed : Markup.Parsed}

/-- **Entries with two spans of one length are copies**, but for a value in single quotes that moves
and has nothing to escape: in the code it stands in double quotes. -/
theorem convert_verbatim_iff (hmode : options.mapMode = .external)
    (hparse : Markup.parse source = .ok parsed)
    (hsize : (componentCode source options parsed.document).size ≤ Offset.limit) :
    ∃ map encoded,
      convert source options =
        .ok ⟨componentCode source options parsed.document, some ⟨map, encoded⟩⟩ ∧
      ∀ m ∈ map.mappings.toList, m.isVerbatim = .ok true ↔
        m.generated.slice (componentCode source options parsed.document) =
            m.source.slice source ∨
          ∃ v ∈ parsed.document.movedValues, v.span = m.source ∧
            m.source.slice source = '\'' :: v.text ++ ['\''] ∧
            m.generated.slice (componentCode source options parsed.document) =
              '"' :: v.text ++ ['"'] := by
  obtain ⟨encoded, hconvert⟩ := convert_external hmode hparse hsize
  have hderived := Emission.documentPieces_derivations (Markup.parse_faithful hparse)
    (Markup.parse_delimited hparse)
  exact ⟨_, encoded, hconvert,
    pieceMap_verbatim_iff (componentPieces_fits hparse options) (hderived _)⟩

/-- A value in single quotes whose attribute moves, behind one that stays in its place. -/
def requotedValue : Text := "<a b='c' @d='e'/>".toList

theorem convert_verbatim_iff_requotedValue :
    ∃ parsed, Markup.parse requotedValue = .ok parsed ∧
      (componentCode requotedValue ⟨none, .external⟩ parsed.document).size ≤ Offset.limit ∧
      parsed.document.movedValues = [⟨⟨12, 15⟩, ['e'], true⟩] ∧
      ∃ map encoded, convert requotedValue ⟨none, .external⟩ =
          .ok ⟨componentCode requotedValue ⟨none, .external⟩ parsed.document,
            some ⟨map, encoded⟩⟩ ∧
        ∀ m ∈ map.mappings.toList, m.isVerbatim = .ok true ↔
          m.generated.slice (componentCode requotedValue ⟨none, .external⟩ parsed.document) =
              m.source.slice requotedValue ∨
            ∃ v ∈ parsed.document.movedValues, v.span = m.source ∧
              m.source.slice requotedValue = '\'' :: v.text ++ ['\''] ∧
              m.generated.slice (componentCode requotedValue ⟨none, .external⟩ parsed.document) =
                '"' :: v.text ++ ['"'] := by
  let tag : StartTag := ⟨⟨0, 17⟩, ⟨⟨1, 2⟩, ['a']⟩,
    [.normal ⟨3, 8⟩ ⟨⟨3, 4⟩, ['b']⟩ (.quoted ⟨⟨5, 8⟩, ['c'], true⟩),
      .normal ⟨9, 15⟩ ⟨⟨9, 11⟩, ['@', 'd']⟩ (.quoted ⟨⟨12, 15⟩, ['e'], true⟩)], .selfClosing⟩
  let document : Document := ⟨⟨0, 17⟩, none, ⟨0, 17⟩,
    [.element ⟨⟨0, 17⟩, tag, none, none⟩ []]⟩
  have hparse : Markup.parse requotedValue = .ok ⟨document, []⟩ := by decide +kernel
  have hsize : (componentCode requotedValue ⟨none, .external⟩ document).size ≤ Offset.limit := by
    decide +kernel
  exact ⟨_, hparse, hsize, by decide +kernel, convert_verbatim_iff rfl hparse hsize⟩

/-- Not every entry whose two spans have one length is a copy. -/
theorem convert_verbatim_not_copy :
    ∃ code map encoded,
      convert "<a @b='c'/>".toList ⟨none, .external⟩ = .ok ⟨code, some ⟨map, encoded⟩⟩ ∧
      ∃ m ∈ map.mappings.toList, m.isVerbatim = .ok true ∧
        m.generated.slice code = ['"', 'c', '"'] ∧
        m.source.slice "<a @b='c'/>".toList = ['\'', 'c', '\''] := by
  let code : Text := ("<Fragment>\n<a \x7b...\x7b\"@b\":\"c\"\x7d\x7d/>\n</Fragment>\n" ++
    "export default function __AstroComponent_(_props: Record<string, any>): any \x7b\x7d").toList
  let map : SourceMap := ⟨#[⟨⟨11, 13⟩, ⟨0, 2⟩⟩, ⟨⟨19, 23⟩, ⟨3, 5⟩⟩, ⟨⟨24, 27⟩, ⟨6, 9⟩⟩,
    ⟨⟨29, 31⟩, ⟨9, 11⟩⟩]⟩
  let encoded : EncodedMap := ⟨"<stdin>".toList, "<a @b='c'/>".toList,
    [⟨⟨1, 0⟩, ⟨0, 0⟩⟩, ⟨⟨1, 8⟩, ⟨0, 3⟩⟩, ⟨⟨1, 13⟩, ⟨0, 6⟩⟩, ⟨⟨1, 18⟩, ⟨0, 9⟩⟩]⟩
  have hconvert : convert "<a @b='c'/>".toList ⟨none, .external⟩ =
      .ok ⟨code, some ⟨map, encoded⟩⟩ := by decide +kernel
  exact ⟨code, map, encoded, hconvert, ⟨⟨24, 27⟩, ⟨6, 9⟩⟩, by simp [map], by decide +kernel,
    by decide +kernel, by decide +kernel⟩

end TsxLowering
