import TsxLowering.Convert
import TsxLowering.Proofs.Emission.Layout
import TsxLowering.Proofs.PieceMap
import TsxLowering.Proofs.Segments

/-!
The pieces of a document fit the source it was read from.

Every span in a piece lies in the source, between characters, and no piece that stands for a
span is made of nothing. Over another source the spans may lie anywhere, but they can still be
stored. So no offset overflows on the way to the code, and a conversion fails only where the
code itself is too large.
-/

namespace TsxLowering.Emission

open Markup (Attribute Document Element Node StartTag)

variable {source : Text}

/-! ### Derived texts -/

lemma jsxString_ne_nil (value : Text) : jsxString value ≠ [] := by
  unfold jsxString
  split
  · simp
  · split <;> simp

lemma encode_ne_nil (s : Text) : JsonString.encode s ≠ [] := by simp [JsonString.encode]

lemma escapeTemplate_ne_nil {s : Text} (h : s ≠ []) : escapeTemplate s ≠ [] := by
  cases s with
  | nil => exact absurd rfl h
  | cons c s =>
    unfold escapeTemplate
    split <;> simp

lemma escapeComment_ne_nil {s : Text} (h : s ≠ []) : escapeComment s ≠ [] := by
  fun_cases escapeComment s <;> simp_all

/-! ### Attributes -/

/-- The pieces of an attribute, wherever they are put. -/
def Placement.pieces : Placement → List Piece
  | .dropped => []
  | .inPlace pieces | .entry pieces => pieces

lemma fits_synthetic (text : String) : (synthetic text).Fits source := trivial

lemma fits_keyPiece {name : Excerpt} (h : name.Faithful source) : (keyPiece name).Fits source :=
  ⟨h.fits, encode_ne_nil _⟩

lemma normalPieces_fits {span : Span} {name : Excerpt} {value : Attribute.Value}
    (h : (Attribute.normal span name value).Faithful source) :
    ∀ p ∈ normalPieces span name value, p.Fits source := by
  have hspan : span.Fits source := h.fits
  obtain ⟨hname, hstart, hlt, hvalue⟩ := h
  -- the part of the attribute before its value
  have hleft {s : Span} (hs : s.Fits source) (hle : name.span.stop ≤ s.start) :
      Span.Fits ⟨span.start, s.start⟩ source :=
    Span.fits_of_boundary hspan.start_boundary hs.start_boundary (by omega)
  cases value with
  | empty => exact List.forall_mem_singleton.mpr hname.fits
  | quoted v => exact List.forall_mem_singleton.mpr hspan
  | expression v => exact List.forall_mem_singleton.mpr hspan
  | unquoted v =>
    obtain ⟨hv, hle, -⟩ := hvalue
    simp only [normalPieces, List.forall_mem_cons]
    exact ⟨hleft hv.fits hle, ⟨hv.fits, jsxString_ne_nil _⟩, by simp⟩
  | template v =>
    obtain ⟨hv, hle, -⟩ := hvalue
    simp only [normalPieces, List.forall_mem_cons]
    exact ⟨hleft hv.fits hle, fits_synthetic _, hv.fits, fits_synthetic _, by simp⟩

lemma entryValuePieces_fits {start stop : Nat} {value : Attribute.Value}
    (h : value.Faithful source start stop) : ∀ p ∈ entryValuePieces value, p.Fits source := by
  cases value with
  | empty => exact List.forall_mem_singleton.mpr (fits_synthetic _)
  | quoted v => exact List.forall_mem_singleton.mpr ⟨h.1.fits, encode_ne_nil _⟩
  | unquoted v => exact List.forall_mem_singleton.mpr ⟨h.1.fits, encode_ne_nil _⟩
  | expression v =>
    simp only [entryValuePieces, List.forall_mem_cons]
    exact ⟨fits_synthetic _, h.1.inner_fits, fits_synthetic _, by simp⟩
  | template v =>
    simp only [entryValuePieces]
    split
    · exact List.forall_mem_singleton.mpr h.1.fits
    · exact List.forall_mem_singleton.mpr ⟨h.1.fits, encode_ne_nil _⟩

lemma placement_fits {a : Attribute} (h : a.Faithful source) :
    ∀ p ∈ (placement a).pieces, p.Fits source := by
  cases a with
  | normal span name value =>
    simp only [placement]
    split
    · exact normalPieces_fits h
    · simp only [Placement.pieces, List.forall_mem_cons]
      exact ⟨fits_keyPiece h.1, fits_synthetic _, entryValuePieces_fits h.2.2.2⟩
  | spread span code => exact List.forall_mem_singleton.mpr h.1
  | shorthand span name =>
    have hname := h.2.1
    simp only [placement]
    split
    · simp [Placement.pieces]
    · split <;> simp only [Placement.pieces, List.forall_mem_cons]
      · exact ⟨hname.fits, fits_synthetic _, hname.fits, fits_synthetic _, by simp⟩
      · exact ⟨fits_keyPiece hname, fits_synthetic _, hname.fits, fits_synthetic _, by simp⟩

lemma inPlacePieces_fits {start stop : Nat} {attributes : List Attribute}
    (h : Attribute.InOrder source start attributes stop) (hstart : source.Boundary start) :
    ∀ p ∈ inPlacePieces start attributes, p.Fits source := by
  induction attributes generalizing start with
  | nil => simp [inPlacePieces]
  | cons a rest ih =>
    obtain ⟨hle, ha, hrest⟩ := h
    intro p hp
    rcases List.mem_append.mp hp with hp | hp
    · split at hp
      · next pieces hplace =>
        rcases List.mem_cons.mp hp with rfl | hp
        · exact Span.fits_of_boundary hstart ha.fits.start_boundary hle
        · exact placement_fits ha p (by rwa [hplace])
      · cases hp
    · exact ih hrest ha.fits.stop_boundary p hp

lemma mem_intersperse_iff {α : Type} {sep x : α} {xs : List α} :
    x ∈ xs.intersperse sep ↔ x ∈ xs ∨ x = sep ∧ 2 ≤ xs.length := by
  fun_induction List.intersperse sep xs with
  | case1 => simp
  | case2 => simp
  | case3 y ys hne ih =>
    have hpos := List.length_pos_iff.mpr hne
    have hlength : 2 ≤ (y :: ys).length := by simp only [List.length_cons]; omega
    simp only [List.mem_cons, ih, hlength, and_true]
    tauto

lemma mem_spreadPieces {p : Piece} {attributes : List Attribute}
    (h : p ∈ spreadPieces attributes) :
    (∃ t ∈ [" \x7b...\x7b", ",", "\x7d\x7d"], p = synthetic t) ∨
      ∃ a ∈ attributes, p ∈ (placement a).pieces := by
  unfold spreadPieces at h
  split at h
  · cases h
  · rcases List.mem_append.mp h with h | h
    · rcases List.mem_cons.mp h with rfl | h
      · exact .inl ⟨_, by simp, rfl⟩
      obtain ⟨pieces, hpieces, hp⟩ := List.mem_flatten.mp h
      rcases mem_intersperse_iff.mp hpieces with hentry | ⟨rfl, -⟩
      · obtain ⟨a, ha, hplace⟩ := List.mem_filterMap.mp hentry
        split at hplace <;> cases hplace
        next hplace => exact .inr ⟨a, ha, by rwa [hplace]⟩
      · exact .inl ⟨_, by simp, List.mem_singleton.mp hp⟩
    · exact .inl ⟨_, by simp, List.mem_singleton.mp h⟩

lemma mem_inPlacePieces {p : Piece} {cursor : Nat} {attributes : List Attribute}
    (h : p ∈ inPlacePieces cursor attributes) :
    (∃ s, p = .copied s) ∨ ∃ a ∈ attributes, p ∈ (placement a).pieces := by
  induction attributes generalizing cursor with
  | nil => cases h
  | cons a rest ih =>
    rcases List.mem_append.mp h with h | h
    · split at h
      · next pieces hplace =>
        rcases List.mem_cons.mp h with rfl | h
        · exact .inl ⟨_, rfl⟩
        · exact .inr ⟨a, by simp, by rwa [hplace]⟩
      · cases h
    · rcases ih h with hcopied | ⟨b, hb, hp⟩
      · exact .inl hcopied
      · exact .inr ⟨b, by simp [hb], hp⟩

/-- The punctuation of a start tag, where its attributes are changed or it has to close itself. -/
def tagPunctuation : List String := [" \x7b...\x7b", ",", "\x7d\x7d", "/>"]

lemma forall_mem_startTagPieces {t : StartTag} {Q : Piece → Prop}
    (hcopied : ∀ s, Q (.copied s)) (hclipped : ∀ s, Q (.clipped s))
    (hpunctuation : ∀ u ∈ tagPunctuation, Q (synthetic u))
    (hattributes : ∀ a ∈ t.attributes, ∀ p ∈ (placement a).pieces, Q p) :
    ∀ p ∈ startTagPieces t, Q p := by
  intro p hp
  simp only [startTagPieces, attributePieces, List.mem_append, List.mem_cons] at hp
  rcases hp with (rfl | hp | hp) | hp
  · exact hcopied _
  · rcases mem_inPlacePieces hp with ⟨s, rfl⟩ | ⟨a, ha, hp⟩
    · exact hcopied s
    · exact hattributes a ha p hp
  · rcases mem_spreadPieces hp with ⟨u, hu, rfl⟩ | ⟨a, ha, hp⟩
    · exact hpunctuation u (by simp only [tagPunctuation, List.mem_cons] at hu ⊢; tauto)
    · exact hattributes a ha p hp
  · split at hp
    · rcases List.mem_cons.mp hp with rfl | hp
      · exact hclipped _
      · obtain rfl := List.mem_singleton.mp hp
        exact hpunctuation _ (by simp [tagPunctuation])
    · obtain rfl := List.mem_singleton.mp hp
      exact hcopied _

lemma subset_spreadPieces {a : Attribute} {attributes : List Attribute} {pieces : List Piece}
    (ha : a ∈ attributes) (hplace : placement a = .entry pieces) :
    pieces ⊆ spreadPieces attributes := by
  have hentry : pieces ∈ spreadEntries attributes :=
    List.mem_filterMap.mpr ⟨a, ha, by rw [hplace]⟩
  intro p hp
  unfold spreadPieces
  split
  · next hnil => simp [hnil] at hentry
  · refine List.mem_append_left _ (List.mem_cons_of_mem _ (List.mem_flatten.mpr ⟨pieces, ?_, hp⟩))
    exact mem_intersperse_iff.mpr (.inl hentry)

lemma subset_inPlacePieces {a : Attribute} {attributes : List Attribute} {pieces : List Piece}
    (ha : a ∈ attributes) (hplace : placement a = .inPlace pieces) (cursor : Nat) :
    pieces ⊆ inPlacePieces cursor attributes := by
  induction attributes generalizing cursor with
  | nil => cases ha
  | cons b rest ih =>
    intro p hp
    rcases List.mem_cons.mp ha with rfl | ha
    · simp [inPlacePieces, hplace, hp]
    · exact List.mem_append_right _ (ih ha _ hp)

lemma placement_subset {t : StartTag} {a : Attribute} (ha : a ∈ t.attributes) :
    (placement a).pieces ⊆ startTagPieces t := by
  have hsub : (placement a).pieces ⊆ attributePieces t := by
    cases hplace : placement a with
    | dropped => exact List.nil_subset _
    | inPlace pieces =>
      exact List.subset_append_of_subset_left _ (subset_inPlacePieces ha hplace _)
    | entry pieces =>
      exact List.subset_append_of_subset_right _ (subset_spreadPieces ha hplace)
  intro p hp
  simp [startTagPieces, hsub hp]

/-! ### Start tags and nodes -/

lemma startTagPieces_fits {t : StartTag} (h : t.Faithful source) (hending : t.ending ≠ .unclosed) :
    ∀ p ∈ startTagPieces t, p.Fits source := by
  have hbetween := h.attributesEnd_between
  have hname : Span.Fits ⟨t.span.start, t.name.span.stop⟩ source :=
    Span.fits_of_boundary h.fits.start_boundary h.name.fits.stop_boundary
      (Nat.le_of_lt h.start_lt_name_stop)
  intro p hp
  simp only [startTagPieces, attributePieces, List.mem_append, List.mem_cons] at hp
  rcases hp with (rfl | hp | hp) | hp
  · exact hname
  · exact inPlacePieces_fits h.tail.inOrder h.name.fits.stop_boundary p hp
  · rcases mem_spreadPieces hp with ⟨text, -, rfl⟩ | ⟨a, ha, hp⟩
    · exact fits_synthetic _
    · exact placement_fits (h.tail.inOrder.faithful a ha) p hp
  · split at hp
    · next hvoid =>
      -- its `>` is cut off, so there has to be one
      have hclosed : t.ending = .closed := by
        cases he : t.ending <;> simp_all
      rw [hclosed] at hbetween
      rcases List.mem_cons.mp hp with rfl | hp
      · exact ⟨hbetween.1, Span.fits_of_boundary h.attributesEnd_boundary hbetween.2
          (Nat.le_sub_one_of_lt hbetween.1)⟩
      · obtain rfl := List.mem_singleton.mp hp
        exact fits_synthetic _
    · obtain rfl := List.mem_singleton.mp hp
      exact Span.fits_of_boundary h.attributesEnd_boundary h.fits.stop_boundary hbetween.le

lemma commentPieces_fits {data : Excerpt} (h : data.Faithful source) :
    ∀ p ∈ commentPieces data, p.Fits source := by
  simp only [commentPieces, List.forall_mem_cons]
  refine ⟨fits_synthetic _, ?_, fits_synthetic _, by simp⟩
  split
  · next hsome =>
    refine ⟨h.fits, escapeComment_ne_nil ?_⟩
    rintro hnil
    rw [hnil] at hsome
    cases hsome
  · exact h.fits

lemma rawTextPieces_fits {raw : Span} (h : raw.Fits source) :
    ∀ p ∈ rawTextPieces source raw, p.Fits source := by
  unfold rawTextPieces
  split
  · simp
  · next hne =>
    simp only [List.forall_mem_cons]
    refine ⟨fits_synthetic _, ?_, fits_synthetic _, by simp⟩
    split
    · exact h
    · refine ⟨h, escapeTemplate_ne_nil fun hnil => ?_⟩
      have hsize := h.size_slice
      rw [hnil, Text.size_nil] at hsize
      simp only [Span.isEmpty, decide_eq_true_eq] at hne
      omega

lemma meets_fits {n : Node} (h : n.Placed source) : Meets source (All (·.Fits source)) n := by
  cases n with
  | text => trivial
  | expression => trivial
  | comment =>
    obtain ⟨⟨⟩ | ⟨⟩ | ⟨_, hdata⟩⟩ := h
    exact commentPieces_fits hdata
  | doctype => simp [Meets, All]
  | element e children =>
    intro hending
    refine ⟨startTagPieces_fits h.startTag hending, fun raw hraw => ?_, by simp [All]⟩
    exact rawTextPieces_fits (h.rawText_fits hraw)

/-! ### Documents -/

/-- **All pieces of a document fit the source.** -/
theorem documentPieces_fits {d : Document} {spans : List Span} (h : d.Faithful source spans)
    (name : Text) : ∀ p ∈ documentPieces source name d, p.Fits source :=
  forall_mem_documentPieces h (fun _ hs => hs)
    (by simp [framePieces, separator, wrapperOpen, wrapperClose, synthetic, Piece.Fits])
    fun n hn => meets_fits (h.body.placed n hn)

/-- Only raw text is written in a way that depends on the source under its span. -/
lemma rawTextPieces_proper {raw : Span} (h : raw.Proper) (source : Text) :
    ∀ p ∈ rawTextPieces source raw, p.Proper := by
  unfold rawTextPieces
  split
  · simp
  · simp only [List.forall_mem_cons]
    refine ⟨trivial, ?_, trivial, by simp⟩
    split
    · exact h
    · exact h

lemma meets_proper {text : Text} {n : Node} (h : n.Placed text)
    (hsize : text.size ≤ Offset.limit) (source : Text) : Meets source (All Piece.Proper) n := by
  have hfits := meets_fits h
  cases n with
  | text => trivial
  | expression => trivial
  | comment => exact fun p hp => (hfits p hp).proper hsize
  | doctype => simp [Meets, All]
  | element e children =>
    intro hending
    refine ⟨fun p hp => ((hfits hending).1 p hp).proper hsize, fun raw hraw => ?_, by simp [All]⟩
    exact rawTextPieces_proper ((h.rawText_fits hraw).proper hsize) source

/-- **All pieces of a document can be stored**, over any source. -/
theorem documentPieces_proper {text : Text} {d : Document} {spans : List Span}
    (h : d.Faithful text spans) (hsize : text.size ≤ Offset.limit) (source name : Text) :
    ∀ p ∈ documentPieces source name d, p.Proper :=
  forall_mem_documentPieces h (fun _ hs => hs.proper hsize)
    (by simp [framePieces, separator, wrapperOpen, wrapperClose, synthetic, Piece.Proper])
    fun n hn => meets_proper (h.body.placed n hn) hsize source

end TsxLowering.Emission

/-! ### Conversion -/

namespace TsxLowering

open Markup (Document Parsed)

variable {text source : Text} {options : Options} {parsed : Parsed}

/-- What the code of a component is made of. -/
def componentPieces (source : Text) (options : Options) (d : Document) : List Piece :=
  Emission.documentPieces source (options.filename.elim [] Component.name) d

/-- The code of a component, without a map in it. -/
def componentCode (source : Text) (options : Options) (d : Document) : Text :=
  generatedCode source (componentPieces source options d)

/-- The map of a component's code. -/
def componentMap (source : Text) (options : Options) (d : Document) : SourceMap :=
  pieceMap source (componentPieces source options d)

lemma componentPieces_fits (h : Markup.parse source = .ok parsed) (options : Options) :
    ∀ p ∈ componentPieces source options parsed.document, p.Fits source :=
  Emission.documentPieces_fits (Markup.parse_faithful h) _

lemma componentPieces_proper (h : Markup.parse text = .ok parsed) (source : Text)
    (options : Options) : ∀ p ∈ componentPieces source options parsed.document, p.Proper :=
  Emission.documentPieces_proper (Markup.parse_faithful h) (Markup.parse_eq_ok h) source _

lemma ofPieces_componentPieces (h : Markup.parse text = .ok parsed)
    (hsize : (componentCode source options parsed.document).size ≤ Offset.limit) :
    SourceMap.ofPieces source (componentPieces source options parsed.document) =
      .ok (componentMap source options parsed.document) :=
  SourceMap.ofPieces_eq (fun p hp => (componentPieces_proper h source options p hp).bounded source)
    hsize

lemma componentMap_proper (h : Markup.parse text = .ok parsed)
    (hsize : (componentCode source options parsed.document).size ≤ Offset.limit) :
    ∀ e ∈ (componentMap source options parsed.document).mappings.toList, e.Proper :=
  pieceMap_proper (componentPieces_proper h source options) hsize

/-- What is handed back for a component, given the map of its code by lines and columns. -/
def delivered (source : Text) (options : Options) (d : Document) (segments : List Segment) :
    Converted :=
  let encoded : EncodedMap :=
    ⟨options.filename.getD EncodedMap.defaultSourceName, source, segments⟩
  ⟨componentCode source options d ++ if options.mapMode.embedsMap then
      "\n//# sourceMappingURL=".toList ++ encoded.dataUrl else [],
    if options.mapMode.returnsMap then some ⟨componentMap source options d, encoded⟩ else none⟩

/-- **Conversion** of a document, over the text it was read from or another one, fails only where
the code is too large. -/
theorem convertDocument_eq (h : Markup.parse text = .ok parsed)
    (hsize : (componentCode source options parsed.document).size ≤ Offset.limit) :
    ∃ segments, (componentMap source options parsed.document).segments
        (componentCode source options parsed.document) source = .ok segments ∧
      convertDocument parsed.document source options =
        .ok (delivered source options parsed.document segments) := by
  have hmap := ofPieces_componentPieces h hsize
  obtain ⟨segments, hsegments⟩ := SourceMap.segments_eq_ok (componentMap_proper h hsize)
    (componentCode source options parsed.document) source
  refine ⟨segments, hsegments, ?_⟩
  unfold componentCode at hsegments
  unfold componentPieces at hmap hsegments
  simp only [convertDocument, hmap, hsegments, bind, Except.bind, pure, Except.pure]
  cases hmode : options.mapMode <;>
    simp [delivered, hmode, componentCode, componentPieces, MapMode.isEnabled, MapMode.embedsMap,
      MapMode.returnsMap]

/-- **Conversion** fails only where the source or the code is too large. -/
theorem convert_eq (h : Markup.parse source = .ok parsed)
    (hsize : (componentCode source options parsed.document).size ≤ Offset.limit) :
    ∃ segments, (componentMap source options parsed.document).segments
        (componentCode source options parsed.document) source = .ok segments ∧
      convert source options = .ok (delivered source options parsed.document segments) := by
  obtain ⟨segments, hsegments, hdocument⟩ := convertDocument_eq h hsize
  exact ⟨segments, hsegments, by simp [convert, h, hdocument, Except.mapError]⟩

/-- **Conversion without a map** gives the code. -/
theorem convert_omitted (hmode : options.mapMode = .omitted) (h : Markup.parse source = .ok parsed)
    (hsize : (componentCode source options parsed.document).size ≤ Offset.limit) :
    convert source options = .ok ⟨componentCode source options parsed.document, none⟩ := by
  obtain ⟨segments, -, hconvert⟩ := convert_eq h hsize
  simp [hconvert, delivered, hmode, MapMode.embedsMap, MapMode.returnsMap]

/-- **Conversion with a map beside it** gives the code and its map. -/
theorem convert_external (hmode : options.mapMode = .external)
    (h : Markup.parse source = .ok parsed)
    (hsize : (componentCode source options parsed.document).size ≤ Offset.limit) :
    ∃ encoded, convert source options = .ok ⟨componentCode source options parsed.document,
      some ⟨componentMap source options parsed.document, encoded⟩⟩ := by
  obtain ⟨segments, -, hconvert⟩ := convert_eq h hsize
  simp [hconvert, delivered, hmode, MapMode.embedsMap, MapMode.returnsMap]

lemma code_of_convert {converted : Converted} (hparse : Markup.parse source = .ok parsed)
    (h : convert source options = .ok converted) :
    componentCode source options parsed.document <+: converted.code := by
  rw [convert, hparse] at h
  cases hdocument : convertDocument parsed.document source options with
  | error e =>
    simp only [hdocument] at h
    cases h
  | ok converted =>
    simp only [hdocument] at h
    cases h
    simp only [convertDocument, bind, Except.bind, pure, Except.pure] at hdocument
    split at hdocument
    · cases hdocument
    · split at hdocument
      · cases hdocument
        exact List.prefix_rfl
      · split at hdocument
        · cases hdocument
        · cases hdocument
          exact List.prefix_append _ _

end TsxLowering
