import TsxLowering.Proofs.Emission.Verbatim
import TsxLowering.Proofs.Segments

/-!
Derived text of the length of its source has the shape of its source.

At most the quotes of such a text differ from the source. So an entry of the map with two spans
of one length is as good as a copy, and the map by lines and columns leads to the same places as
the map by offsets.
-/

namespace TsxLowering

variable {source : Text}

/-- Derived text of the length of its source has the shape of its source. -/
def Piece.KeepsShape (source : Text) : Piece → Prop
  | .derived s text => text.size = s.stop - s.start → Text.SameShape text (s.slice source)
  | _ => True

namespace Emission

open Markup (Document Enclosed Node)

variable {values : List Enclosed}

lemma Requoted.sameShape {s : Span} {t : Text} (h : Requoted source values s t) :
    Text.SameShape t (s.slice source) := by
  obtain ⟨v, -, -, hsource, rfl⟩ := h
  have halike : Alike '"' '\'' := ⟨rfl, rfl, by decide⟩
  rw [hsource]
  exact .cons halike (List.rel_append (Text.SameShape.refl _) (.cons halike .nil))

lemma Derived.keepsShape {p : Piece} (h : Derived source values p) : p.KeepsShape source := by
  cases p with
  | derived s t =>
    intro hsize
    rcases Derivation.size_eq_iff h |>.mp hsize with rfl | hrequoted
    · exact .refl _
    · exact hrequoted.sameShape
  | _ => trivial

/-- **All pieces of a document** keep the shape of the source, or its length changes. -/
theorem documentPieces_keepsShape {d : Document} {spans : List Span} (h : d.Faithful source spans)
    (hdelimited : ∀ n ∈ Node.descendants d.nodes, n.Delimited source) (name : Text) :
    ∀ p ∈ documentPieces source name d, p.KeepsShape source :=
  fun p hp => (documentPieces_derivations h hdelimited name p hp).keepsShape

end Emission

/-! ### The map of a component -/

lemma pieceMap_aligned {pieces : List Piece} (hfits : ∀ p ∈ pieces, p.Fits source)
    (hshape : ∀ p ∈ pieces, p.KeepsShape source) :
    ∀ e ∈ (pieceMap source pieces).mappings.toList,
      e.Aligned (generatedCode source pieces) source := by
  intro e he
  obtain ⟨before, p, after, rfl, hp, hslice⟩ := exists_of_mem_pieceMap he
  have hfits := hfits p (by simp)
  have hshape := hshape p (by simp)
  obtain ⟨-, horigin, hgenerated⟩ := Piece.mapping?_eq_some_iff.mp hp
  rw [hfits.origin?_eq] at horigin
  have hsource := hfits.span_fits horigin
  refine ⟨⟨_, hslice⟩, hsource, fun hverbatim => ?_⟩
  rw [Span.slice, hslice, Option.getD_some]
  cases p with
  | copied s =>
    rw [← Option.some.inj horigin]
    exact .refl _
  | clipped s =>
    rw [← Option.some.inj horigin]
    exact .refl _
  | derived s text =>
    -- the entry is as long as its source only if the derived text is
    cases horigin
    rw [Mapping.isVerbatim_eq (by rw [hgenerated]; exact Nat.le_add_right _ _) hsource.start_le,
      hgenerated, Nat.add_sub_cancel_left] at hverbatim
    exact hshape (by simpa [Piece.text] using hverbatim)
  | synthetic => cases horigin

variable {options : Options} {parsed : Markup.Parsed}

lemma componentMap_aligned (h : Markup.parse source = .ok parsed) (options : Options) :
    ∀ e ∈ (componentMap source options parsed.document).mappings.toList,
      e.Aligned (componentCode source options parsed.document) source :=
  pieceMap_aligned (componentPieces_fits h options) (Emission.documentPieces_keepsShape
    (Markup.parse_faithful h) (Markup.parse_delimited h) _)

lemma segments_of_convert {code : Text} {map : SourceMap} {encoded : EncodedMap}
    (hmode : options.mapMode = .external)
    (h : convert source options = .ok ⟨code, some ⟨map, encoded⟩⟩) :
    map.segments code source = .ok encoded.segments := by
  unfold convert at h
  split at h
  · cases h
  · next parsed _ =>
    cases hdocument : convertDocument parsed.document source options with
    | error e =>
      rw [hdocument] at h
      cases h
    | ok c =>
      rw [hdocument] at h
      cases h
      -- the three steps that may fail have not
      simp only [convertDocument, hmode, bind, Except.bind] at hdocument
      split at hdocument
      · cases hdocument
      · split at hdocument
        · cases hdocument
        · split at hdocument
          · cases hdocument
          · next hsegments =>
            simp only [pure, Except.pure, MapMode.embedsMap, MapMode.returnsMap] at hdocument
            simp only [Except.ok.injEq, Converted.mk.injEq] at hdocument
            obtain ⟨rfl, hmap⟩ := hdocument
            cases hmap
            simpa using hsegments

/-- **The map by lines and columns refines the map by offsets**: its segments stand in the order of
the code, each entry has its own, and from every offset in copied code the last segment before it
on its line leads to the source position of the offset that it comes from. -/
theorem convert_refines_map (hmode : options.mapMode = .external)
    (hparse : Markup.parse source = .ok parsed)
    (hsize : (componentCode source options parsed.document).size ≤ Offset.limit) :
    ∃ map encoded,
      convert source options =
        .ok ⟨componentCode source options parsed.document, some ⟨map, encoded⟩⟩ ∧
      map.Refines (componentCode source options parsed.document) source encoded.segments := by
  obtain ⟨encoded, hconvert⟩ := convert_external hmode hparse hsize
  obtain ⟨segments, hsegments, hrefines⟩ := SourceMap.refines_segments (pieceMap_ordered _)
    (componentMap_aligned hparse options) hsize (Markup.parse_eq_ok hparse)
  have hencoded : segments = encoded.segments :=
    Except.ok.inj (hsegments.symm.trans (segments_of_convert hmode hconvert))
  exact ⟨_, encoded, hconvert, hencoded ▸ hrefines⟩

/-- An attribute that moves with other quotes and the same length, and copied text that runs over a
line break, with characters of two and four bytes. -/
def copiedLines : Text := "<p @a='é'>\nü😀\x7bb\n\x7d</p>".toList

theorem convert_refines_copiedLines :
    ∃ parsed, Markup.parse copiedLines = .ok parsed ∧
      (componentCode copiedLines ⟨none, .external⟩ parsed.document).size ≤ Offset.limit ∧
      ∃ map encoded, convert copiedLines ⟨none, .external⟩ =
          .ok ⟨componentCode copiedLines ⟨none, .external⟩ parsed.document, some ⟨map, encoded⟩⟩ ∧
        map.Refines (componentCode copiedLines ⟨none, .external⟩ parsed.document) copiedLines
          encoded.segments ∧
        encoded.segments =
          [⟨⟨1, 0⟩, ⟨0, 0⟩⟩, ⟨⟨1, 8⟩, ⟨0, 3⟩⟩, ⟨⟨1, 13⟩, ⟨0, 6⟩⟩, ⟨⟨1, 18⟩, ⟨0, 9⟩⟩,
            ⟨⟨1, 19⟩, ⟨0, 10⟩⟩, ⟨⟨2, 0⟩, ⟨1, 0⟩⟩, ⟨⟨2, 3⟩, ⟨1, 3⟩⟩, ⟨⟨3, 0⟩, ⟨2, 0⟩⟩,
            ⟨⟨3, 1⟩, ⟨2, 1⟩⟩] := by
  let tag : Markup.StartTag := ⟨⟨0, 11⟩, ⟨⟨1, 2⟩, ['p']⟩,
    [.normal ⟨3, 10⟩ ⟨⟨3, 5⟩, ['@', 'a']⟩ (.quoted ⟨⟨6, 10⟩, ['é'], true⟩)], .closed⟩
  let document : Markup.Document := ⟨⟨0, 26⟩, none, ⟨0, 26⟩,
    [.element ⟨⟨0, 26⟩, tag, none, some ⟨22, 26⟩⟩
      [.text ⟨⟨11, 18⟩, ['\n', 'ü', '😀']⟩, .expression ⟨⟨18, 22⟩, ['b', '\n'], true⟩]]⟩
  have hparse : Markup.parse copiedLines = .ok ⟨document, []⟩ := by decide +kernel
  have hsize : (componentCode copiedLines ⟨none, .external⟩ document).size ≤ Offset.limit := by
    decide +kernel
  obtain ⟨map, encoded, hconvert, hrefines⟩ :=
    @convert_refines_map copiedLines ⟨none, .external⟩ ⟨document, []⟩ rfl hparse hsize
  refine ⟨_, hparse, hsize, map, encoded, hconvert, hrefines, ?_⟩
  have hsegments : ((convert copiedLines ⟨none, .external⟩).toOption.bind (·.map)).map
      (·.encoded.segments) = some
        [⟨⟨1, 0⟩, ⟨0, 0⟩⟩, ⟨⟨1, 8⟩, ⟨0, 3⟩⟩, ⟨⟨1, 13⟩, ⟨0, 6⟩⟩, ⟨⟨1, 18⟩, ⟨0, 9⟩⟩,
          ⟨⟨1, 19⟩, ⟨0, 10⟩⟩, ⟨⟨2, 0⟩, ⟨1, 0⟩⟩, ⟨⟨2, 3⟩, ⟨1, 3⟩⟩, ⟨⟨3, 0⟩, ⟨2, 0⟩⟩,
          ⟨⟨3, 1⟩, ⟨2, 1⟩⟩] := by decide +kernel
  rw [hconvert] at hsegments
  exact Option.some.inj hsegments

end TsxLowering
