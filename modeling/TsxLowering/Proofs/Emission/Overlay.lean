import TsxLowering.Proofs.Emission.Fits

/-!
A document laid over a source.

A document keeps the spans of the text it was read from, and may be converted over another one,
where its spans can lie outside or inside of a character. Main statements:
`convertDocument_parts_code`, by which the map still parts the code exactly into what stands for
some source and what does not, and `convertDocument_never_overflows`, by which no offset that is
computed on the way, or in a later look at the map, is out of range.
-/

namespace TsxLowering

variable {text source : Text} {pieces : List Piece} {p q : Piece} {g : Nat}

/-! ### Which piece wrote a byte -/

namespace Piece

/-- Whether the piece stands for no source. -/
def isSynthetic : Piece → Bool
  | .synthetic _ => true
  | .copied _ | .clipped _ | .derived .. => false

/-- The byte at `g` of the code that pieces make belongs to the text of the piece `p`. -/
def Writes (source : Text) (pieces : List Piece) (g : Nat) (p : Piece) : Prop :=
  ∃ before after, pieces = before ++ p :: after ∧ (generatedCode source before).size ≤ g ∧
    g < (generatedCode source before).size + (p.text source).size

lemma origin?_isSome (source : Text) (p : Piece) :
    (p.origin? source).isSome = !p.isSynthetic := by
  cases p <;> rfl

end Piece

lemma size_le_of_append_eq {before before' after after' : List Piece}
    (h : before ++ p :: after = before' ++ q :: after') (hlt : before.length < before'.length) :
    (generatedCode source before).size + (p.text source).size ≤
      (generatedCode source before').size := by
  have hsplit : ∃ rest, before' = before ++ p :: rest := by
    rcases List.append_eq_append_iff.mp h with ⟨rest, rfl, hrest⟩ | ⟨rest, rfl, -⟩
    · cases rest with
      | nil => simp at hlt
      | cons c rest =>
        cases hrest
        exact ⟨rest, rfl⟩
    · rw [List.length_append] at hlt
      omega
  obtain ⟨rest, rfl⟩ := hsplit
  rw [generatedCode_append, generatedCode_cons, Text.size_append, Text.size_append]
  omega

namespace Piece

/-- **A byte has one writer.** -/
theorem Writes.unique (hp : Writes source pieces g p) (hq : Writes source pieces g q) : p = q := by
  obtain ⟨before, after, rfl, hstart, hstop⟩ := hp
  obtain ⟨before', after', h, hstart', hstop'⟩ := hq
  rcases Nat.lt_trichotomy before.length before'.length with hlt | heq | hlt
  · have hle : (generatedCode source before).size + (p.text source).size ≤
        (generatedCode source before').size := size_le_of_append_eq h hlt
    omega
  · obtain ⟨-, hcons⟩ := List.append_inj h heq
    cases hcons
    rfl
  · have hle : (generatedCode source before').size + (q.text source).size ≤
        (generatedCode source before).size := size_le_of_append_eq h.symm hlt
    omega

lemma exists_writes (hg : g < (generatedCode source pieces).size) :
    ∃ p, Writes source pieces g p := by
  induction pieces generalizing g with
  | nil => simp at hg
  | cons q pieces ih =>
    rw [generatedCode_cons, Text.size_append] at hg
    by_cases hq : g < (q.text source).size
    · exact ⟨q, [], pieces, rfl, by simp, by simpa using hq⟩
    · obtain ⟨p, before, after, rfl, hstart, hstop⟩ :=
        ih (g := g - (q.text source).size) (by omega)
      refine ⟨p, q :: before, after, rfl, ?_, ?_⟩
      · rw [generatedCode_cons, Text.size_append]
        omega
      · rw [generatedCode_cons, Text.size_append]
        omega

end Piece

/-! ### The parts of the code in the map -/

/-- The entries of a map part the code that pieces make: each has a place of its own there, between
characters, and an offset leads back to the source exactly where the code stands for some. -/
structure SourceMap.PartsCode (source : Text) (pieces : List Piece) (map : SourceMap) : Prop where
  ordered : map.Ordered
  inside : ∀ e ∈ map.mappings.toList, e.generated.Fits (generatedCode source pieces)
  mapped : ∀ g, (∃ o, map.sourceOffset? g = .ok (some o)) ↔
    ∃ p, p.isSynthetic = false ∧ Piece.Writes source pieces g p
  unmapped : ∀ g, map.sourceOffset? g = .ok none ↔
    (generatedCode source pieces).size ≤ g ∨ ∃ t, Piece.Writes source pieces g (.synthetic t)

lemma Piece.Writes.lt_size (h : Writes source pieces g p) :
    g < (generatedCode source pieces).size := by
  obtain ⟨before, after, rfl, -, hstop⟩ := h
  rw [generatedCode_append, generatedCode_cons, Text.size_append, Text.size_append]
  omega

lemma exists_entry_iff :
    (∃ e ∈ (pieceMap source pieces).mappings.toList, e.generated.contains g = true) ↔
      ∃ p, p.isSynthetic = false ∧ Piece.Writes source pieces g p := by
  constructor
  · rintro ⟨e, he, hg⟩
    obtain ⟨before, p, after, rfl, hentry, -⟩ := exists_of_mem_pieceMap he
    obtain ⟨-, horigin, hgenerated⟩ := Piece.mapping?_eq_some_iff.mp hentry
    have hsynthetic := p.origin?_isSome source
    rw [horigin, Option.isSome_some] at hsynthetic
    rw [hgenerated, Span.contains_iff] at hg
    exact ⟨p, by simpa using hsynthetic.symm, before, after, rfl, hg⟩
  · rintro ⟨p, hsynthetic, before, after, rfl, hstart, hstop⟩
    have horigin := p.origin?_isSome source
    rw [hsynthetic, Bool.not_false, Option.isSome_iff_exists] at horigin
    obtain ⟨s, hs⟩ := horigin
    -- a piece that has written a byte is not empty, so it has an entry
    have hne : p.text source ≠ [] := by
      intro hnil
      rw [hnil, Text.size_nil] at hstop
      omega
    exact ⟨⟨_, s⟩, mem_pieceMap (Piece.mapping?_eq_some_iff.mpr ⟨hne, hs, rfl⟩),
      Span.contains_iff.mpr ⟨hstart, hstop⟩⟩

lemma pieceMap_inside : ∀ e ∈ (pieceMap source pieces).mappings.toList,
    e.generated.Fits (generatedCode source pieces) := by
  intro e he
  obtain ⟨before, p, after, -, -, hslice⟩ := exists_of_mem_pieceMap he
  exact ⟨_, hslice⟩

lemma exists_sourceOffset?_of_writes (hp : ∀ p ∈ pieces, p.Proper)
    (h : ∃ p, p.isSynthetic = false ∧ Piece.Writes source pieces g p) :
    ∃ o, (pieceMap source pieces).sourceOffset? g = .ok (some o) := by
  obtain ⟨e, he, hg⟩ := exists_entry_iff.mpr h
  obtain ⟨before, p, after, rfl, hentry, -⟩ := exists_of_mem_pieceMap he
  have horigin := (Piece.mapping?_eq_some_iff.mp hentry).2.1
  have hproper := (hp p (by simp)).origin horigin
  exact ⟨_, (pieceMap_ordered _).sourceOffset?_of_mem he hproper hg⟩

lemma sourceOffset?_of_not_writes
    (h : ¬ ∃ p, p.isSynthetic = false ∧ Piece.Writes source pieces g p) :
    (pieceMap source pieces).sourceOffset? g = .ok none := by
  refine (pieceMap_ordered _).sourceOffset?_eq_none fun e he => ?_
  by_contra hg
  exact h (exists_entry_iff.mp ⟨e, he, by simpa using hg⟩)

/-- **The map of pieces parts their code.** -/
theorem pieceMap_partsCode (hp : ∀ p ∈ pieces, p.Proper) :
    (pieceMap source pieces).PartsCode source pieces where
  ordered := pieceMap_ordered pieces
  inside := pieceMap_inside
  mapped g := by
    refine ⟨fun ⟨o, ho⟩ => ?_, exists_sourceOffset?_of_writes hp⟩
    by_contra h
    rw [sourceOffset?_of_not_writes h] at ho
    cases ho
  unmapped g := by
    constructor
    · intro h
      by_cases hg : (generatedCode source pieces).size ≤ g
      · exact .inl hg
      -- the writer is synthetic, or else the offset would lead somewhere
      obtain ⟨p, hwrites⟩ := Piece.exists_writes (Nat.lt_of_not_le hg)
      cases hsynthetic : p.isSynthetic with
      | false =>
        obtain ⟨o, ho⟩ := exists_sourceOffset?_of_writes hp ⟨p, hsynthetic, hwrites⟩
        rw [h] at ho
        cases ho
      | true =>
        cases p <;> cases hsynthetic
        exact .inr ⟨_, hwrites⟩
    · intro h
      refine sourceOffset?_of_not_writes ?_
      rintro ⟨p, hsynthetic, hwrites⟩
      rcases h with hg | ⟨t, ht⟩
      · have := hwrites.lt_size
        omega
      · obtain rfl := hwrites.unique ht
        cases hsynthetic

/-! ### Lookups never fail -/

namespace SourceMap

variable {map : SourceMap}

lemma sourceOffset?_eq_ok (hordered : map.Ordered) (h : ∀ e ∈ map.mappings.toList, e.Proper)
    (g : Nat) : ∃ o, map.sourceOffset? g = .ok o := by
  by_cases hg : ∃ e ∈ map.mappings.toList, e.generated.contains g = true
  · obtain ⟨e, he, hg⟩ := hg
    exact ⟨_, hordered.sourceOffset?_of_mem he (h e he).source hg⟩
  · refine ⟨none, hordered.sourceOffset?_eq_none fun e he => ?_⟩
    by_contra hcontains
    exact hg ⟨e, he, by simpa using hcontains⟩

lemma generatedOffset?_eq_ok (h : ∀ e ∈ map.mappings.toList, e.Proper) (o : Nat) :
    ∃ g, map.generatedOffset? o = .ok g := by
  unfold generatedOffset?
  split
  · next e hfind =>
    have hmem := Array.mem_toList_iff.mpr (Array.mem_of_find?_eq_some hfind)
    have hcontains := Array.find?_some hfind
    have hsub : Offset.sub o e.source.start = .ok (o - e.source.start) :=
      Offset.sub_eq_ok_iff.mpr ⟨rfl, (Span.contains_iff.mp hcontains).1⟩
    simp only [hsub, bind, Except.bind, shift_eq (h e hmem).generated]
    exact ⟨_, rfl⟩
  · exact ⟨none, rfl⟩

end SourceMap

/-! ### Text that stands for no source -/

namespace Emission

open Markup (Attribute Document Node)

/-- All text of generated code that stands for no source: the frame of the markup, the punctuation
of tags and attributes, and the delimiters of raw text and comments. -/
def syntheticTexts (name : Text) : List Text :=
  Component.exportDeclaration name ::
    (["\"\";", "<Fragment>\n", "\n</Fragment>\n"] ++ tagPunctuation ++
      ["=\x7b", "\x7b", "\x7d", ":", ":(", "(", ")", "true"] ++
      ["\x7b`", "`\x7d", "\x7b/*", "*/\x7d"]).map String.toList

/-- If the piece stands for no source, its text is one of these. -/
def Known (name : Text) : Piece → Prop
  | .synthetic t => t ∈ syntheticTexts name
  | .copied _ | .clipped _ | .derived .. => True

variable {name : Text}

lemma framePieces_known : ∀ p ∈ framePieces name, Known name p := by
  simp [framePieces, separator, wrapperOpen, wrapperClose, synthetic, Known, syntheticTexts]

lemma entryValuePieces_known (value : Attribute.Value) :
    ∀ p ∈ entryValuePieces value, Known name p := by
  cases value with
  | template v =>
    simp only [entryValuePieces]
    split <;> simp [Known]
  | _ => simp [entryValuePieces, synthetic, Known, syntheticTexts]

lemma placement_known (a : Attribute) : ∀ p ∈ (placement a).pieces, Known name p := by
  cases a with
  | normal span key value =>
    simp only [placement]
    split
    · cases value <;> simp [Placement.pieces, normalPieces, synthetic, Known, syntheticTexts]
    · simp only [Placement.pieces, List.forall_mem_cons]
      exact ⟨trivial, by simp [synthetic, Known, syntheticTexts], entryValuePieces_known value⟩
  | spread span code => exact List.forall_mem_singleton.mpr trivial
  | shorthand span key =>
    simp only [placement]
    split
    · simp [Placement.pieces]
    · split <;> simp [Placement.pieces, keyPiece, synthetic, Known, syntheticTexts]

lemma meets_known (source : Text) (n : Node) : Meets source (All (Known name)) n := by
  cases n with
  | text => trivial
  | expression => trivial
  | comment span data =>
    simp only [Meets, All, commentPieces, List.forall_mem_cons]
    refine ⟨by simp [synthetic, Known, syntheticTexts], ?_,
      by simp [synthetic, Known, syntheticTexts], by simp⟩
    split <;> trivial
  | doctype => simp [Meets, All]
  | element e children =>
    intro _
    refine ⟨forall_mem_startTagPieces (fun _ => trivial) (fun _ => trivial) ?_
      fun a _ => placement_known a, fun raw _ => ?_, by simp [All]⟩
    · simp [tagPunctuation, synthetic, Known, syntheticTexts]
    · simp only [rawTextPieces, All]
      split
      · simp
      · simp only [List.forall_mem_cons]
        refine ⟨by simp [synthetic, Known, syntheticTexts], ?_,
          by simp [synthetic, Known, syntheticTexts], by simp⟩
        split <;> trivial

/-- **Text for which there is no source** is one of a few. -/
theorem documentPieces_known {d : Document} {spans : List Span} (h : d.Faithful text spans)
    (source : Text) : ∀ p ∈ documentPieces source name d, Known name p :=
  forall_mem_documentPieces h (fun _ _ => trivial) framePieces_known fun n _ => meets_known source n

lemma mem_scriptPieces (d : Document) :
    ∀ p ∈ scriptPieces d, p = separator ∨ ∃ s, p = .copied s := by
  intro p hp
  simp only [scriptPieces, List.mem_append, List.mem_map, List.mem_singleton] at hp
  rcases hp with (⟨f, -, rfl⟩ | rfl) | hp
  · exact .inr ⟨_, rfl⟩
  · exact .inr ⟨_, rfl⟩
  · split at hp
    · exact .inl (List.mem_singleton.mp hp)
    · cases hp

end Emission

/-! ### Documents -/

open Markup (Parsed)

variable {parsed : Parsed}

/-- **The map parts the code**: over any source, the entries of the map stand in the code one after
another, and an offset leads back exactly where the code stands for some source, which is so
everywhere but in a few fixed texts, among them the wrapper of the markup and the declaration behind
it. Over the text that the document was read from each entry leads into it. -/
theorem convertDocument_parts_code (hparse : Markup.parse text = .ok parsed) (source : Text)
    (options : Options)
    (hsize : (componentCode source options parsed.document).size ≤ Offset.limit) :
    ∃ map encoded comment,
      SourceMap.ofPieces source (componentPieces source options parsed.document) = .ok map ∧
      convertDocument parsed.document source options =
        .ok ⟨componentCode source options parsed.document ++ comment,
          if options.mapMode.returnsMap then some ⟨map, encoded⟩ else none⟩ ∧
      (options.mapMode.embedsMap = false → comment = []) ∧
      map.PartsCode source (componentPieces source options parsed.document) ∧
      (∀ t, .synthetic t ∈ componentPieces source options parsed.document →
        t ∈ Emission.syntheticTexts (options.filename.elim [] Component.name)) ∧
      (∃ script body, componentPieces source options parsed.document =
          script ++ .synthetic "<Fragment>\n".toList :: body ++
            [.synthetic "\n</Fragment>\n".toList,
              .synthetic (Component.exportDeclaration (options.filename.elim [] Component.name))] ∧
        ∀ p ∈ script, p = .synthetic "\"\";".toList ∨ ∃ s, p = .copied s) ∧
      (text = source → ∀ e ∈ map.mappings.toList, e.source.Fits source) := by
  obtain ⟨segments, -, hconvert⟩ := convertDocument_eq hparse hsize
  refine ⟨_, _, _, ofPieces_componentPieces hparse hsize, hconvert, ?_,
    pieceMap_partsCode (componentPieces_proper hparse source options), ?_,
    ⟨_, _, rfl, Emission.mem_scriptPieces parsed.document⟩, ?_⟩
  · intro h
    rw [h]
    rfl
  · intro t ht
    exact Emission.documentPieces_known (Markup.parse_faithful hparse) source _ ht
  · rintro rfl e he
    -- only here the document has to be that of the text
    obtain ⟨before, p, after, hpieces, hentry, -⟩ := exists_of_mem_pieceMap he
    have hfits : p.Fits text := componentPieces_fits hparse options p (by simp [hpieces])
    have horigin := (Piece.mapping?_eq_some_iff.mp hentry).2.1
    rw [hfits.origin?_eq] at horigin
    exact hfits.span_fits horigin

/-- A script without a last semicolon, and an attribute that moves. -/
def staleText : Text := "---\na\n---\n<p @b='c'>ü</p>".toList

/-- The same component after some changes: the old span of the script ends inside of a character,
and that of the end tag behind the source. -/
def editedText : Text := "---\n\né--\n<p @b='c'>ü".toList

theorem convertDocument_parts_edited :
    ∃ parsed, Markup.parse staleText = .ok parsed ∧
      (componentCode editedText ⟨none, .both⟩ parsed.document).size ≤ Offset.limit ∧
      ∃ map encoded comment,
        SourceMap.ofPieces editedText (componentPieces editedText ⟨none, .both⟩ parsed.document) =
          .ok map ∧
        convertDocument parsed.document editedText ⟨none, .both⟩ =
          .ok ⟨componentCode editedText ⟨none, .both⟩ parsed.document ++ comment,
            some ⟨map, encoded⟩⟩ ∧
        map.PartsCode editedText (componentPieces editedText ⟨none, .both⟩ parsed.document) ∧
        map.mappings = #[⟨⟨14, 16⟩, ⟨10, 12⟩⟩, ⟨⟨22, 26⟩, ⟨13, 15⟩⟩, ⟨⟨27, 30⟩, ⟨16, 19⟩⟩,
          ⟨⟨32, 33⟩, ⟨19, 20⟩⟩, ⟨⟨33, 35⟩, ⟨20, 22⟩⟩] := by
  let tag : Markup.StartTag := ⟨⟨10, 20⟩, ⟨⟨11, 12⟩, ['p']⟩,
    [.normal ⟨13, 19⟩ ⟨⟨13, 15⟩, ['@', 'b']⟩ (.quoted ⟨⟨16, 19⟩, ['c'], true⟩)], .closed⟩
  let document : Markup.Document := ⟨⟨0, 26⟩, some ⟨⟨0, 10⟩, ⟨⟨3, 6⟩, ['\n', 'a', '\n']⟩⟩, ⟨10, 26⟩,
    [.element ⟨⟨10, 26⟩, tag, none, some ⟨22, 26⟩⟩ [.text ⟨⟨20, 22⟩, ['ü']⟩]]⟩
  have hparse : Markup.parse staleText = .ok ⟨document, []⟩ := by decide +kernel
  have hsize : (componentCode editedText ⟨none, .both⟩ document).size ≤ Offset.limit := by
    decide +kernel
  obtain ⟨map, encoded, comment, hmap, hconvert, -, hparts, -, -, -⟩ :=
    convertDocument_parts_code hparse editedText ⟨none, .both⟩ hsize
  refine ⟨_, hparse, hsize, map, encoded, comment, hmap, hconvert, hparts, ?_⟩
  have hmappings : (SourceMap.ofPieces editedText
      (componentPieces editedText ⟨none, .both⟩ document)).toOption.map SourceMap.mappings =
        some #[⟨⟨14, 16⟩, ⟨10, 12⟩⟩, ⟨⟨22, 26⟩, ⟨13, 15⟩⟩, ⟨⟨27, 30⟩, ⟨16, 19⟩⟩,
          ⟨⟨32, 33⟩, ⟨19, 20⟩⟩, ⟨⟨33, 35⟩, ⟨20, 22⟩⟩] := by decide +kernel
  rw [hmap] at hmappings
  exact Option.some.inj hmappings

/-- **No offset overflows**, in a conversion over any source and in later lookups, as long as the
code itself can be addressed. -/
theorem convertDocument_never_overflows (hparse : Markup.parse text = .ok parsed) (source : Text)
    (options : Options)
    (hsize : (componentCode source options parsed.document).size ≤ Offset.limit) :
    ∃ map segments converted,
      SourceMap.ofPieces source (componentPieces source options parsed.document) = .ok map ∧
      map.segments (componentCode source options parsed.document) source = .ok segments ∧
      convertDocument parsed.document source options = .ok converted ∧
      (∀ e ∈ map.mappings.toList, ∃ b, e.isVerbatim = .ok b) ∧
      (∀ g, ∃ o, map.sourceOffset? g = .ok o) ∧
      (∀ o, ∃ g, map.generatedOffset? o = .ok g) ∧
      ∀ t ∈ [componentCode source options parsed.document, source], ∀ offset p,
        (LineIndex.ofText t).position? offset = some p →
          ∃ start, (LineIndex.ofText t).lineStart? p.line = some start ∧
            Offset.sub offset start = .ok p.column := by
  obtain ⟨segments, hsegments, hconvert⟩ := convertDocument_eq hparse hsize
  have hproper := componentMap_proper hparse hsize
  refine ⟨_, segments, _, ofPieces_componentPieces hparse hsize, hsegments, hconvert,
    fun e he => (hproper e he).isVerbatim_eq_ok,
    SourceMap.sourceOffset?_eq_ok (pieceMap_ordered _) hproper,
    SourceMap.generatedOffset?_eq_ok hproper, fun t _ offset p hp => ?_⟩
  obtain ⟨start, hstart, hle, hcolumn⟩ := LineIndex.exists_lineStart hp
  exact ⟨start, hstart, Offset.sub_eq_ok_iff.mpr ⟨hcolumn, hle⟩⟩

/-- A void element, whose tag has to close itself, and one that is never closed, over a shorter text
with its characters and lines in other places. -/
theorem convertDocument_never_overflows_shorter :
    ∃ parsed, Markup.parse "<br a>\n<b>".toList = .ok parsed ∧
      (componentCode "é\n<br>".toList ⟨none, .external⟩ parsed.document).size ≤ Offset.limit ∧
      ∃ map segments converted,
        SourceMap.ofPieces "é\n<br>".toList
            (componentPieces "é\n<br>".toList ⟨none, .external⟩ parsed.document) = .ok map ∧
        map.segments (componentCode "é\n<br>".toList ⟨none, .external⟩ parsed.document)
            "é\n<br>".toList = .ok segments ∧
        convertDocument parsed.document "é\n<br>".toList ⟨none, .external⟩ = .ok converted ∧
        (∀ e ∈ map.mappings.toList, ∃ b, e.isVerbatim = .ok b) ∧
        (∀ g, ∃ o, map.sourceOffset? g = .ok o) ∧
        ∀ o, ∃ g, map.generatedOffset? o = .ok g := by
  let br : Markup.StartTag := ⟨⟨0, 6⟩, ⟨⟨1, 3⟩, ['b', 'r']⟩,
    [.normal ⟨4, 5⟩ ⟨⟨4, 5⟩, ['a']⟩ .empty], .closed⟩
  let b : Markup.StartTag := ⟨⟨7, 10⟩, ⟨⟨8, 9⟩, ['b']⟩, [], .closed⟩
  let document : Markup.Document := ⟨⟨0, 10⟩, none, ⟨0, 10⟩,
    [.element ⟨⟨0, 6⟩, br, none, none⟩ [], .text ⟨⟨6, 7⟩, ['\n']⟩,
      .element ⟨⟨7, 10⟩, b, none, none⟩ []]⟩
  have hparse : Markup.parse "<br a>\n<b>".toList =
      .ok ⟨document, [⟨.unclosedTag ['b'], ⟨7, 10⟩⟩]⟩ := by decide +kernel
  have hsize : (componentCode "é\n<br>".toList ⟨none, .external⟩ document).size ≤
      Offset.limit := by decide +kernel
  obtain ⟨map, segments, converted, hmap, hsegments, hconvert, hverbatim, hsource, hgenerated, -⟩ :=
    convertDocument_never_overflows hparse "é\n<br>".toList ⟨none, .external⟩ hsize
  exact ⟨_, hparse, hsize, map, segments, converted, hmap, hsegments, hconvert, hverbatim, hsource,
    hgenerated⟩

end TsxLowering
