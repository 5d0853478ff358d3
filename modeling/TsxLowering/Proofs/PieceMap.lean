import TsxLowering.Emission.Piece
import TsxLowering.Proofs.Boundary
import TsxLowering.Proofs.Lookup

/-!
The map of generated code, read off its pieces.

Every piece with code that stands for a span of the source has one entry, from the place of
that code to the span. The map that is built holds these entries and no others, so they follow
each other in the code, and a copied piece is found again in both directions.
-/

namespace TsxLowering

variable {source : Text}

namespace Piece

/-- The span of the source that a piece stands for. A span that the source does not have counts
as empty. -/
def origin? (source : Text) (p : Piece) : Option Span :=
  match p with
  | .copied s | .clipped s => some ⟨s.start, s.start + (p.text source).size⟩
  | .derived s _ => some s
  | .synthetic _ => none

/-- The entry of a piece whose code begins at `pos`. -/
def mapping? (source : Text) (pos : Nat) (p : Piece) : Option Mapping :=
  if p.text source = [] then none
  else (p.origin? source).map fun s => ⟨⟨pos, pos + (p.text source).size⟩, s⟩

/-- All offsets that are computed for the piece can be stored. -/
def Bounded (source : Text) (p : Piece) : Prop :=
  match p with
  | .copied s => s.start + (p.text source).size ≤ Offset.limit
  | .clipped s => 0 < s.stop ∧ s.start + (p.text source).size ≤ Offset.limit
  | .derived .. | .synthetic _ => True

lemma mapping?_eq_some_iff {pos : Nat} {p : Piece} {e : Mapping} :
    p.mapping? source pos = some e ↔ p.text source ≠ [] ∧ p.origin? source = some e.source ∧
      e.generated = ⟨pos, pos + (p.text source).size⟩ := by
  unfold mapping?
  split
  · simp [*]
  · next hne =>
    rw [Option.map_eq_some_iff]
    constructor
    · rintro ⟨s, hs, rfl⟩
      exact ⟨hne, hs, rfl⟩
    · rintro ⟨-, hs, hg⟩
      exact ⟨_, hs, by rw [← hg]⟩

end Piece

/-- The entries of pieces whose code begins at `pos`. -/
def mappingsOf (source : Text) : Nat → List Piece → List Mapping
  | _, [] => []
  | pos, p :: pieces =>
    (p.mapping? source pos).toList ++ mappingsOf source (pos + (p.text source).size) pieces

/-- The map of the code that pieces make. -/
def pieceMap (source : Text) (pieces : List Piece) : SourceMap :=
  ⟨(mappingsOf source 0 pieces).toArray⟩

@[simp] lemma generatedCode_nil : generatedCode source [] = [] := rfl

@[simp] lemma generatedCode_cons (p : Piece) (pieces : List Piece) :
    generatedCode source (p :: pieces) = p.text source ++ generatedCode source pieces := by
  simp [generatedCode]

@[simp] lemma generatedCode_append (pieces pieces' : List Piece) :
    generatedCode source (pieces ++ pieces') =
      generatedCode source pieces ++ generatedCode source pieces' := by
  simp [generatedCode]

lemma generatedCode_isInfix {pieces pieces' : List Piece} (h : pieces <:+: pieces') :
    generatedCode source pieces <:+: generatedCode source pieces' := by
  obtain ⟨before, after, rfl⟩ := h
  exact ⟨generatedCode source before, generatedCode source after, by simp⟩

lemma mappingsOf_append (pos : Nat) (pieces pieces' : List Piece) :
    mappingsOf source pos (pieces ++ pieces') =
      mappingsOf source pos pieces ++
        mappingsOf source (pos + (generatedCode source pieces).size) pieces' := by
  induction pieces generalizing pos with
  | nil => simp [mappingsOf]
  | cons p pieces ih => simp [mappingsOf, ih, Nat.add_assoc]

/-! ### The map under construction -/

namespace SourceMap.Builder

lemma record_eq {b : Builder} {s : Span} {text : Text}
    (h : b.generated + text.size ≤ Offset.limit) :
    b.record s text =
      .ok ⟨if text = [] then b.mappings
        else b.mappings.push ⟨⟨b.generated, b.generated + text.size⟩, s⟩,
        b.generated + text.size⟩ := by
  have hiff : text.size = 0 ↔ text = [] :=
    ⟨Text.eq_nil_of_size_eq_zero, fun h => by simp [h]⟩
  have hindex : Offset.ofIndex text.size = text.size := Offset.ofIndex_eq (by omega)
  have hadd : Offset.add b.generated text.size = .ok (b.generated + text.size) :=
    Offset.add_eq_ok_iff.mpr ⟨rfl, h⟩
  simp [record, hindex, hadd, hiff, bind, Except.bind, pure, Except.pure]

/-- One piece more is one entry more, if it has one. -/
lemma add_chunk {b : Builder} {p : Piece} (hp : p.Bounded source)
    (h : b.generated + (p.text source).size ≤ Offset.limit) :
    ∃ c, p.chunk source = .ok c ∧
      b.add c = .ok ⟨b.mappings ++ (p.mapping? source b.generated).toList.toArray,
        b.generated + (p.text source).size⟩ := by
  have hindex : Offset.ofIndex (p.text source).size = (p.text source).size :=
    Offset.ofIndex_eq (by omega)
  have hentry (s : Span) (hs : p.origin? source = some s) :
      b.record s (p.text source) =
        .ok ⟨b.mappings ++ (p.mapping? source b.generated).toList.toArray,
          b.generated + (p.text source).size⟩ := by
    rw [record_eq h, Piece.mapping?, hs]
    split <;> simp
  -- copied text takes its span from its size
  have hcopied (start : Nat) (hs : p.origin? source = some ⟨start, start + (p.text source).size⟩)
      (hle : start + (p.text source).size ≤ Offset.limit) :
      b.add (.copied start (p.text source)) =
        .ok ⟨b.mappings ++ (p.mapping? source b.generated).toList.toArray,
          b.generated + (p.text source).size⟩ := by
    have hadd : Offset.add start (p.text source).size = .ok (start + (p.text source).size) :=
      Offset.add_eq_ok_iff.mpr ⟨rfl, hle⟩
    simp only [add, hindex, hadd, bind, Except.bind]
    exact hentry _ hs
  cases p with
  | copied s => exact ⟨_, rfl, hcopied s.start rfl hp⟩
  | clipped s =>
    have hsub : Offset.sub s.stop 1 = .ok (s.stop - 1) := Offset.sub_eq_ok_iff.mpr ⟨rfl, hp.1⟩
    refine ⟨_, ?_, hcopied s.start rfl hp.2⟩
    simp [Piece.chunk, Span.dropLast, hsub, bind, Except.bind, pure, Except.pure, Piece.text]
  | derived s text => exact ⟨_, rfl, hentry s rfl⟩
  | synthetic text =>
    have hadd : Offset.add b.generated text.size = .ok (b.generated + text.size) :=
      Offset.add_eq_ok_iff.mpr ⟨rfl, h⟩
    have hnone : (Piece.synthetic text).mapping? source b.generated = none := by
      simp [Piece.mapping?, Piece.origin?]
    refine ⟨_, rfl, ?_⟩
    simp only [Piece.text] at hindex
    simp [add, hindex, hadd, hnone, bind, Except.bind, pure, Except.pure, Piece.text]

lemma foldlM_add {b : Builder} {pieces : List Piece} (hp : ∀ p ∈ pieces, p.Bounded source)
    (h : b.generated + (generatedCode source pieces).size ≤ Offset.limit) :
    ∃ chunks, pieces.mapM (Piece.chunk source) = .ok chunks ∧
      chunks.foldlM add b = .ok ⟨b.mappings ++ (mappingsOf source b.generated pieces).toArray,
        b.generated + (generatedCode source pieces).size⟩ := by
  induction pieces generalizing b with
  | nil => exact ⟨[], rfl, by simp [mappingsOf, pure, Except.pure]⟩
  | cons p pieces ih =>
    rw [generatedCode_cons, Text.size_append] at h
    obtain ⟨c, hc, hadd⟩ := add_chunk (b := b) (hp p (by simp)) (by omega)
    obtain ⟨chunks, hchunks, hrest⟩ :=
      ih (b := ⟨b.mappings ++ (p.mapping? source b.generated).toList.toArray,
        b.generated + (p.text source).size⟩) (fun q hq => hp q (by simp [hq])) (by simp only; omega)
    refine ⟨c :: chunks, ?_, ?_⟩
    · simp [List.mapM_cons, hc, hchunks, bind, Except.bind, pure, Except.pure]
    · rw [List.foldlM_cons, hadd]
      simp only [bind, Except.bind, hrest, mappingsOf, generatedCode_cons, Text.size_append]
      rw [Array.append_assoc, ← List.append_toArray, Nat.add_assoc]

end SourceMap.Builder

/-- **The map of pieces** has the entries of the pieces. -/
theorem SourceMap.ofPieces_eq {pieces : List Piece} (hp : ∀ p ∈ pieces, p.Bounded source)
    (h : (generatedCode source pieces).size ≤ Offset.limit) :
    SourceMap.ofPieces source pieces = .ok (pieceMap source pieces) := by
  obtain ⟨chunks, hchunks, hfold⟩ :=
    SourceMap.Builder.foldlM_add (b := .empty) hp (by simpa [Builder.empty] using h)
  simp only [ofPieces, ofChunks, hchunks, hfold, bind, Except.bind, pure, Except.pure]
  simp [Builder.build, Builder.empty, pieceMap]

/-! ### Pieces over any text -/

lemma Span.start_add_size_slice_le {s : Span} (h : s.start ≤ s.stop) (source : Text) :
    s.start + (s.slice source).size ≤ s.stop := by
  cases hslice : source.slice? s.start s.stop with
  | none => simpa [Span.slice, hslice] using h
  | some t =>
    have hstop := Text.size_of_slice? hslice
    simp only [Span.slice, hslice, Option.getD_some]
    omega

namespace Piece

/-- The piece was made for a span whose ends are in order and can be stored, whatever text it is
laid over. -/
def Proper : Piece → Prop
  | .copied s | .derived s _ => s.Proper
  | .clipped s => 0 < s.stop ∧ Span.Proper ⟨s.start, s.stop - 1⟩
  | .synthetic _ => True

variable {p : Piece}

lemma Proper.bounded (h : p.Proper) (source : Text) : p.Bounded source := by
  cases p with
  | copied s =>
    have := Span.start_add_size_slice_le h.1 source
    exact Nat.le_trans this h.2
  | clipped s =>
    have := Span.start_add_size_slice_le h.2.1 source
    exact ⟨h.1, Nat.le_trans this h.2.2⟩
  | derived => trivial
  | synthetic => trivial

lemma Proper.origin (h : p.Proper) {s : Span} (hs : p.origin? source = some s) : s.Proper := by
  have hbounded := h.bounded source
  cases p with
  | copied =>
    cases hs
    exact ⟨Nat.le_add_right _ _, hbounded⟩
  | clipped =>
    cases hs
    exact ⟨Nat.le_add_right _ _, hbounded.2⟩
  | derived =>
    cases hs
    exact h
  | synthetic => cases hs

end Piece

/-! ### Order -/

lemma mappingsOf_bounds {pos : Nat} {pieces : List Piece} :
    ∀ e ∈ mappingsOf source pos pieces,
      pos ≤ e.generated.start ∧ e.generated.start < e.generated.stop := by
  induction pieces generalizing pos with
  | nil => simp [mappingsOf]
  | cons p pieces ih =>
    intro e he
    rcases List.mem_append.mp he with he | he
    · obtain ⟨hne, -, hg⟩ := Piece.mapping?_eq_some_iff.mp (Option.mem_toList.mp he)
      have := mt Text.eq_nil_of_size_eq_zero hne
      rw [hg]
      exact ⟨Nat.le_refl _, by simp only; omega⟩
    · have := ih e he
      omega

lemma mappingsOf_pairwise (pos : Nat) (pieces : List Piece) :
    (mappingsOf source pos pieces).Pairwise fun e f => e.generated.stop ≤ f.generated.start := by
  induction pieces generalizing pos with
  | nil => exact .nil
  | cons p pieces ih =>
    refine List.pairwise_append.mpr ⟨?_, ih _, fun e he f hf => ?_⟩
    · cases p.mapping? source pos <;> simp
    · obtain ⟨-, -, hg⟩ := Piece.mapping?_eq_some_iff.mp (Option.mem_toList.mp he)
      rw [hg]
      exact (mappingsOf_bounds f hf).1

lemma pieceMap_ordered (pieces : List Piece) : (pieceMap source pieces).Ordered :=
  ⟨fun e he => (mappingsOf_bounds e he).2, mappingsOf_pairwise 0 pieces⟩

lemma exists_of_mem_mappingsOf {e : Mapping} {pos : Nat} {pieces : List Piece}
    (h : e ∈ mappingsOf source pos pieces) :
    ∃ before p after, pieces = before ++ p :: after ∧
      p.mapping? source (pos + (generatedCode source before).size) = some e := by
  induction pieces generalizing pos with
  | nil => simp [mappingsOf] at h
  | cons p pieces ih =>
    rcases List.mem_append.mp h with h | h
    · exact ⟨[], p, pieces, rfl, by simpa using h⟩
    · obtain ⟨before, q, after, rfl, hq⟩ := ih h
      exact ⟨p :: before, q, after, rfl, by simpa [Nat.add_assoc] using hq⟩

lemma exists_of_mem_pieceMap {e : Mapping} {pieces : List Piece}
    (h : e ∈ (pieceMap source pieces).mappings.toList) :
    ∃ before p after, pieces = before ++ p :: after ∧
      p.mapping? source (generatedCode source before).size = some e ∧
      (generatedCode source pieces).slice? e.generated.start e.generated.stop =
        some (p.text source) := by
  obtain ⟨before, p, after, rfl, hentry⟩ := exists_of_mem_mappingsOf h
  rw [Nat.zero_add] at hentry
  refine ⟨before, p, after, rfl, hentry, ?_⟩
  rw [(Piece.mapping?_eq_some_iff.mp hentry).2.2, generatedCode_append, generatedCode_cons,
    ← List.append_assoc]
  exact Text.slice?_append _ _ _

lemma pieceMap_proper {pieces : List Piece} (hp : ∀ p ∈ pieces, p.Proper)
    (hsize : (generatedCode source pieces).size ≤ Offset.limit) :
    ∀ e ∈ (pieceMap source pieces).mappings.toList, e.Proper := by
  intro e he
  obtain ⟨before, p, after, rfl, hentry, hslice⟩ := exists_of_mem_pieceMap he
  have horigin := (Piece.mapping?_eq_some_iff.mp hentry).2.1
  exact ⟨Span.Fits.proper ⟨_, hslice⟩ hsize, (hp p (by simp)).origin horigin⟩

lemma mem_pieceMap {before after : List Piece} {p : Piece} {e : Mapping}
    (h : p.mapping? source (generatedCode source before).size = some e) :
    e ∈ (pieceMap source (before ++ p :: after)).mappings.toList := by
  simp [pieceMap, mappingsOf_append, mappingsOf, h]

/-! ### Pieces that fit the source -/

namespace Piece

/-- The span of the source that a piece was made for. -/
def span? : Piece → Option Span
  | .copied s | .derived s _ => some s
  | .clipped s => some ⟨s.start, s.stop - 1⟩
  | .synthetic _ => none

/-- The source has what the piece was made for, and it is not made for nothing. -/
def Fits (source : Text) : Piece → Prop
  | .copied s => s.Fits source
  | .clipped s => s.start < s.stop ∧ Span.Fits ⟨s.start, s.stop - 1⟩ source
  | .derived s text => s.Fits source ∧ text ≠ []
  | .synthetic _ => True

variable {p : Piece}

lemma Fits.proper (h : p.Fits source) (hsource : source.size ≤ Offset.limit) : p.Proper := by
  cases p with
  | copied s => exact Span.Fits.proper h hsource
  | clipped s => exact ⟨by have := h.1; omega, h.2.proper hsource⟩
  | derived s text => exact h.1.proper hsource
  | synthetic => trivial

lemma Fits.span_fits (h : p.Fits source) {s : Span} (hs : p.span? = some s) : s.Fits source := by
  cases p <;> cases hs
  · exact h
  · exact h.2
  · exact h.1

lemma Fits.origin?_eq (h : p.Fits source) : p.origin? source = p.span? := by
  cases p with
  | copied s =>
    have := h.start_le
    have hstop : s.start + (s.slice source).size = s.stop := by rw [h.size_slice]; omega
    simp [origin?, span?, text, hstop]
  | clipped s =>
    have hle : s.start ≤ s.stop - 1 := h.2.start_le
    have hstop : s.start + (Span.slice ⟨s.start, s.stop - 1⟩ source).size = s.stop - 1 := by
      rw [h.2.size_slice]
      simp only
      omega
    simp [origin?, span?, text, hstop]
  | derived => rfl
  | synthetic => rfl

lemma Fits.text_ne_nil (h : p.Fits source) {s : Span} (hs : p.span? = some s)
    (hlt : s.start < s.stop) : p.text source ≠ [] := by
  cases p with
  | derived => exact h.2
  | synthetic => cases hs
  | _ t =>
    cases hs
    have hsize := (h.span_fits rfl).size_slice
    intro hnil
    rw [show Span.slice _ source = [] from hnil] at hsize
    simp only [Text.size_nil] at hsize hlt
    omega

end Piece

lemma exists_mem_pieceMap {pieces : List Piece} {p : Piece} {s : Span} {x : Nat}
    (hmem : p ∈ pieces) (hp : p.Fits source) (hs : p.span? = some s) (hx : s.contains x = true) :
    ∃ e ∈ (pieceMap source pieces).mappings, e.source.contains x = true := by
  obtain ⟨before, after, rfl⟩ := List.append_of_mem hmem
  have hlt : s.start < s.stop := by
    rw [Span.contains_iff] at hx
    omega
  refine ⟨⟨_, s⟩, Array.mem_toList_iff.mp (mem_pieceMap (Piece.mapping?_eq_some_iff.mpr
    ⟨?_, ?_, rfl⟩)), hx⟩
  · exact hp.text_ne_nil hs hlt
  · rw [hp.origin?_eq, hs]

/-- Somewhere in the code stands the source under the span, and the map leads from each offset
there to where it came from. -/
def Span.Preserved (source code : Text) (map : SourceMap) (s : Span) : Prop :=
  ∃ g text, source.slice? s.start s.stop = some text ∧
    code.slice? g (g + (s.stop - s.start)) = some text ∧
    ∀ k < s.stop - s.start, map.sourceOffset? (g + k) = .ok (some (s.start + k))

/-- **A copy is found again**, and so is every part of what was copied. -/
theorem preserved_of_copied {pieces : List Piece} {s t : Span}
    (hsource : source.size ≤ Offset.limit) (hmem : .copied s ∈ pieces) (hs : s.Fits source)
    (ht : t.Fits source) (hstart : s.start ≤ t.start) (hstop : t.stop ≤ s.stop) :
    t.Preserved source (generatedCode source pieces) (pieceMap source pieces) := by
  obtain ⟨before, after, rfl⟩ := List.append_of_mem hmem
  refine ⟨(generatedCode source before).size + (t.start - s.start), t.slice source,
    ht.slice?_eq, ?_, fun k hk => ?_⟩
  · rw [generatedCode_append, generatedCode_cons, ← List.append_assoc]
    exact Span.slice?_of_copy hs ht hstart hstop
  · have hsize := hs.size_slice
    let pos := (generatedCode source before).size
    let e : Mapping := ⟨⟨pos, pos + (s.slice source).size⟩, s⟩
    -- the whole copy has one entry, and the part is as far inside of it as in the source
    have he : e ∈ (pieceMap source (before ++ .copied s :: after)).mappings.toList := by
      refine mem_pieceMap (Piece.mapping?_eq_some_iff.mpr ⟨?_, ?_, rfl⟩)
      · exact Piece.Fits.text_ne_nil (p := .copied s) hs rfl (by omega)
      · exact Piece.Fits.origin?_eq (p := .copied s) hs
    have := (pieceMap_ordered _).sourceOffset?_eq (k := t.start - s.start + k) he
      (by simp only [e]; omega) (hs.proper hsource).2 (by simp only [e]; omega)
    rw [show t.start + k = s.start + (t.start - s.start + k) by omega, Nat.add_assoc]
    exact this

end TsxLowering
