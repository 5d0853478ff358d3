import Mathlib.Data.List.Forall2
import TsxLowering.Proofs.LineIndex
import TsxLowering.SourceMap.Segments

/-!
A source map by lines and columns says the same as the map by offsets.

The segments stand in the order of the generated text, one for each entry of the map and one
more for each line that starts inside of copied text. A reader of the map takes the last segment
before a position on its line and counts on from there. Inside of text of the same length as its
source that leads to the source position of the offset, provided that both have the same shape:
line feeds in the same places, and as many bytes and units for each character. Main statement:
`SourceMap.refines_segments`.
-/

namespace TsxLowering

section Forall₂

variable {α β : Type} {R : α → β → Prop} {xs : List α} {ys : List β}

lemma mapM_forall₂ {ε : Type} {f : α → Except ε β} (h : ∀ x ∈ xs, ∃ y, f x = .ok y ∧ R x y) :
    ∃ ys, xs.mapM f = .ok ys ∧ List.Forall₂ R xs ys := by
  induction xs with
  | nil => exact ⟨[], rfl, .nil⟩
  | cons x xs ih =>
    obtain ⟨y, hy, hxy⟩ := h x (by simp)
    obtain ⟨ys, hys, hrest⟩ := ih fun x hx => h x (by simp [hx])
    exact ⟨y :: ys, by simp [List.mapM_cons, hy, hys, bind, Except.bind, pure, Except.pure],
      .cons hxy hrest⟩

lemma mapM_some_forall₂ {ε : Type} {f : α → Except ε (Option β)}
    (h : ∀ x ∈ xs, ∃ y, f x = .ok (some y) ∧ R x y) :
    ∃ ys, xs.mapM f = .ok (ys.map some) ∧ List.Forall₂ R xs ys := by
  induction xs with
  | nil => exact ⟨[], rfl, .nil⟩
  | cons x xs ih =>
    obtain ⟨y, hy, hxy⟩ := h x (by simp)
    obtain ⟨ys, hys, hrest⟩ := ih fun x hx => h x (by simp [hx])
    exact ⟨y :: ys, by simp [List.mapM_cons, hy, hys, bind, Except.bind, pure, Except.pure],
      .cons hxy hrest⟩

lemma exists_of_forall₂_left (h : List.Forall₂ R xs ys) : ∀ x ∈ xs, ∃ y ∈ ys, R x y := by
  induction h with
  | nil => simp
  | cons hxy _ ih =>
    refine List.forall_mem_cons.mpr ⟨⟨_, by simp, hxy⟩, fun x hx => ?_⟩
    obtain ⟨y, hy, hxy⟩ := ih x hx
    exact ⟨y, by simp [hy], hxy⟩

lemma exists_of_forall₂_right (h : List.Forall₂ R xs ys) : ∀ y ∈ ys, ∃ x ∈ xs, R x y :=
  exists_of_forall₂_left (List.Forall₂.flip h)

lemma pairwise_of_forall₂ {S : α → α → Prop} {T : β → β → Prop} (h : List.Forall₂ R xs ys)
    (hxs : xs.Pairwise S)
    (hT : ∀ x ∈ xs, ∀ x' ∈ xs, ∀ y y', R x y → R x' y' → S x x' → T y y') : ys.Pairwise T := by
  induction h with
  | nil => exact .nil
  | @cons x y xs ys hxy hrest ih =>
    obtain ⟨hx, hxs⟩ := List.pairwise_cons.mp hxs
    refine .cons (fun y' hy' => ?_)
      (ih hxs fun x hx x' hx' => hT x (by simp [hx]) x' (by simp [hx']))
    obtain ⟨x', hx', hxy'⟩ := exists_of_forall₂_right hrest y' hy'
    exact hT x (by simp) x' (by simp [hx']) y y' hxy hxy' (hx x' hx')

end Forall₂

/-! ### Texts of the same shape -/

/-- Two characters that take up the same room in a text. -/
structure Alike (c d : Char) : Prop where
  bytes : c.utf8Size = d.utf8Size
  units : Text.charUnits c = Text.charUnits d
  newline : c = '\n' ↔ d = '\n'

lemma Alike.refl (c : Char) : Alike c c := ⟨rfl, rfl, Iff.rfl⟩

namespace Text

/-- One text can be put in the place of the other without a position changing. -/
def SameShape (s t : Text) : Prop := List.Forall₂ Alike s t

variable {s t : Text}

lemma SameShape.refl (s : Text) : SameShape s s := List.forall₂_same.mpr fun c _ => .refl c

lemma SameShape.size_eq (h : SameShape s t) : s.size = t.size := by
  induction h with
  | nil => rfl
  | cons hc _ ih => rw [size_cons, size_cons, hc.bytes, ih]

lemma SameShape.units_eq (h : SameShape s t) : (s.map charUnits).sum = (t.map charUnits).sum := by
  induction h with
  | nil => rfl
  | cons hc _ ih => rw [List.map_cons, List.map_cons, List.sum_cons, List.sum_cons, hc.units, ih]

lemma SameShape.mem_newline (h : SameShape s t) : '\n' ∈ s ↔ '\n' ∈ t := by
  induction h with
  | nil => rfl
  | cons hc _ ih => rw [List.mem_cons, List.mem_cons, ih, eq_comm, hc.newline, eq_comm]

lemma SameShape.append_left {u v : Text} (h : SameShape (u ++ v) t) :
    ∃ u' v', t = u' ++ v' ∧ SameShape u u' ∧ SameShape v v' := by
  refine ⟨t.take u.length, t.drop u.length, (List.take_append_drop _ _).symm, ?_, ?_⟩
  · simpa [SameShape] using List.forall₂_take u.length h
  · simpa [SameShape] using List.forall₂_drop u.length h

lemma SameShape.append_right {u v : Text} (h : SameShape s (u ++ v)) :
    ∃ u' v', s = u' ++ v' ∧ SameShape u' u ∧ SameShape v' v := by
  refine ⟨s.take u.length, s.drop u.length, (List.take_append_drop _ _).symm, ?_, ?_⟩
  · simpa [SameShape] using List.forall₂_take u.length h
  · simpa [SameShape] using List.forall₂_drop u.length h

lemma SameShape.newline_right {u v : Text} (h : SameShape s (u ++ '\n' :: v)) :
    ∃ u' v', s = u' ++ '\n' :: v' ∧ u'.size = u.size := by
  obtain ⟨u', v', rfl, hu, hv⟩ := h.append_right
  obtain ⟨c, v', hc, -, rfl⟩ := List.forall₂_cons_right_iff.mp hv
  rw [hc.newline.mpr rfl]
  exact ⟨u', v', rfl, hu.size_eq⟩

end Text

/-! ### Segments -/

/-- What the segments say about a generated position: the source position of the last segment
before it on its line, counted on by as many columns as lie between. -/
def Segment.resolve? (segments : List Segment) (p : Position) : Option Position :=
  (segments.filter fun s => s.generated.line = p.line && s.generated.column ≤ p.column).getLast?.map
    fun s => ⟨s.source.line, s.source.column + (p.column - s.generated.column)⟩

namespace Mapping

/-- A segment for the line that starts at a source offset inside the entry. -/
structure InnerSegment (generated source : Text) (m : Mapping) (n : Nat) (s : Segment) : Prop where
  generated : (LineIndex.ofText generated).unitPosition?
    (m.generated.start + (n - m.source.start)) = some s.generated
  source : (LineIndex.ofText source).unitPosition? n = some s.source
  generated_column : s.generated.column = 0
  source_column : s.source.column = 0

/-- The segments that an entry contributes: one at its start and, when both spans have the same
length, one for each source line that starts inside. -/
inductive Contributes (generated source : Text) (m : Mapping) : List Segment → Prop
  | intro {first : Segment} {starts : List Nat} {inner : List Segment}
      (first_generated :
        (LineIndex.ofText generated).unitPosition? m.generated.start = some first.generated)
      (first_source : (LineIndex.ofText source).unitPosition? m.source.start = some first.source)
      (mem_starts : ∀ n, n ∈ starts ↔ m.isVerbatim = .ok true ∧ m.source.start < n ∧
        n < m.source.stop ∧ source.StartsLine n)
      (ordered : starts.Pairwise (· < ·))
      (inner_segments : List.Forall₂ (m.InnerSegment generated source) starts inner) :
      Contributes generated source m (first :: inner)

end Mapping

/-- The segments give a source position for every offset of copied text, the one that the map
gives, and no entry of the map is without a segment. -/
structure SourceMap.Refines (generated source : Text) (map : SourceMap)
    (segments : List Segment) : Prop where
  increasing : segments.Pairwise fun s t => s.generated < t.generated
  complete : ∃ parts : List (List Segment), segments = parts.flatten ∧
    List.Forall₂ (Mapping.Contributes generated source) map.mappings.toList parts
  resolves : ∀ m ∈ map.mappings.toList, m.isVerbatim = .ok true → ∀ g, generated.Boundary g →
    m.generated.contains g = true → ∃ o p q, map.sourceOffset? g = .ok (some o) ∧
      (LineIndex.ofText generated).unitPosition? g = some p ∧
      (LineIndex.ofText source).unitPosition? o = some q ∧ Segment.resolve? segments p = some q

/-! ### The segments of one entry -/

namespace Mapping

/-- Both spans of the entry lie in their texts, which have the same shape there when they have the
same length. -/
structure Aligned (generated source : Text) (m : Mapping) : Prop where
  generated_fits : m.generated.Fits generated
  source_fits : m.source.Fits source
  sameShape : m.isVerbatim = .ok true →
    Text.SameShape (m.generated.slice generated) (m.source.slice source)

lemma isVerbatim_eq {m : Mapping} (hgenerated : m.generated.start ≤ m.generated.stop)
    (hsource : m.source.start ≤ m.source.stop) :
    m.isVerbatim = .ok
      (m.generated.stop - m.generated.start == m.source.stop - m.source.start) := by
  simp [isVerbatim, Span.length, Offset.sub, hgenerated, hsource, bind, Except.bind, pure,
    Except.pure]

variable {generated source : Text} {m : Mapping} {part : List Segment}

lemma Proper.isVerbatim_eq_ok (h : m.Proper) : ∃ b, m.isVerbatim = .ok b :=
  ⟨_, isVerbatim_eq h.generated.1 h.source.1⟩

lemma Proper.innerSegment?_eq_ok (h : m.Proper) (hverbatim : m.isVerbatim = .ok true)
    (generated source : LineIndex) {n : Nat} (hstart : m.source.start ≤ n)
    (hstop : n < m.source.stop) : ∃ s, m.innerSegment? generated source n = .ok s := by
  obtain ⟨⟨hgenerated, hlimit⟩, hsource, -⟩ := h
  have hlength : m.generated.stop - m.generated.start = m.source.stop - m.source.start := by
    rw [isVerbatim_eq hgenerated hsource] at hverbatim
    simpa using hverbatim
  have hsub : Offset.sub n m.source.start = .ok (n - m.source.start) :=
    Offset.sub_eq_ok_iff.mpr ⟨rfl, hstart⟩
  have hadd : Offset.add m.generated.start (n - m.source.start) =
      .ok (m.generated.start + (n - m.source.start)) :=
    Offset.add_eq_ok_iff.mpr ⟨rfl, by omega⟩
  simp [innerSegment?, hsub, hadd, bind, Except.bind, pure, Except.pure]

/-- **No offset overflows** on the way to the segments of an entry. -/
theorem Proper.segments_eq_ok (h : m.Proper) (generated source : Text) :
    ∃ segments, m.segments (.ofText generated) (.ofText source) = .ok segments := by
  unfold segments
  split
  · exact ⟨[], rfl⟩
  · obtain ⟨b, hb⟩ := h.isVerbatim_eq_ok
    cases b with
    | false => simp [hb, bind, Except.bind, pure, Except.pure]
    | true =>
      have hlines (n : Nat)
          (hn : n ∈ (LineIndex.ofText source).startsBetween m.source.start m.source.stop) :
          ∃ s, m.innerSegment? (.ofText generated) (.ofText source) n = .ok s ∧ True := by
        obtain ⟨hstart, hstop⟩ := LineIndex.startsBetween_bounds hn
        simpa using h.innerSegment?_eq_ok hb _ _ (Nat.le_of_lt hstart) hstop
      obtain ⟨inner, hinner, -⟩ := mapM_forall₂ (R := fun _ _ => True) hlines
      simp [hb, innerSegments, hinner, bind, Except.bind, pure, Except.pure]

lemma Aligned.exists_copy (h : m.Aligned generated source) (hverbatim : m.isVerbatim = .ok true) :
    ∃ u t v u' t' v' : Text, generated = u ++ t ++ v ∧ source = u' ++ t' ++ v' ∧
      m = ⟨⟨u.size, u.size + t.size⟩, ⟨u'.size, u'.size + t'.size⟩⟩ ∧ Text.SameShape t t' := by
  obtain ⟨u, v, hgenerated, hstart, hstop⟩ := Text.slice?_eq_some_iff.mp h.generated_fits.slice?_eq
  obtain ⟨u', v', hsource, hstart', hstop'⟩ := Text.slice?_eq_some_iff.mp h.source_fits.slice?_eq
  refine ⟨u, _, v, u', _, v', hgenerated, hsource, ?_, h.sameShape hverbatim⟩
  rw [← hstop, ← hstop', ← hstart, ← hstart']

lemma Aligned.length_eq (h : m.Aligned generated source) (hverbatim : m.isVerbatim = .ok true) :
    m.generated.stop - m.generated.start = m.source.stop - m.source.start := by
  rw [isVerbatim_eq h.generated_fits.start_le h.source_fits.start_le] at hverbatim
  simpa using hverbatim

lemma Aligned.startsLine (h : m.Aligned generated source) (hverbatim : m.isVerbatim = .ok true)
    {n : Nat} (hline : source.StartsLine n) (hstart : m.source.start < n)
    (hstop : n < m.source.stop) :
    generated.StartsLine (m.generated.start + (n - m.source.start)) := by
  obtain ⟨u, t, v, u', t', v', rfl, rfl, rfl, hshape⟩ := h.exists_copy hverbatim
  obtain ⟨before, after, he, rfl⟩ := hline
  simp only at hstart hstop ⊢
  -- the line feed is in the copied text
  rw [List.append_assoc] at he
  obtain ⟨a', rfl, he⟩ := Text.exists_append_of_size_le he (by omega)
  rw [Text.size_append] at hstop ⊢
  have hnewline : ∃ b', t' = a' ++ '\n' :: b' := by
    have he' : (a' ++ ['\n']) ++ after = t' ++ v' := by simpa using he.symm
    obtain ⟨b', rfl, -⟩ := Text.exists_append_of_size_le he' (by simp; omega)
    exact ⟨b', by simp⟩
  obtain ⟨b', rfl⟩ := hnewline
  obtain ⟨a, b, rfl, hsize⟩ := hshape.newline_right
  exact ⟨u ++ a, b ++ v, by simp, by rw [Text.size_append]; omega⟩

lemma Aligned.innerSegment (h : m.Aligned generated source) (hverbatim : m.isVerbatim = .ok true)
    (hgenerated : generated.size ≤ Offset.limit) (hsource : source.size ≤ Offset.limit) {n : Nat}
    (hline : source.StartsLine n) (hstart : m.source.start < n) (hstop : n < m.source.stop) :
    ∃ s : Segment, m.innerSegment? (.ofText generated) (.ofText source) n = .ok (some s) ∧
      m.InnerSegment generated source n s := by
  have hline' := h.startsLine hverbatim hline hstart hstop
  obtain ⟨p, hp, hbytes, hunits⟩ := LineIndex.positions_of_startsLine hgenerated hline'
  obtain ⟨q, hq, hbytes', hunits'⟩ := LineIndex.positions_of_startsLine hsource hline
  have hsub : Offset.sub n m.source.start = .ok (n - m.source.start) :=
    Offset.sub_eq_ok_iff.mpr ⟨rfl, Nat.le_of_lt hstart⟩
  have hadd : Offset.add m.generated.start (n - m.source.start) =
      .ok (m.generated.start + (n - m.source.start)) := by
    refine Offset.add_eq_ok_iff.mpr ⟨rfl, Nat.le_trans hline'.boundary.le_size hgenerated⟩
  refine ⟨⟨p, q⟩, ?_, ⟨hunits, hunits', hp, hq⟩⟩
  simp only [innerSegment?, hsub, hadd, bind, Except.bind, hbytes, hbytes']
  rfl

/-- **The segments of an entry**, none of which is left out. -/
theorem Aligned.contributes (h : m.Aligned generated source)
    (hgenerated : generated.size ≤ Offset.limit) (hsource : source.size ≤ Offset.limit) :
    ∃ part, m.segments (.ofText generated) (.ofText source) = .ok part ∧
      m.Contributes generated source part := by
  have hstart := h.source_fits.start_boundary
  obtain ⟨p, hp⟩ := LineIndex.exists_unitPosition? hgenerated h.generated_fits.start_boundary
  obtain ⟨q, hq⟩ := LineIndex.exists_unitPosition? hsource hstart
  have hfirst : Segment.ofPositions? (some p) (some q) = some ⟨p, q⟩ := rfl
  have hverbatim := isVerbatim_eq h.generated_fits.start_le h.source_fits.start_le
  cases hb : m.generated.stop - m.generated.start == m.source.stop - m.source.start with
  | false =>
    rw [hb] at hverbatim
    refine ⟨[⟨p, q⟩], ?_, .intro hp hq (fun n => ?_) .nil .nil⟩
    · simp [segments, hp, hq, hfirst, hverbatim, bind, Except.bind, pure, Except.pure]
    · simp [hverbatim]
  | true =>
    rw [hb] at hverbatim
    obtain ⟨inner, hinner, hsegments⟩ := mapM_some_forall₂ fun n hn => by
      obtain ⟨hlt, hstop, hline⟩ := (LineIndex.mem_startsBetween hsource).mp hn
      exact h.innerSegment hverbatim hgenerated hsource hline hlt hstop
    refine ⟨⟨p, q⟩ :: inner, ?_, .intro hp hq (fun n => ?_)
      (LineIndex.startsBetween_pairwise hsource m.source.start m.source.stop) hsegments⟩
    · simp [segments, innerSegments, hp, hq, hfirst, hverbatim, hinner, bind, Except.bind, pure,
        Except.pure]
    · rw [LineIndex.mem_startsBetween hsource, hverbatim]
      simp

lemma Contributes.exists_offset (hm : m.Contributes generated source part)
    (h : m.Aligned generated source) (hlt : m.generated.start < m.generated.stop) :
    ∀ s ∈ part, ∃ g, generated.Boundary g ∧
      (LineIndex.ofText generated).unitPosition? g = some s.generated ∧
      m.generated.start ≤ g ∧ g < m.generated.stop ∧
      (g = m.generated.start ∨ s.generated.column = 0) := by
  obtain ⟨hfirst, -, hstarts, -, hinner⟩ := hm
  refine List.forall_mem_cons.mpr ⟨?_, fun s hs => ?_⟩
  · exact ⟨_, h.generated_fits.start_boundary, hfirst, Nat.le_refl _, hlt, .inl rfl⟩
  · obtain ⟨n, hn, hs⟩ := exists_of_forall₂_right hinner s hs
    obtain ⟨hverbatim, hstart, hstop, hline⟩ := (hstarts n).mp hn
    have hlength := h.length_eq hverbatim
    exact ⟨_, (h.startsLine hverbatim hline hstart hstop).boundary, hs.generated,
      Nat.le_add_right _ _, by omega, .inr hs.generated_column⟩

lemma Contributes.pairwise (hm : m.Contributes generated source part)
    (h : m.Aligned generated source) (hgenerated : generated.size ≤ Offset.limit) :
    part.Pairwise fun s t => s.generated < t.generated := by
  obtain @⟨first, starts, inner, hfirst, -, hstarts, hordered, hinner⟩ := hm
  -- a line that starts inside of the source starts inside of the copy
  have hboundary (n : Nat) (hn : n ∈ starts) :
      generated.Boundary (m.generated.start + (n - m.source.start)) ∧ m.source.start < n := by
    obtain ⟨hverbatim, hstart, hstop, hline⟩ := (hstarts n).mp hn
    exact ⟨(h.startsLine hverbatim hline hstart hstop).boundary, hstart⟩
  refine .cons (fun t ht => ?_) (pairwise_of_forall₂ hinner hordered ?_)
  · obtain ⟨n, hn, ht⟩ := exists_of_forall₂_right hinner t ht
    obtain ⟨hb, hlt⟩ := hboundary n hn
    refine (LineIndex.unitPosition?_lt_iff hgenerated h.generated_fits.start_boundary hb hfirst
      ht.generated).mpr (by omega)
  · intro n hn n' hn' s t hs ht hlt
    obtain ⟨hb, hstart⟩ := hboundary n hn
    obtain ⟨hb', -⟩ := hboundary n' hn'
    exact (LineIndex.unitPosition?_lt_iff hgenerated hb hb' hs.generated ht.generated).mpr
      (by omega)

lemma Contributes.mem (hm : m.Contributes generated source part)
    (hverbatim : m.isVerbatim = .ok true) {k : Nat} {p q : Position}
    (hp : (LineIndex.ofText generated).unitPosition? (m.generated.start + k) = some p)
    (hq : (LineIndex.ofText source).unitPosition? (m.source.start + k) = some q)
    (hk : k = 0 ∨ source.StartsLine (m.source.start + k))
    (hlt : m.source.start + k < m.source.stop) : ⟨p, q⟩ ∈ part := by
  obtain @⟨first, starts, inner, hfirst, hfirst', hstarts, -, hinner⟩ := hm
  -- the segment at the start of the entry, or one at a line start inside
  rcases Nat.eq_zero_or_pos k with rfl | hpos
  · obtain rfl : p = first.generated := Option.some.inj (hp.symm.trans hfirst)
    obtain rfl : q = first.source := Option.some.inj (hq.symm.trans hfirst')
    exact List.mem_cons_self
  · have hline := hk.resolve_left (by omega)
    obtain ⟨s, hs, hinner⟩ := exists_of_forall₂_left hinner (m.source.start + k)
      ((hstarts _).mpr ⟨hverbatim, by omega, hlt, hline⟩)
    have hs' := hinner.generated
    rw [Nat.add_sub_cancel_left] at hs'
    obtain rfl : p = s.generated := Option.some.inj (hp.symm.trans hs')
    obtain rfl : q = s.source := Option.some.inj (hq.symm.trans hinner.source)
    exact List.mem_cons_of_mem _ hs

lemma Aligned.exists_lastLine (h : m.Aligned generated source)
    (hverbatim : m.isVerbatim = .ok true) {g : Nat} (hboundary : generated.Boundary g)
    (hcontains : m.generated.contains g = true) :
    ∃ u a l w u' a' l' w' : Text, generated = u ++ a ++ l ++ w ∧ source = u' ++ a' ++ l' ++ w' ∧
      m.generated.start = u.size ∧ m.source.start = u'.size ∧ g = (u ++ a ++ l).size ∧
      Text.SameShape a a' ∧ Text.SameShape l l' ∧ '\n' ∉ l' ∧
      (a' = [] ∨ ∃ b, a' = b ++ ['\n']) := by
  obtain ⟨u, t, v, u', t', v', rfl, rfl, rfl, hshape⟩ := h.exists_copy hverbatim
  obtain ⟨hstart, hstop⟩ := Span.contains_iff.mp hcontains
  simp only at hstart hstop ⊢
  obtain ⟨x, y, rfl, rfl⟩ : ∃ x y, t = x ++ y ∧ g = u.size + x.size := by
    obtain ⟨before, after, he, rfl⟩ := hboundary
    rw [List.append_assoc] at he
    obtain ⟨x, rfl, hx⟩ := Text.exists_append_of_size_le he hstart
    rw [Text.size_append] at hstop ⊢
    obtain ⟨y, rfl, -⟩ := Text.exists_append_of_size_le hx.symm (by omega)
    exact ⟨x, y, rfl, rfl⟩
  obtain ⟨x', y', rfl, hx, -⟩ := hshape.append_left
  -- the line is taken from the source, where segments are put at the starts of lines
  obtain ⟨a', l', rfl, hl', ha'⟩ := x'.exists_lastLine
  obtain ⟨a, l, rfl, ha, hl⟩ := hx.append_right
  exact ⟨u, a, l, y ++ v, u', a', l', y' ++ v', by simp, by simp, rfl, rfl, by simp, ha, hl, hl',
    ha'⟩

/-- Up to an offset in copied text, from the start of its line or of the text, both the text and its
source run on in the same columns. -/
lemma Aligned.exists_lineStart (h : m.Aligned generated source)
    (hverbatim : m.isVerbatim = .ok true) (hgenerated : generated.size ≤ Offset.limit)
    (hsource : source.size ≤ Offset.limit) {g : Nat} (hboundary : generated.Boundary g)
    (hcontains : m.generated.contains g = true) :
    ∃ (k columns : Nat) (p q : Position), m.generated.start + k ≤ g ∧
      generated.Boundary (m.generated.start + k) ∧
      (k = 0 ∨ source.StartsLine (m.source.start + k)) ∧
      (LineIndex.ofText generated).unitPosition? (m.generated.start + k) = some p ∧
      (LineIndex.ofText source).unitPosition? (m.source.start + k) = some q ∧
      (LineIndex.ofText generated).unitPosition? g = some ⟨p.line, p.column + columns⟩ ∧
      (LineIndex.ofText source).unitPosition? (m.source.start + (g - m.generated.start)) =
        some ⟨q.line, q.column + columns⟩ := by
  obtain ⟨u, a, l, w, u', a', l', w', rfl, rfl, hstart, hstart', rfl, ha, hl, hl', ha'⟩ :=
    h.exists_lastLine hverbatim hboundary hcontains
  have hnewline : '\n' ∉ l := mt hl.mem_newline.mp hl'
  obtain ⟨p, hp, hpg⟩ := LineIndex.unitPosition?_line hgenerated hnewline
  obtain ⟨q, hq, hqo⟩ := LineIndex.unitPosition?_line hsource hl'
  rw [← hl.units_eq] at hqo
  have hk : m.generated.start + a.size = (u ++ a).size := by rw [hstart, Text.size_append]
  have hk' : m.source.start + a.size = (u' ++ a').size := by
    rw [hstart', Text.size_append, ha.size_eq]
  have hoffset : m.source.start + ((u ++ a ++ l).size - m.generated.start) =
      (u' ++ a' ++ l').size := by
    simp only [Text.size_append, hstart, hstart', ha.size_eq, hl.size_eq]
    omega
  -- behind `a` starts the line, or the copied text if `a` is empty
  refine ⟨a.size, _, p, q, ?_, ?_, ?_, hk ▸ hp, hk' ▸ hq, hpg, hoffset ▸ hqo⟩
  · rw [hk, Text.size_append (u ++ a)]
    exact Nat.le_add_right _ _
  · exact ⟨u ++ a, l ++ w, by simp, hk⟩
  · rcases ha' with rfl | ⟨b, rfl⟩
    · left
      rw [ha.size_eq]
      rfl
    · right
      exact ⟨u' ++ b, l' ++ w', by simp, by rw [hk']; simp [Nat.add_assoc]⟩

end Mapping

/-! ### The segments of a map -/

namespace SourceMap

variable {generated source : Text} {map : SourceMap} {parts : List (List Segment)}

lemma segments_eq_ok (h : ∀ m ∈ map.mappings.toList, m.Proper) (generated source : Text) :
    ∃ segments, map.segments generated source = .ok segments := by
  obtain ⟨parts, hparts, -⟩ := mapM_forall₂ (R := fun _ _ => True) fun m hm => by
    obtain ⟨part, hpart⟩ := (h m hm).segments_eq_ok generated source
    exact ⟨part, hpart, trivial⟩
  exact ⟨parts.flatten, by simp [segments, hparts, bind, Except.bind, pure, Except.pure]⟩

lemma segments_eq_flatten (h : ∀ m ∈ map.mappings.toList, m.Aligned generated source)
    (hgenerated : generated.size ≤ Offset.limit) (hsource : source.size ≤ Offset.limit) :
    ∃ parts : List (List Segment), map.segments generated source = .ok parts.flatten ∧
      List.Forall₂ (Mapping.Contributes generated source) map.mappings.toList parts := by
  obtain ⟨parts, hparts, hcontributes⟩ := mapM_forall₂ fun m hm =>
    (h m hm).contributes hgenerated hsource
  exact ⟨parts, by simp [segments, hparts, bind, Except.bind, pure, Except.pure], hcontributes⟩

/-- **Segments follow each other** in the generated text. -/
theorem segments_pairwise (hordered : map.Ordered)
    (h : ∀ m ∈ map.mappings.toList, m.Aligned generated source)
    (hgenerated : generated.size ≤ Offset.limit)
    (hparts : List.Forall₂ (Mapping.Contributes generated source) map.mappings.toList parts) :
    parts.flatten.Pairwise fun s t => s.generated < t.generated := by
  refine List.pairwise_flatten.mpr ⟨fun part hpart => ?_, pairwise_of_forall₂ hparts
    hordered.pairwise fun m hm m' hm' part part' hc hc' hle s hs t ht => ?_⟩
  · obtain ⟨m, hm, hc⟩ := exists_of_forall₂_right hparts part hpart
    exact hc.pairwise (h m hm) hgenerated
  · obtain ⟨g, hb, hs, -, hstop, -⟩ := hc.exists_offset (h m hm) (hordered.lt m hm) s hs
    obtain ⟨g', hb', ht, hstart, -, -⟩ := hc'.exists_offset (h m' hm') (hordered.lt m' hm') t ht
    exact (LineIndex.unitPosition?_lt_iff hgenerated hb hb' hs ht).mpr (by omega)

lemma getLast?_filter {α : Type} {R : α → α → Prop} {xs : List α} {p : α → Bool} {x : α}
    (h : xs.Pairwise R) (hx : x ∈ xs) (hp : p x = true)
    (hlast : ∀ y ∈ xs, R x y → p y = false) : (xs.filter p).getLast? = some x := by
  obtain ⟨before, after, rfl⟩ := List.append_of_mem hx
  have hafter : after.filter p = [] := by
    refine List.filter_eq_nil_iff.mpr fun y hy => ?_
    have := (List.pairwise_cons.mp (List.pairwise_append.mp h).2.1).1 y hy
    simp [hlast y (by simp [hy]) this]
  rw [List.filter_append, List.filter_cons_of_pos hp, hafter]
  simp

/-- A segment decides about the positions behind it on its line up to the next segment. -/
lemma resolve?_eq {segments : List Segment} {p q : Position} {columns : Nat}
    (hpairwise : segments.Pairwise fun s t => s.generated < t.generated)
    (hmem : ⟨p, q⟩ ∈ segments)
    (hlast : ∀ t ∈ segments, p < t.generated → ⟨p.line, p.column + columns⟩ < t.generated) :
    Segment.resolve? segments ⟨p.line, p.column + columns⟩ =
      some ⟨q.line, q.column + columns⟩ := by
  have hgetLast := getLast?_filter (p := fun s : Segment =>
    s.generated.line = p.line && s.generated.column ≤ p.column + columns) hpairwise hmem
    (by simp) fun t ht hlt => by
      have hlater := hlast t ht hlt
      simp only [Position.lt_iff] at hlater
      simp only [Bool.and_eq_false_iff, decide_eq_false_iff_not]
      omega
  rw [Segment.resolve?, hgetLast]
  simp

lemma lt_segment (hordered : map.Ordered)
    (h : ∀ m ∈ map.mappings.toList, m.Aligned generated source)
    (hgenerated : generated.size ≤ Offset.limit)
    (hparts : List.Forall₂ (Mapping.Contributes generated source) map.mappings.toList parts)
    {m : Mapping} (hm : m ∈ map.mappings.toList) {a g : Nat} {s p : Position}
    (ha : generated.Boundary a) (hg : generated.Boundary g)
    (hs : (LineIndex.ofText generated).unitPosition? a = some s)
    (hp : (LineIndex.ofText generated).unitPosition? g = some p) (hline : s.line = p.line)
    (hstart : m.generated.start ≤ a) (hstop : g < m.generated.stop) :
    ∀ t ∈ parts.flatten, s < t.generated → p < t.generated := by
  intro t ht hst
  obtain ⟨part, hpart, ht⟩ := List.mem_flatten.mp ht
  obtain ⟨m', hm', hc⟩ := exists_of_forall₂_right hparts part hpart
  obtain ⟨b, hb, htb, hstart', hstop', hplace⟩ :=
    hc.exists_offset (h m' hm') (hordered.lt m' hm') t ht
  have hab := (LineIndex.unitPosition?_lt_iff hgenerated ha hb hs htb).mp hst
  refine Decidable.byContradiction fun hnot => ?_
  have hbg : b ≤ g :=
    Nat.le_of_not_lt (mt (LineIndex.unitPosition?_lt_iff hgenerated hg hb hp htb).mpr hnot)
  rcases hplace with rfl | hcolumn
  · -- no other entry starts inside of this one
    have hfind : map.find? m'.generated.start = some m :=
      hordered.find?_eq_some_iff.mpr ⟨hm, Span.contains_iff.mpr ⟨by omega, by omega⟩⟩
    have hfind' : map.find? m'.generated.start = some m' :=
      hordered.find?_eq_some_iff.mpr ⟨hm', Span.contains_iff.mpr ⟨by omega, by omega⟩⟩
    obtain rfl : m = m' := Option.some.inj (hfind.symm.trans hfind')
    omega
  · rw [Position.lt_iff] at hst hnot
    omega

/-- **Copied text resolves** to where the map by offsets leads. -/
theorem resolve?_of_verbatim (hordered : map.Ordered)
    (h : ∀ m ∈ map.mappings.toList, m.Aligned generated source)
    (hgenerated : generated.size ≤ Offset.limit) (hsource : source.size ≤ Offset.limit)
    (hparts : List.Forall₂ (Mapping.Contributes generated source) map.mappings.toList parts)
    {m : Mapping} (hm : m ∈ map.mappings.toList) (hverbatim : m.isVerbatim = .ok true) {g : Nat}
    (hboundary : generated.Boundary g) (hcontains : m.generated.contains g = true) :
    ∃ o p q, map.sourceOffset? g = .ok (some o) ∧
      (LineIndex.ofText generated).unitPosition? g = some p ∧
      (LineIndex.ofText source).unitPosition? o = some q ∧
      Segment.resolve? parts.flatten p = some q := by
  obtain ⟨hstart, hstop⟩ := Span.contains_iff.mp hcontains
  have hlength := (h m hm).length_eq hverbatim
  obtain ⟨k, columns, p, q, hle, hk, hline, hp, hq, hpg, hqo⟩ :=
    (h m hm).exists_lineStart hverbatim hgenerated hsource hboundary hcontains
  obtain ⟨part, hpart, hc⟩ := exists_of_forall₂_left hparts m hm
  -- the segment at the start of the line of `g`, or of the entry if that comes later
  have hmem : ⟨p, q⟩ ∈ parts.flatten :=
    List.mem_flatten.mpr ⟨part, hpart, hc.mem hverbatim hp hq hline (by omega)⟩
  have hoffset : map.sourceOffset? g = .ok (some (m.source.start + (g - m.generated.start))) := by
    have hlimit := ((h m hm).source_fits.proper hsource).2
    have := hordered.sourceOffset?_eq (k := g - m.generated.start) hm (by omega) hlimit (by omega)
    rwa [Nat.add_sub_cancel' hstart] at this
  refine ⟨_, _, _, hoffset, hpg, hqo, ?_⟩
  exact resolve?_eq (segments_pairwise hordered h hgenerated hparts) hmem
    (lt_segment hordered h hgenerated hparts hm hk hboundary hp hpg rfl (Nat.le_add_right _ _)
      hstop)

/-- **The map by lines and columns refines the map by offsets.** -/
theorem refines_segments (hordered : map.Ordered)
    (h : ∀ m ∈ map.mappings.toList, m.Aligned generated source)
    (hgenerated : generated.size ≤ Offset.limit) (hsource : source.size ≤ Offset.limit) :
    ∃ segments, map.segments generated source = .ok segments ∧
      map.Refines generated source segments := by
  obtain ⟨parts, hsegments, hparts⟩ := segments_eq_flatten h hgenerated hsource
  exact ⟨_, hsegments, segments_pairwise hordered h hgenerated hparts, ⟨parts, rfl, hparts⟩,
    fun m hm hverbatim g hg hcontains =>
      resolve?_of_verbatim hordered h hgenerated hsource hparts hm hverbatim hg hcontains⟩

end SourceMap

end TsxLowering
