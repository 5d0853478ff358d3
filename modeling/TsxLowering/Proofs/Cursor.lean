import TsxLowering.Cursor
import TsxLowering.Proofs.Boundary

/-!
Cursors that stand in a source.

Every reader moves a cursor forward by whole characters, so that what it has passed lies
between two boundaries of the source. That is said once here, for any two cursors of which one
is reached from the other.
-/

namespace TsxLowering

variable {source : Text}

/-- The stored text is the source under the span. -/
def Excerpt.Faithful (source : Text) (e : Excerpt) : Prop :=
  source.slice? e.span.start e.span.stop = some e.text

lemma Excerpt.Faithful.fits {e : Excerpt} (h : e.Faithful source) : e.span.Fits source := ⟨_, h⟩

lemma Excerpt.Faithful.stop_eq {e : Excerpt} (h : e.Faithful source) :
    e.span.stop = e.span.start + e.text.size := Text.size_of_slice? h

lemma Excerpt.Faithful.slice_eq {e : Excerpt} (h : e.Faithful source) :
    e.span.slice source = e.text := by
  have := h.fits.slice?_eq
  rw [h] at this
  exact (Option.some.inj this).symm

lemma Excerpt.Faithful.isEmpty_text {e : Excerpt} (h : e.Faithful source) :
    e.text.isEmpty = e.span.isEmpty := by
  have hstop := h.stop_eq
  rw [Bool.eq_iff_iff, List.isEmpty_iff]
  simp only [Span.isEmpty, decide_eq_true_eq]
  constructor
  · intro hnil
    rw [hnil, Text.size_nil] at hstop
    omega
  · intro hle
    exact Text.eq_nil_of_size_eq_zero (by omega)

namespace Cursor

/-- The cursor stands in `source`. -/
def In (source : Text) (c : Cursor) : Prop := ∃ before, After source before c

/-- Reading on from `c` leads to `d`. -/
def Reaches (c d : Cursor) : Prop := ∃ n, d = c.advance n

variable {c d e : Cursor}

lemma Reaches.refl (c : Cursor) : c.Reaches c := ⟨0, by simp⟩

lemma Reaches.trans (h : c.Reaches d) (h' : d.Reaches e) : c.Reaches e := by
  obtain ⟨m, rfl⟩ := h
  obtain ⟨n, rfl⟩ := h'
  exact ⟨m + n, advance_advance c m n⟩

lemma reaches_advance (c : Cursor) (n : Nat) : c.Reaches (c.advance n) := ⟨n, rfl⟩

lemma reaches_advance_advance {m n : Nat} (h : m ≤ n) : (c.advance m).Reaches (c.advance n) :=
  ⟨n - m, by rw [advance_advance]; congr; omega⟩

lemma reaches_skipWhile (c : Cursor) (p : Char → Bool) : c.Reaches (c.skipWhile p) := ⟨_, rfl⟩

lemma reaches_atEnd (c : Cursor) : c.Reaches c.atEnd := ⟨_, rfl⟩

lemma Reaches.pos_le (h : c.Reaches d) : c.pos ≤ d.pos := by
  obtain ⟨n, rfl⟩ := h
  exact Nat.le_add_right ..

lemma Reaches.pos_lt (h : c.Reaches d) (hlt : d.rest.length < c.rest.length) : c.pos < d.pos := by
  obtain ⟨n, rfl⟩ := h
  have hsize := Text.length_le_size (c.rest.take n)
  simp only [List.length_drop, List.length_take, advance] at hlt hsize ⊢
  omega

lemma pos_lt_advance {n : Nat} (hn : 0 < n) (h : c.rest ≠ []) : c.pos < (c.advance n).pos := by
  have := List.length_pos_iff.mpr h
  refine (reaches_advance c n).pos_lt ?_
  rw [rest_advance, List.length_drop]
  omega

lemma advance_eq_of_rest {s t : Text} (h : c.rest = t ++ s) :
    c.advance t.length = ⟨c.pos + t.size, s⟩ := by
  simp [advance, h]

lemma advance_one_of_rest {x : Char} {s : Text} (h : c.rest = x :: s) :
    c.advance 1 = ⟨c.pos + x.utf8Size, s⟩ := advance_eq_of_rest (t := [x]) h

lemma In.ofText (source : Text) : In source (Cursor.ofText source) := ⟨[], rfl, rfl⟩

lemma In.reaches (h : In source c) (hd : c.Reaches d) : In source d := by
  obtain ⟨before, hb⟩ := h
  obtain ⟨n, rfl⟩ := hd
  exact ⟨_, hb.advance n⟩

lemma In.advance (h : In source c) (n : Nat) : In source (c.advance n) :=
  h.reaches (reaches_advance c n)

lemma In.boundary (h : In source c) : source.Boundary c.pos := by
  obtain ⟨before, hs, hp⟩ := h
  exact ⟨before, c.rest, hs, hp⟩

lemma In.pos_add_size (h : In source c) : c.pos + c.rest.size = source.size := by
  obtain ⟨before, hs, hp⟩ := h
  rw [hs, Text.size_append, hp]

lemma In.pos_atEnd (h : In source c) : c.atEnd.pos = source.size := by
  simp [Cursor.atEnd, Cursor.advance, h.pos_add_size]

lemma In.fits_spanTo (h : In source c) (hd : c.Reaches d) : (c.spanTo d).Fits source :=
  Span.fits_of_boundary h.boundary (h.reaches hd).boundary hd.pos_le

lemma In.excerpt (h : In source c) (n : Nat) : (c.excerpt n).Faithful source := by
  obtain ⟨before, hb⟩ := h
  have hfits : (c.excerpt n).span.Fits source :=
    In.fits_spanTo ⟨before, hb⟩ (reaches_advance c n)
  rw [Excerpt.Faithful, hfits.slice?_eq, hb.slice_excerpt]

end Cursor

end TsxLowering
