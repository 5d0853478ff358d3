import Mathlib.Data.List.Basic
import TsxLowering.Span

/-!
Where a text can be cut, and what the pieces are.

A byte offset is a boundary when the text splits there between two characters. Two boundaries
in order have a text between them, of as many bytes as the offsets say, and the texts between
successive boundaries join to the text between the outer ones.
-/

namespace TsxLowering

namespace Text

/-- The text can be cut at byte offset `n`. -/
def Boundary (s : Text) (n : Nat) : Prop := ∃ before after, s = before ++ after ∧ n = before.size

lemma boundary_size (s : Text) : Boundary s s.size := ⟨s, [], by simp, rfl⟩

lemma Boundary.le_size {s : Text} {n : Nat} (h : Boundary s n) : n ≤ s.size := by
  obtain ⟨u, v, rfl, rfl⟩ := h
  rw [size_append]
  omega

lemma eq_nil_of_size_eq_zero {s : Text} (h : s.size = 0) : s = [] := by
  have := length_le_size s
  exact List.length_eq_zero_iff.mp (by omega)

lemma append_inj_of_size_eq {s t u v : Text} (h : s ++ t = u ++ v) (hs : s.size = u.size) :
    s = u ∧ t = v := by
  rcases List.append_eq_append_iff.mp h with ⟨w, rfl, rfl⟩ | ⟨w, rfl, rfl⟩
  · have : w = [] := eq_nil_of_size_eq_zero (by rw [size_append] at hs; omega)
    simp [this]
  · have : w = [] := eq_nil_of_size_eq_zero (by rw [size_append] at hs; omega)
    simp [this]

lemma dropBytes_eq_some {n : Nat} {s r : Text} (h : dropBytes n s = some r) :
    ∃ u, s = u ++ r ∧ n = u.size := by
  induction s generalizing n with
  | nil =>
    by_cases hn : n = 0
    · exact ⟨[], by simp_all⟩
    · simp [dropBytes, hn] at h
  | cons c s ih =>
    by_cases hn : n = 0
    · exact ⟨[], by simp_all⟩
    · by_cases hc : c.utf8Size ≤ n
      · obtain ⟨u, rfl, hu⟩ := ih (by simpa [dropBytes, hn, hc] using h)
        exact ⟨c :: u, rfl, by rw [size_cons]; omega⟩
      · simp [dropBytes, hn, hc] at h

lemma takeBytes_eq_some {n : Nat} {s t : Text} (h : takeBytes n s = some t) :
    ∃ v, s = t ++ v ∧ n = t.size := by
  induction s generalizing n t with
  | nil =>
    by_cases hn : n = 0
    · exact ⟨[], by simp_all⟩
    · simp [takeBytes, hn] at h
  | cons c s ih =>
    by_cases hn : n = 0
    · subst hn
      obtain rfl : [] = t := by simpa using h
      exact ⟨c :: s, rfl, rfl⟩
    · by_cases hc : c.utf8Size ≤ n
      · obtain ⟨t', ht', rfl⟩ : ∃ t', takeBytes (n - c.utf8Size) s = some t' ∧ c :: t' = t := by
          simpa [takeBytes, hn, hc] using h
        obtain ⟨v, rfl, hv⟩ := ih ht'
        exact ⟨v, rfl, by rw [size_cons]; omega⟩
      · simp [takeBytes, hn, hc] at h

lemma slice?_eq_some_iff {s t : Text} {a b : Nat} :
    s.slice? a b = some t ↔ ∃ u v, s = u ++ t ++ v ∧ a = u.size ∧ b = u.size + t.size := by
  constructor
  · intro h
    unfold slice? at h
    split at h
    · obtain ⟨r, hr, ht⟩ := Option.bind_eq_some_iff.mp h
      obtain ⟨u, rfl, rfl⟩ := dropBytes_eq_some hr
      obtain ⟨v, rfl, hv⟩ := takeBytes_eq_some ht
      exact ⟨u, v, by simp, rfl, by omega⟩
    · cases h
  · rintro ⟨u, v, rfl, rfl, rfl⟩
    exact slice?_append u t v

lemma size_of_slice? {s t : Text} {a b : Nat} (h : s.slice? a b = some t) : b = a + t.size := by
  obtain ⟨u, v, -, rfl, rfl⟩ := slice?_eq_some_iff.mp h
  rfl

lemma exists_slice? {s : Text} {a b : Nat} (ha : Boundary s a) (hb : Boundary s b) (h : a ≤ b) :
    ∃ t, s.slice? a b = some t := by
  obtain ⟨u, v, rfl, rfl⟩ := ha
  obtain ⟨u', v', he, rfl⟩ := hb
  rcases List.append_eq_append_iff.mp he with ⟨w, rfl, rfl⟩ | ⟨w, rfl, rfl⟩
  · exact ⟨w, slice?_eq_some_iff.mpr ⟨u, v', by simp, rfl, by simp⟩⟩
  · -- the later cut is not behind the earlier one, so nothing lies between
    have hw : w = [] := eq_nil_of_size_eq_zero (by rw [size_append] at h; omega)
    subst hw
    exact ⟨[], slice?_eq_some_iff.mpr ⟨u', v, by simp, by simp, by simp⟩⟩

lemma slice?_trans {s t u : Text} {a b c : Nat} (ht : s.slice? a b = some t)
    (hu : s.slice? b c = some u) : s.slice? a c = some (t ++ u) := by
  obtain ⟨x, y, rfl, rfl, rfl⟩ := slice?_eq_some_iff.mp ht
  obtain ⟨x', y', he, hx, rfl⟩ := slice?_eq_some_iff.mp hu
  rw [List.append_assoc x' u y'] at he
  obtain ⟨rfl, rfl⟩ := append_inj_of_size_eq he (by rw [size_append]; exact hx)
  exact slice?_eq_some_iff.mpr ⟨x, y', by simp, rfl, by simp; omega⟩

lemma append_of_splitOnce {s pattern before rest : Text}
    (h : s.splitOnce pattern = some (before, rest)) : s = before ++ (pattern ++ rest) := by
  induction s generalizing before with
  | nil =>
    unfold splitOnce at h
    split at h
    · next hp =>
      cases h
      exact (List.append_eq_of_isPrefixOf?_eq_some hp).symm
    · cases h
  | cons c s ih =>
    unfold splitOnce at h
    split at h
    · next hp =>
      cases h
      exact (List.append_eq_of_isPrefixOf?_eq_some hp).symm
    · obtain ⟨⟨before', rest'⟩, hs, he⟩ := Option.map_eq_some_iff.mp h
      cases he
      rw [ih hs, List.cons_append]

end Text

namespace Span

lemma contains_iff {s : Span} {x : Nat} : s.contains x = true ↔ s.start ≤ x ∧ x < s.stop := by
  simp [contains]

lemma isEmpty_of_contains {s : Span} {x : Nat} (h : s.contains x = true) : s.isEmpty = false := by
  rw [contains_iff] at h
  simp only [isEmpty, decide_eq_false_iff_not]
  omega

/-- The text has a part under the span. -/
def Fits (s : Span) (source : Text) : Prop := ∃ t, source.slice? s.start s.stop = some t

variable {source : Text}

lemma Fits.slice?_eq {s : Span} (h : s.Fits source) :
    source.slice? s.start s.stop = some (s.slice source) := by
  obtain ⟨t, ht⟩ := h
  simp [slice, ht]

lemma fits_iff {s : Span} :
    s.Fits source ↔ s.start ≤ s.stop ∧ source.Boundary s.start ∧ source.Boundary s.stop := by
  constructor
  · rintro ⟨t, ht⟩
    obtain ⟨u, v, rfl, hu, hv⟩ := Text.slice?_eq_some_iff.mp ht
    exact ⟨by omega, ⟨u, t ++ v, by simp, hu⟩, ⟨u ++ t, v, rfl, by simp [hv]⟩⟩
  · rintro ⟨h, hstart, hstop⟩
    exact Text.exists_slice? hstart hstop h

lemma Fits.start_le {s : Span} (h : s.Fits source) : s.start ≤ s.stop := (fits_iff.mp h).1

lemma Fits.start_boundary {s : Span} (h : s.Fits source) : source.Boundary s.start :=
  (fits_iff.mp h).2.1

lemma Fits.stop_boundary {s : Span} (h : s.Fits source) : source.Boundary s.stop :=
  (fits_iff.mp h).2.2

lemma Fits.size_slice {s : Span} (h : s.Fits source) :
    (s.slice source).size = s.stop - s.start := by
  have := Text.size_of_slice? h.slice?_eq
  omega

lemma fits_of_boundary {a b : Nat} (ha : source.Boundary a) (hb : source.Boundary b) (h : a ≤ b) :
    Fits ⟨a, b⟩ source := fits_iff.mpr ⟨h, ha, hb⟩

lemma slice_empty (a : Nat) : slice ⟨a, a⟩ source = [] := by
  simp only [slice, Text.slice?, Nat.le_refl, if_true, Nat.sub_self]
  cases source.dropBytes a <;> simp

lemma slice_append_slice {a b c : Nat} (ha : source.Boundary a) (hb : source.Boundary b)
    (hc : source.Boundary c) (hab : a ≤ b) (hbc : b ≤ c) :
    slice ⟨a, b⟩ source ++ slice ⟨b, c⟩ source = slice ⟨a, c⟩ source := by
  have h := Text.slice?_trans (fits_of_boundary ha hb hab).slice?_eq
    (fits_of_boundary hb hc hbc).slice?_eq
  exact (congrArg (·.getD []) h).symm

lemma slice?_of_copy {s t : Span} {before after : Text} (hs : s.Fits source) (ht : t.Fits source)
    (hstart : s.start ≤ t.start) (hstop : t.stop ≤ s.stop) :
    (before ++ s.slice source ++ after).slice? (before.size + (t.start - s.start))
      (before.size + (t.start - s.start) + (t.stop - t.start)) = some (t.slice source) := by
  have hleft := fits_of_boundary hs.start_boundary ht.start_boundary hstart
  have hcopy : s.slice source =
      slice ⟨s.start, t.start⟩ source ++ t.slice source ++ slice ⟨t.stop, s.stop⟩ source := by
    rw [show t.slice source = slice ⟨t.start, t.stop⟩ source from rfl,
      slice_append_slice hs.start_boundary ht.start_boundary ht.stop_boundary hstart ht.start_le,
      slice_append_slice hs.start_boundary ht.stop_boundary hs.stop_boundary
        (Nat.le_trans hstart ht.start_le) hstop]
  refine Text.slice?_eq_some_iff.mpr ⟨before ++ slice ⟨s.start, t.start⟩ source,
    slice ⟨t.stop, s.stop⟩ source ++ after, by simp [hcopy], ?_, ?_⟩
  · rw [Text.size_append, hleft.size_slice]
  · rw [Text.size_append, hleft.size_slice, ht.size_slice]

end Span

end TsxLowering
