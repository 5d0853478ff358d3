import TsxLowering.Proofs.Boundary
import TsxLowering.SourceMap

/-!
Looking up an offset in a source map.

In a map whose entries follow each other in the generated text, binary search finds the entry
that covers an offset whenever there is one.
-/

namespace TsxLowering

/-- Binary search finds the place where a property turns from true to false. -/
lemma bisect_eq {p : Nat → Bool} {lo hi n : Nat} (hlo : lo ≤ n) (hhi : n ≤ hi)
    (h : ∀ i, lo ≤ i → i < hi → (p i = true ↔ i < n)) : bisect p lo hi = n := by
  fun_induction bisect p lo hi with
  | case1 lo hi hlt mid hmid ih =>
    have := (h mid (by omega) (by omega)).mp hmid
    exact ih this hhi fun i hi => h i (by omega)
  | case2 lo hi hlt mid hmid ih =>
    have := mt (h mid (by omega) (by omega)).mpr hmid
    exact ih hlo (by omega) fun i hi hlt => h i hi (by omega)
  | case3 lo hi hle => omega

lemma partitionPoint_eq {α : Type} {xs : Array α} {p : α → Bool} {n : Nat} (hn : n ≤ xs.size)
    (h : ∀ i x, xs[i]? = some x → (p x = true ↔ i < n)) : partitionPoint xs p = n := by
  refine bisect_eq (Nat.zero_le n) hn fun i _ hi => ?_
  rw [Array.getElem?_eq_getElem hi, Option.any_some]
  exact h i _ (Array.getElem?_eq_getElem hi)

/-- The ends of the span are in order and can be stored. -/
def Span.Proper (s : Span) : Prop := s.start ≤ s.stop ∧ s.stop ≤ Offset.limit

lemma Span.Fits.proper {s : Span} {text : Text} (h : s.Fits text)
    (hsize : text.size ≤ Offset.limit) : s.Proper :=
  ⟨h.start_le, Nat.le_trans h.stop_boundary.le_size hsize⟩

/-- Both spans of the entry can be stored, whatever texts they are laid over. -/
structure Mapping.Proper (m : Mapping) : Prop where
  generated : m.generated.Proper
  source : m.source.Proper

namespace SourceMap

/-- The entries follow each other in the generated text, none of them empty there. -/
structure Ordered (m : SourceMap) : Prop where
  lt : ∀ e ∈ m.mappings.toList, e.generated.start < e.generated.stop
  pairwise : m.mappings.toList.Pairwise fun e f => e.generated.stop ≤ f.generated.start

variable {m : SourceMap} {e : Mapping} {g : Nat}

lemma Ordered.start_le_iff {i j : Nat} {f : Mapping} (h : m.Ordered)
    (hi : m.mappings.toList[i]? = some e) (hj : m.mappings.toList[j]? = some f)
    (hg : e.generated.contains g = true) : f.generated.start ≤ g ↔ j < i + 1 := by
  rw [Span.contains_iff] at hg
  obtain ⟨hilt, hei⟩ := List.getElem?_eq_some_iff.mp hi
  obtain ⟨hjlt, hfj⟩ := List.getElem?_eq_some_iff.mp hj
  have hpairwise := List.pairwise_iff_getElem.mp h.pairwise
  rcases Nat.lt_trichotomy j i with hlt | rfl | hlt
  · have hle := hpairwise j i hjlt hilt hlt
    have := h.lt f (List.mem_of_getElem? hj)
    rw [hei, hfj] at hle
    omega
  · obtain rfl : e = f := hei.symm.trans hfj
    omega
  · have hle := hpairwise i j hilt hjlt hlt
    rw [hei, hfj] at hle
    omega

/-- **Lookup**: the entry found for an offset is the one that covers it. -/
theorem Ordered.find?_eq_some_iff (h : m.Ordered) :
    m.find? g = some e ↔ e ∈ m.mappings.toList ∧ e.generated.contains g = true := by
  constructor
  · intro hfind
    unfold find? at hfind
    split at hfind
    · cases hfind
    · obtain ⟨hget, hg⟩ := Option.filter_eq_some_iff.mp hfind
      rw [← Array.getElem?_toList] at hget
      exact ⟨List.mem_of_getElem? hget, hg⟩
  · rintro ⟨hmem, hg⟩
    obtain ⟨i, hi⟩ := List.mem_iff_getElem?.mp hmem
    have hlt : i < m.mappings.size := by simpa using (List.getElem?_eq_some_iff.mp hi).1
    -- the entries that start up to `g` end with the one that covers it
    have hpoint : partitionPoint m.mappings (·.generated.start ≤ g) = i + 1 := by
      refine partitionPoint_eq hlt fun j f hj => ?_
      rw [← Array.getElem?_toList] at hj
      simpa using h.start_le_iff hi hj hg
    rw [Array.getElem?_toList] at hi
    simp [find?, hpoint, hi, hg]

lemma shift_eq {s : Span} (hs : s.Proper) (k : Nat) :
    shift s k = .ok (if k < s.stop - s.start then s.start + k else s.start) := by
  obtain ⟨hle, hlimit⟩ := hs
  have hlength : s.length = .ok (s.stop - s.start) := Offset.sub_eq_ok_iff.mpr ⟨rfl, hle⟩
  simp only [shift, hlength, bind, Except.bind]
  split
  · exact Offset.add_eq_ok_iff.mpr ⟨rfl, by omega⟩
  · rfl

lemma Ordered.sourceOffset?_eq_shift (h : m.Ordered) (hmem : e ∈ m.mappings.toList)
    (hg : e.generated.contains g = true) :
    m.sourceOffset? g = some <$> shift e.source (g - e.generated.start) := by
  have hfind : m.find? g = some e := h.find?_eq_some_iff.mpr ⟨hmem, hg⟩
  have hsub : Offset.sub g e.generated.start = .ok (g - e.generated.start) :=
    Offset.sub_eq_ok_iff.mpr ⟨rfl, (Span.contains_iff.mp hg).1⟩
  simp only [sourceOffset?, hfind, hsub]
  rfl

lemma Ordered.sourceOffset?_of_mem (h : m.Ordered) (hmem : e ∈ m.mappings.toList)
    (hsource : e.source.Proper) (hg : e.generated.contains g = true) :
    m.sourceOffset? g = .ok (some (if g - e.generated.start < e.source.stop - e.source.start
      then e.source.start + (g - e.generated.start) else e.source.start)) := by
  rw [h.sourceOffset?_eq_shift hmem hg, shift_eq hsource]
  rfl

lemma Ordered.sourceOffset?_eq_none (h : m.Ordered)
    (hg : ∀ e ∈ m.mappings.toList, e.generated.contains g = false) :
    m.sourceOffset? g = .ok none := by
  have hfind : m.find? g = none := by
    refine Option.eq_none_iff_forall_ne_some.mpr fun e he => ?_
    obtain ⟨hmem, hcontains⟩ := h.find?_eq_some_iff.mp he
    rw [hg e hmem] at hcontains
    cases hcontains
  simp only [sourceOffset?, hfind]

lemma Ordered.sourceOffset?_eq {k : Nat} (h : m.Ordered) (hmem : e ∈ m.mappings.toList)
    (hlength : e.source.stop = e.source.start + (e.generated.stop - e.generated.start))
    (hlimit : e.source.stop ≤ Offset.limit) (hk : e.generated.start + k < e.generated.stop) :
    m.sourceOffset? (e.generated.start + k) = .ok (some (e.source.start + k)) := by
  have hproper : e.source.Proper := ⟨by omega, hlimit⟩
  have hcontains : e.generated.contains (e.generated.start + k) = true :=
    Span.contains_iff.mpr ⟨Nat.le_add_right .., hk⟩
  have hlt : k < e.source.stop - e.source.start := by omega
  rw [h.sourceOffset?_of_mem hmem hproper hcontains, Nat.add_sub_cancel_left, if_pos hlt]

end SourceMap

end TsxLowering
