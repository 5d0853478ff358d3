import Mathlib.Data.List.Induction
import TsxLowering.Proofs.Lookup

/-!
The map of a text that is put together from chunks.

Every chunk moves the end of the text on by its size, and leaves an entry if it stands for a span
of the source and is not empty. So the entries follow each other in the text, and the search for an
offset gives what looking through the chunks one by one would give, whatever the spans of the source
are: they may repeat and overlap, and be longer or shorter than their texts. Main statement:
`lookups_exact`.
-/

namespace TsxLowering

lemma Offset.ofIndex_add {m n : Nat} (h : ofIndex m + ofIndex n ≤ limit) :
    ofIndex m + ofIndex n = ofIndex (m + n) := by
  unfold ofIndex at *
  omega

namespace Chunk

/-- The text that chunks make. -/
def joined (chunks : List Chunk) : Text := chunks.flatMap text

/-- The span of the source that a chunk stands for. -/
def source? : Chunk → Option Span
  | .copied start text => some (Span.ofIndices start (start + text.size))
  | .derived source _ => some source
  | .synthetic _ => none

/-- Where the text of a chunk stands behind the text that others make. -/
def placeBehind (chunks : List Chunk) (c : Chunk) : Span :=
  Span.ofIndices (joined chunks).size ((joined chunks).size + c.text.size)

/-- The chunk is one of these, and its text stands under the span in the text that they make. -/
def Under (chunks : List Chunk) (c : Chunk) (place : Span) : Prop :=
  ∃ before after, chunks = before ++ c :: after ∧ place = c.placeBehind before

/-- The entry of a chunk whose text stands under the span. -/
def mapping? (c : Chunk) (place : Span) : Option Mapping :=
  if place.isEmpty then none else c.source?.map (⟨place, ·⟩)

variable {chunks : List Chunk} {c d : Chunk} {place : Span}

lemma size_joined_append (chunks : List Chunk) (c : Chunk) :
    (joined (chunks ++ [c])).size = (joined chunks).size + c.text.size := by
  simp [joined]

lemma mapping?_eq_some_iff {e : Mapping} :
    c.mapping? place = some e ↔
      place.isEmpty = false ∧ c.source? = some e.source ∧ e.generated = place := by
  unfold mapping?
  split
  · simp [*]
  · next hempty =>
    rw [Option.map_eq_some_iff]
    constructor
    · rintro ⟨s, hs, rfl⟩
      exact ⟨by simpa using hempty, hs, rfl⟩
    · rintro ⟨-, hs, rfl⟩
      exact ⟨_, hs, rfl⟩

lemma generated_of_mapping? {e : Mapping} (h : c.mapping? place = some e) :
    e.generated = place ∧ place.start < place.stop := by
  obtain ⟨hempty, -, hgenerated⟩ := mapping?_eq_some_iff.mp h
  exact ⟨hgenerated, by simpa [Span.isEmpty] using hempty⟩

lemma under_append_singleton :
    d.Under (chunks ++ [c]) place ↔
      d.Under chunks place ∨ d = c ∧ place = c.placeBehind chunks := by
  constructor
  · rintro ⟨before, after, he, hplace⟩
    rcases List.eq_nil_or_concat after with rfl | ⟨after, last, rfl⟩
    · obtain ⟨rfl, hlast⟩ := List.append_inj' he rfl
      obtain rfl : c = d := by simpa using hlast
      exact .inr ⟨rfl, hplace⟩
    · rw [List.concat_eq_append, ← List.cons_append, ← List.append_assoc] at he
      exact .inl ⟨before, after, (List.append_inj' he rfl).1, hplace⟩
  · rintro (⟨before, after, rfl, hplace⟩ | ⟨rfl, hplace⟩)
    · exact ⟨before, after ++ [c], by simp, hplace⟩
    · exact ⟨chunks, [], rfl, hplace⟩

end Chunk

namespace SourceMap

/-! ### Putting the map together -/

namespace Builder

variable {b b' : Builder} {c : Chunk} {chunks : List Chunk}

/-- What one chunk does to a map under construction. -/
structure Adds (b : Builder) (c : Chunk) (b' : Builder) : Prop where
  generated_eq : b'.generated = b.generated + Offset.ofIndex c.text.size
  le_limit : b'.generated ≤ Offset.limit
  mappings_eq : b'.mappings.toList =
    b.mappings.toList ++ (c.mapping? ⟨b.generated, b'.generated⟩).toList
  /-- Copied text is as long as its source. -/
  verbatim : ∀ start text, c = .copied start text →
    ∀ s, c.source? = some s → s.stop - s.start = Offset.ofIndex text.size

lemma record_eq_ok {source : Span} (hsource : c.source? = some source)
    (hverbatim : ∀ start text, c = .copied start text →
      source.stop - source.start = Offset.ofIndex text.size)
    (h : b.record source c.text = .ok b') : b.Adds c b' := by
  cases hadd : Offset.add b.generated (Offset.ofIndex c.text.size) with
  | error o => simp [record, hadd, bind, Except.bind] at h
  | ok stop =>
    obtain ⟨hstop, hle⟩ := Offset.add_eq_ok_iff.mp hadd
    simp only [record, hadd, bind, Except.bind, pure, Except.pure, Except.ok.injEq] at h
    subst h
    refine ⟨hstop, by simpa [hstop] using hle, ?_, fun start text hc s hs => ?_⟩
    · by_cases hempty : stop = b.generated
      · simp [Chunk.mapping?, Span.isEmpty, hempty]
      · have : ¬ stop ≤ b.generated := by omega
        simp [Chunk.mapping?, Span.isEmpty, hempty, this, hsource]
    · rw [hsource] at hs
      cases hs
      exact hverbatim start text hc

lemma add_eq_ok (h : b.add c = .ok b') : b.Adds c b' := by
  cases c with
  | copied start text =>
    cases hadd : Offset.add start (Offset.ofIndex text.size) with
    | error o => simp [add, hadd, bind, Except.bind] at h
    | ok stop =>
      obtain ⟨rfl, hle⟩ := Offset.add_eq_ok_iff.mp hadd
      have hstart : Offset.ofIndex start = start := Offset.ofIndex_eq (by omega)
      have hsource : Span.ofIndices start (start + text.size) =
          ⟨start, start + Offset.ofIndex text.size⟩ := by
        rw [Span.ofIndices, ← Offset.ofIndex_add (by omega), hstart]
      simp only [add, hadd, bind, Except.bind] at h
      -- the span is stored as it was computed, since its end is no overflow
      refine record_eq_ok (c := .copied start text) (congrArg some hsource) ?_ h
      rintro start text ⟨⟩
      exact Nat.add_sub_cancel_left ..
  | derived source text =>
    exact record_eq_ok (c := .derived source text) rfl nofun h
  | synthetic text =>
    cases hadd : Offset.add b.generated (Offset.ofIndex text.size) with
    | error o => simp [add, hadd, bind, Except.bind] at h
    | ok stop =>
      obtain ⟨hstop, hle⟩ := Offset.add_eq_ok_iff.mp hadd
      simp only [add, hadd, bind, Except.bind, pure, Except.pure, Except.ok.injEq] at h
      subst h
      exact ⟨hstop, by simpa [hstop] using hle, by simp [Chunk.mapping?, Chunk.source?], nofun⟩

namespace Adds

lemma generated_le (h : b.Adds c b') : b.generated ≤ b'.generated := by
  rw [h.generated_eq]
  exact Nat.le_add_right ..

lemma mem_mappings (h : b.Adds c b') (e : Mapping) : e ∈ b'.mappings.toList ↔
    e ∈ b.mappings.toList ∨ c.mapping? ⟨b.generated, b'.generated⟩ = some e := by
  rw [h.mappings_eq, List.mem_append, Option.mem_toList]

lemma ordered (h : b.Adds c b') (hordered : b.build.Ordered)
    (hstop : ∀ e ∈ b.mappings.toList, e.generated.stop ≤ b.generated) : b'.build.Ordered where
  lt e he := by
    rcases (h.mem_mappings e).mp he with he | he
    · exact hordered.lt e he
    · obtain ⟨hgenerated, hlt⟩ := Chunk.generated_of_mapping? he
      rwa [hgenerated]
  pairwise := by
    change b'.mappings.toList.Pairwise _
    rw [h.mappings_eq]
    refine List.pairwise_append.mpr ⟨hordered.pairwise, ?_, fun e he f hf => ?_⟩
    · cases c.mapping? ⟨b.generated, b'.generated⟩ <;> simp
    · rw [(Chunk.generated_of_mapping? (Option.mem_toList.mp hf)).1]
      exact hstop e he

end Adds

/-- The map under construction is that of the chunks. -/
structure Records (b : Builder) (chunks : List Chunk) : Prop where
  generated_eq : b.generated = Offset.ofIndex (Chunk.joined chunks).size
  ordered : b.build.Ordered
  stop_le : ∀ e ∈ b.mappings.toList, e.generated.stop ≤ b.generated
  mem_iff : ∀ e, e ∈ b.mappings.toList ↔
    ∃ (c : Chunk) (place : Span), c.Under chunks place ∧ c.mapping? place = some e
  verbatim : ∀ start text place s, (Chunk.copied start text).Under chunks place →
    (Chunk.copied start text).source? = some s → s.stop - s.start = place.stop - place.start

lemma records_empty : empty.Records [] where
  generated_eq := rfl
  ordered := ⟨nofun, .nil⟩
  stop_le := nofun
  mem_iff e := by
    constructor
    · nofun
    · rintro ⟨c, place, ⟨before, after, he, -⟩, -⟩
      simp at he
  verbatim := by
    rintro start text place s ⟨before, after, he, -⟩
    simp at he

/-- **One step**: a chunk goes behind the others, and so does its entry, if it has one. -/
lemma Records.step (h : b.Records chunks) (hadd : b.Adds c b') : b'.Records (chunks ++ [c]) := by
  have hgenerated : b'.generated = Offset.ofIndex (Chunk.joined (chunks ++ [c])).size := by
    have hle := hadd.le_limit
    rw [hadd.generated_eq, h.generated_eq] at hle ⊢
    rw [Offset.ofIndex_add hle, Chunk.size_joined_append]
  -- the cursor of the builder stands where the new chunk goes
  have hplace : (⟨b.generated, b'.generated⟩ : Span) = c.placeBehind chunks := by
    rw [hgenerated, h.generated_eq, Chunk.size_joined_append]
    rfl
  refine ⟨hgenerated, hadd.ordered h.ordered h.stop_le, fun e he => ?_, fun e => ?_, ?_⟩
  · rcases (hadd.mem_mappings e).mp he with he | he
    · exact Nat.le_trans (h.stop_le e he) hadd.generated_le
    · exact Nat.le_of_eq (congrArg Span.stop (Chunk.generated_of_mapping? he).1)
  · rw [hadd.mem_mappings, h.mem_iff, hplace]
    constructor
    · rintro (⟨d, place, hunder, he⟩ | he)
      · exact ⟨d, place, Chunk.under_append_singleton.mpr (.inl hunder), he⟩
      · exact ⟨c, _, Chunk.under_append_singleton.mpr (.inr ⟨rfl, rfl⟩), he⟩
    · rintro ⟨d, place, hunder, he⟩
      rcases Chunk.under_append_singleton.mp hunder with hunder | ⟨rfl, rfl⟩
      · exact .inl ⟨d, place, hunder, he⟩
      · exact .inr he
  · intro start text place s hunder hs
    rcases Chunk.under_append_singleton.mp hunder with hunder | ⟨rfl, rfl⟩
    · exact h.verbatim start text place s hunder hs
    · rw [hadd.verbatim start text rfl s hs, ← hplace, hadd.generated_eq]
      exact (Nat.add_sub_cancel_left ..).symm

/-- **A whole run** of chunks that causes no overflow. -/
lemma foldlM_records (h : chunks.foldlM add empty = .ok b) : b.Records chunks := by
  induction chunks using List.reverseRecOn generalizing b with
  | nil =>
    cases h
    exact records_empty
  | append_singleton chunks c ih =>
    rw [List.foldlM_append] at h
    simp only [List.foldlM_cons, List.foldlM_nil, bind_pure] at h
    cases hfold : chunks.foldlM add empty with
    | error o =>
      rw [hfold] at h
      cases h
    | ok b₀ =>
      rw [hfold] at h
      exact (ih hfold).step (add_eq_ok h)

lemma Records.source_stop_le (h : b.Records chunks)
    (hspans : ∀ span text, .derived span text ∈ chunks → span.stop ≤ Offset.limit) :
    ∀ e ∈ b.mappings.toList, e.source.stop ≤ Offset.limit := by
  intro e he
  obtain ⟨c, place, ⟨before, after, rfl, -⟩, hentry⟩ := (h.mem_iff e).mp he
  obtain ⟨-, hsource, -⟩ := Chunk.mapping?_eq_some_iff.mp hentry
  cases c with
  | copied start text =>
    rw [← Option.some.inj hsource]
    exact Offset.ofIndex_le _
  | derived span text =>
    rw [← Option.some.inj hsource]
    exact hspans span text (by simp)
  | synthetic text => cases hsource

lemma Records.mem_of_contains (h : b.Records chunks) {place s : Span} {g : Nat}
    (hunder : c.Under chunks place) (hsource : c.source? = some s)
    (hg : place.contains g = true) : ⟨place, s⟩ ∈ b.build.mappings.toList :=
  (h.mem_iff _).mpr ⟨c, place, hunder,
    Chunk.mapping?_eq_some_iff.mpr ⟨Span.isEmpty_of_contains hg, hsource, rfl⟩⟩

end Builder

/-! ### Lookups -/

variable {m : SourceMap} {e : Mapping}

lemma shift_eq_ite {s : Span} (h : s.stop ≤ Offset.limit) (k : Nat) :
    shift s k = if s.start ≤ s.stop then
      .ok (if k < s.stop - s.start then s.start + k else s.start) else .error .subtraction := by
  split
  · next hle => exact shift_eq ⟨hle, h⟩ k
  · next hlt =>
    have hlength : s.length = .error .subtraction := if_neg hlt
    simp only [shift, hlength, bind, Except.bind]

lemma generatedOffset?_of_first {before after : List Mapping} {o : Nat}
    (hm : m.mappings.toList = before ++ e :: after) (he : e.source.contains o = true)
    (hbefore : ∀ f ∈ before, f.source.contains o = false) (hgenerated : e.generated.Proper) :
    m.generatedOffset? o = .ok (some (if o - e.source.start < e.generated.stop - e.generated.start
      then e.generated.start + (o - e.source.start) else e.generated.start)) := by
  have hfind : m.mappings.find? (·.source.contains o) = some e := by
    rw [← Array.find?_toList, List.find?_eq_some_iff_append]
    exact ⟨he, before, after, hm, by simpa using hbefore⟩
  have hsub : Offset.sub o e.source.start = .ok (o - e.source.start) :=
    Offset.sub_eq_ok_iff.mpr ⟨rfl, (Span.contains_iff.mp he).1⟩
  simp only [generatedOffset?, hfind, hsub, bind, Except.bind, shift_eq hgenerated]
  rfl

lemma Ordered.sourceOffset?_of_generatedOffset? (h : m.Ordered) (hmem : e ∈ m.mappings.toList)
    {o : Nat} (ho : e.source.contains o = true) (hstop : e.source.stop ≤ Offset.limit) :
    m.sourceOffset? (if o - e.source.start < e.generated.stop - e.generated.start then
        e.generated.start + (o - e.source.start) else e.generated.start) =
      .ok (some (if o - e.source.start < e.generated.stop - e.generated.start then o
        else e.source.start)) := by
  obtain ⟨hstart, hlt⟩ := Span.contains_iff.mp ho
  have hgenerated := h.lt e hmem
  have hproper : e.source.Proper := ⟨by omega, hstop⟩
  split
  · rw [h.sourceOffset?_of_mem hmem hproper (Span.contains_iff.mpr (by omega)), if_pos (by omega)]
    congr 2
    omega
  · rw [h.sourceOffset?_of_mem hmem hproper (Span.contains_iff.mpr (by omega)), if_pos (by omega)]
    congr 2
    omega

namespace Builder

variable {b : Builder} {chunks : List Chunk}

lemma Records.sourceOffset?_of_under (h : b.Records chunks)
    (hspans : ∀ span text, .derived span text ∈ chunks → span.stop ≤ Offset.limit)
    {g : Nat} {c : Chunk} {place s : Span} (hunder : c.Under chunks place)
    (hg : place.contains g = true) (hsource : c.source? = some s) :
    b.build.sourceOffset? g = if s.start ≤ s.stop then
      .ok (some (if g - place.start < s.stop - s.start then s.start + (g - place.start)
        else s.start)) else .error .subtraction := by
  have hmem := h.mem_of_contains hunder hsource hg
  rw [h.ordered.sourceOffset?_eq_shift hmem hg, shift_eq_ite (h.source_stop_le hspans _ hmem)]
  split <;> rfl

lemma Records.sourceOffset?_eq_none_iff (h : b.Records chunks)
    (hspans : ∀ span text, .derived span text ∈ chunks → span.stop ≤ Offset.limit) (g : Nat) :
    b.build.sourceOffset? g = .ok none ↔
      ∀ c place, Chunk.Under chunks c place → place.contains g = true → c.source? = none := by
  constructor
  · intro hnone c place hunder hg
    cases hsource : c.source? with
    | none => rfl
    | some s =>
      rw [h.sourceOffset?_of_under hspans hunder hg hsource] at hnone
      split at hnone <;> cases hnone
  · refine fun hall => h.ordered.sourceOffset?_eq_none fun e he => ?_
    -- an entry at `g` would be that of a chunk with a source
    obtain ⟨c, place, hunder, hentry⟩ := (h.mem_iff e).mp he
    obtain ⟨-, hsource, rfl⟩ := Chunk.mapping?_eq_some_iff.mp hentry
    by_contra hg
    rw [hall c _ hunder (by simpa using hg)] at hsource
    cases hsource

/-- The entry of copied text reaches as far as its source. -/
lemma Records.lt_of_copied (h : b.Records chunks) {e : Mapping}
    (hmem : e ∈ b.build.mappings.toList) {o start : Nat} {text : Text}
    (hunder : (Chunk.copied start text).Under chunks e.generated)
    (ho : e.source.contains o = true) :
    o - e.source.start < e.generated.stop - e.generated.start := by
  have hcontains : e.generated.contains e.generated.start = true :=
    Span.contains_iff.mpr ⟨Nat.le_refl _, h.ordered.lt e hmem⟩
  -- the chunk has an entry under the same span, and there is only one
  have hfind := h.ordered.find?_eq_some_iff.mpr ⟨hmem, hcontains⟩
  have hcopied := h.ordered.find?_eq_some_iff.mpr
    ⟨h.mem_of_contains hunder rfl hcontains, hcontains⟩
  have hsource : e.source = Span.ofIndices start (start + text.size) :=
    congrArg Mapping.source (Option.some.inj (hfind.symm.trans hcopied))
  have hlength := h.verbatim start text _ _ hunder rfl
  rw [← hsource] at hlength
  obtain ⟨hstart, hstop⟩ := Span.contains_iff.mp ho
  omega

lemma Records.generated_proper (h : b.Records chunks) {e : Mapping}
    (hmem : e ∈ b.build.mappings.toList) : e.generated.Proper := by
  have hstop := h.stop_le e hmem
  rw [h.generated_eq] at hstop
  exact ⟨Nat.le_of_lt (h.ordered.lt e hmem), Nat.le_trans hstop (Offset.ofIndex_le _)⟩

end Builder

/-- **Lookups are exact, and inverse to each other.** The entries are not empty and follow each
other; the text is as long as all chunks together, where counting stops at the largest offset. An
offset comes from nowhere if the chunk it lies in stands for no source. Otherwise it comes from as
far inside the chunk's source, or from the start of that if it is shorter. An offset of the source
leads to the first entry that it lies in, and back from there to itself, or to the start of the
entry's source if the text of the entry is shorter, which no copied text is. -/
theorem lookups_exact {chunks : List Chunk} {b : Builder}
    (h : chunks.foldlM Builder.add Builder.empty = .ok b)
    (hspans : ∀ span text, .derived span text ∈ chunks → span.stop ≤ Offset.limit) :
    b.build.Ordered ∧ b.generated = Offset.ofIndex (Chunk.joined chunks).size ∧
      ((Chunk.joined chunks).size ≤ Offset.limit → b.generated = (Chunk.joined chunks).size) ∧
      (∀ g, b.build.sourceOffset? g = .ok none ↔
        ∀ c place, Chunk.Under chunks c place → place.contains g = true → c.source? = none) ∧
      (∀ g c place s, Chunk.Under chunks c place → place.contains g = true → c.source? = some s →
        b.build.sourceOffset? g =
          if s.start ≤ s.stop then
            .ok (some (if g - place.start < s.stop - s.start then s.start + (g - place.start)
              else s.start))
          else .error .subtraction) ∧
      ∀ o before m after, b.build.mappings.toList = before ++ m :: after →
        (∀ e ∈ before, e.source.contains o = false) → m.source.contains o = true →
        ∃ g, b.build.generatedOffset? o = .ok (some g) ∧
          b.build.sourceOffset? g =
            .ok (some (if o - m.source.start < m.generated.stop - m.generated.start then o
              else m.source.start)) ∧
          ∀ start text, (Chunk.copied start text).Under chunks m.generated →
            b.build.sourceOffset? g = .ok (some o) := by
  have hrecords := Builder.foldlM_records h
  refine ⟨hrecords.ordered, hrecords.generated_eq,
    fun hsize => hrecords.generated_eq.trans (Offset.ofIndex_eq hsize),
    hrecords.sourceOffset?_eq_none_iff hspans,
    fun g c place s => hrecords.sourceOffset?_of_under hspans,
    fun o before m after hm hbefore hcontains => ?_⟩
  have hmem : m ∈ b.build.mappings.toList := by simp [hm]
  -- the first entry for `o` leads into its own text, where lookup finds it again
  have hback := hrecords.ordered.sourceOffset?_of_generatedOffset? hmem hcontains
    (hrecords.source_stop_le hspans m hmem)
  refine ⟨_, generatedOffset?_of_first hm hcontains hbefore (hrecords.generated_proper hmem), hback,
    fun start text hunder => ?_⟩
  rw [hback, if_pos (hrecords.lt_of_copied hmem hunder hcontains)]

/-- A copy, text that is shorter than its source and overlaps it, a source that runs backwards, and
a copy of nothing. -/
def overlapping : List Chunk :=
  [.synthetic ['<'], .copied 4 ['a', 'b'], .derived ⟨4, 12⟩ ['é'], .derived ⟨9, 3⟩ ['x'],
    .copied 0 []]

theorem lookups_exact_overlapping :
    ∃ b, overlapping.foldlM Builder.add Builder.empty = .ok b ∧
      (∀ span text, .derived span text ∈ overlapping → span.stop ≤ Offset.limit) ∧
      b.build.Ordered ∧ b.generated = 6 ∧ b.build.sourceOffset? 5 = .error .subtraction ∧
      (∃ g, b.build.generatedOffset? 11 = .ok (some g) ∧
        b.build.sourceOffset? g = .ok (some 4)) ∧
      ∃ g, b.build.generatedOffset? 5 = .ok (some g) ∧ b.build.sourceOffset? g = .ok (some 5) := by
  let copy : Mapping := ⟨⟨1, 3⟩, ⟨4, 6⟩⟩
  let short : Mapping := ⟨⟨3, 5⟩, ⟨4, 12⟩⟩
  let backwards : Mapping := ⟨⟨5, 6⟩, ⟨9, 3⟩⟩
  have hfold : overlapping.foldlM Builder.add Builder.empty =
      .ok ⟨#[copy, short, backwards], 6⟩ := by decide +kernel
  have hspans (span : Span) (text : Text) (h : .derived span text ∈ overlapping) :
      span.stop ≤ Offset.limit := by
    simp only [overlapping, List.mem_cons, Chunk.derived.injEq, reduceCtorEq, List.not_mem_nil,
      or_false, false_or] at h
    rcases h with ⟨rfl, -⟩ | ⟨rfl, -⟩ <;> decide
  obtain ⟨hordered, -, hgenerated, -, hcovered, hinverse⟩ := lookups_exact hfold hspans
  have hbackwards : (Chunk.derived ⟨9, 3⟩ ['x']).Under overlapping ⟨5, 6⟩ :=
    ⟨overlapping.take 3, overlapping.drop 4, rfl, by decide⟩
  have hcopy : (Chunk.copied 4 ['a', 'b']).Under overlapping copy.generated :=
    ⟨overlapping.take 1, overlapping.drop 2, rfl, by decide⟩
  obtain ⟨g, hg, hback, -⟩ := hinverse 11 [copy] short [backwards] rfl (by decide) (by decide)
  obtain ⟨g', hg', -, hcopied⟩ := hinverse 5 [] copy [short, backwards] rfl nofun (by decide)
  exact ⟨_, hfold, hspans, hordered, hgenerated (by decide),
    hcovered 5 _ _ _ hbackwards (by decide) rfl, ⟨g, hg, hback⟩, g', hg', hcopied _ _ hcopy⟩

end SourceMap

end TsxLowering
