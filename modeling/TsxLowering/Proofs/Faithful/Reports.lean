import TsxLowering.Proofs.Faithful.Construction
import TsxLowering.Proofs.Faithful.Delimiters

/-!
What is reported with an event.

Text, doctypes and closing tags are read without a report. An expression or a comment is
reported when it runs to the end of the source, a start tag when it does not end, and raw text
when its closing tag is missing; all else that is reported with a start tag is code in its
attributes that is never closed.
-/

namespace TsxLowering.Markup

variable {source : Text} {c : Cursor}

/-- The name in the closing tag under a span. -/
def closingName? (source : Text) (s : Span) : Option Text :=
  match s.slice source with
  | '<' :: '/' :: rest => some (rest.takeWhile isNameChar)
  | _ => none

/-- What may become of a start tag: the event, and what is reported about it apart from the tag
itself. -/
inductive StartTag.Becomes (source : Text) (tag : StartTag) : Event → List Diagnostic → Prop
  | unclosed (ending : tag.ending = .unclosed) :
      Becomes source tag (.leaf (.element ⟨tag.span, tag, none, none⟩ [])) []
  | childless {span : Span} {endTag : Option Span} (ending : tag.ending ≠ .unclosed)
      (kind : tag.ending = .selfClosing ∨ tag.isVoid = true) :
      Becomes source tag (.leaf (.element ⟨span, tag, none, endTag⟩ [])) []
  | rawText {span raw endTag : Span} (ending : tag.ending = .closed) (kind : tag.isRawText = true) :
      Becomes source tag (.leaf (.element ⟨span, tag, some raw, some endTag⟩ [])) []
  | openRawText {span raw : Span} (ending : tag.ending = .closed) (void : tag.isVoid = false)
      (stop : span.stop = source.size) :
      Becomes source tag (.leaf (.element ⟨span, tag, some raw, none⟩ []))
        [⟨.unclosedTag tag.name.text, tag.span⟩]
  | opening (holds : tag.HoldsNodes) : Becomes source tag (.opening tag) []

/-- An event of a source, with what is reported about it. -/
inductive Event.Comes (source : Text) : Event → List Diagnostic → Prop
  | text {t : Excerpt} : Comes source (.leaf (.text t)) []
  | expression {e : Enclosed} {ds : List Diagnostic} (within : e.Within source '\x7b' '\x7d')
      (reports : ∀ d ∈ ds, d.OpenCode source) : Comes source (.leaf (.expression e)) ds
  | comment {span : Span} {data : Excerpt} : Comes source (.leaf (.comment span data)) []
  | openComment {span : Span} {data : Excerpt} :
      Comes source (.leaf (.comment span data)) [⟨.unclosedComment, span⟩]
  | doctype {span : Span} : Comes source (.leaf (.doctype span)) []
  | closing {tag : ClosingTag} (name : closingName? source tag.span = some tag.name) :
      Comes source (.closing tag) []
  | startTag {tag : StartTag} {e : Event} {ds ds' : List Diagnostic}
      (delimited : tag.Delimited source) (reports : ∀ d ∈ ds, d.OpenCode source)
      (becomes : tag.Becomes source e ds') : Comes source e (ds ++ tag.unclosedReport ++ ds')

/-! ### Closing tags -/

lemma takeWhile_take {p : Char → Bool} {s : Text} {n : Nat} (h : (s.takeWhile p).length ≤ n) :
    (s.take n).takeWhile p = s.takeWhile p := by
  induction s generalizing n with
  | nil => simp
  | cons x s ih =>
    cases hx : p x with
    | false => cases n <;> simp [hx]
    | true =>
      cases n with
      | zero => simp [hx] at h
      | succ n => simpa [hx] using ih (by simpa [hx] using h)

lemma ClosingTag.closingName?_read {s : Text} (hc : c.In source)
    (hrest : c.rest = '<' :: '/' :: s) :
    closingName? source (ClosingTag.read c).1.span = some (ClosingTag.read c).1.name := by
  have hname : (ClosingTag.read c).1.name = s.takeWhile isNameChar := by
    simp [ClosingTag.read, hrest]
  -- the tag reaches at least to the end of its name
  have hreach :
      (c.advance (2 + (s.takeWhile isNameChar).length)).Reaches (ClosingTag.read c).2 := by
    have hafter : (c.advance 2).advance ((c.advance 2).rest.takeWhile isNameChar).length =
        c.advance (2 + (s.takeWhile isNameChar).length) := by
      rw [Cursor.advance_advance, Cursor.rest_advance, hrest]
      rfl
    simp only [ClosingTag.read, hafter]
    split
    · exact Token.next_reaches _
    · exact Cursor.Reaches.refl _
  obtain ⟨n, hn⟩ := hreach
  rw [Cursor.advance_advance] at hn
  have hslice : (ClosingTag.read c).1.span.slice source =
      c.rest.take (2 + (s.takeWhile isNameChar).length + n) := by
    rw [ClosingTag.span_read, hn]
    exact (hc.excerpt _).slice_eq
  rw [closingName?, hslice, hname, hrest, Nat.add_assoc, Nat.add_comm 2]
  simp [takeWhile_take]

/-! ### Elements -/

namespace Event

lemma readRawText_becomes {tag : StartTag} {d : Cursor} (hd : d.In source)
    (ending : tag.ending = .closed) (void : tag.isVoid = false) (kind : tag.isRawText = true) :
    tag.Becomes source (.leaf (.element ⟨c.spanTo (readRawText tag d).next, tag,
      some (readRawText tag d).value.1, (readRawText tag d).value.2⟩ []))
      (readRawText tag d).diagnostics := by
  unfold readRawText
  split
  · exact .rawText ending kind
  · exact .openRawText ending void hd.pos_atEnd

lemma readElement_becomes (hc : c.In source) :
    ∃ ds, (readElement c).diagnostics = (StartTag.read c).diagnostics ++ ds ∧
      (StartTag.read c).value.Becomes source (readElement c).value ds := by
  simp only [readElement]
  split
  · next hending => exact ⟨[], by simp, .unclosed hending⟩
  · next hclosed =>
    split
    · next hkind => exact ⟨[], by simp, .childless hclosed (by simpa using hkind)⟩
    · next hkind =>
      simp only [Bool.or_eq_true, decide_eq_true_eq, not_or, Bool.not_eq_true] at hkind
      have hending : (StartTag.read c).value.ending = .closed := by
        cases h : (StartTag.read c).value.ending <;> simp_all
      split
      · next hraw =>
        have hd := hc.reaches (StartTag.read_reaches hc)
        exact ⟨_, rfl, readRawText_becomes hd hending hkind.2 hraw⟩
      · next hraw => exact ⟨[], by simp, .opening ⟨hending, hkind.2, by simpa using hraw⟩⟩

/-- **What is reported with an event**, read anywhere in a source. -/
theorem read_comes (hc : c.In source) : Comes source (read c).value (read c).diagnostics := by
  unfold read
  split
  · next hrest =>
    exact .expression (Enclosed.readCode_within hc hrest) (Enclosed.readCode_reports hc)
  · unfold readComment
    dsimp only
    split
    · exact .comment
    · exact .openComment
  · exact .doctype
  · next s hrest =>
    split
    · exact .closing (ClosingTag.closingName?_read hc hrest)
    · exact .text
  · split
    · obtain ⟨ds, hds, hreports⟩ := StartTag.read_diagnostics hc
      obtain ⟨ds', hds', hbecomes⟩ := readElement_becomes hc
      rw [hds', hds]
      exact .startTag (StartTag.read_delimited hc) hreports hbecomes
    · exact .text
  · exact .text

lemma Comes.problem_cases {e : Event} {ds : List Diagnostic} (h : e.Comes source ds) :
    ∀ d ∈ ds, d.problem = .unclosedExpression ∨ d.problem = .unclosedComment ∨
      (∃ name, d.problem = .unclosedStartTag name) ∨ ∃ name, d.problem = .unclosedTag name := by
  cases h with
  | expression _ reports => exact fun d hd => .inl (reports d hd).problem
  | openComment => exact List.forall_mem_singleton.mpr (.inr (.inl rfl))
  | @startTag tag e ds ds' _ reports becomes =>
    have htag : ∀ d ∈ tag.unclosedReport, d.problem = .unclosedStartTag tag.name.text := by
      unfold StartTag.unclosedReport
      split
      · exact List.forall_mem_singleton.mpr rfl
      · simp
    have hraw : ∀ d ∈ ds', d.problem = .unclosedTag tag.name.text := by
      cases becomes with
      | openRawText => exact List.forall_mem_singleton.mpr rfl
      | _ => simp
    refine List.forall_mem_append.mpr ⟨List.forall_mem_append.mpr ⟨?_, ?_⟩, ?_⟩
    · exact fun d hd => .inl (reports d hd).problem
    · exact fun d hd => .inr (.inr (.inl ⟨_, htag d hd⟩))
    · exact fun d hd => .inr (.inr (.inr ⟨_, hraw d hd⟩))
  | _ => simp

/-- All that is known of an event and its reports. -/
structure Sound (source : Text) (e : Event) (ds : List Diagnostic) : Prop where
  faithful : e.Faithful source
  fits : e.span.Fits source
  comes : e.Comes source ds

lemma read_sound (hc : c.In source) : Sound source (read c).value (read c).diagnostics := by
  have h := read_readAt hc
  exact ⟨h.faithful, by rw [h.span_eq]; exact hc.fits_spanTo h.reaches, read_comes hc⟩

lemma Sound.holdsNodes {tag : StartTag} {ds : List Diagnostic}
    (h : Sound source (.opening tag) ds) : tag.HoldsNodes := by
  obtain ⟨_ | ⟨_, holds⟩, -, -⟩ := h
  exact holds

lemma Sound.descendants_leaf {n : Node} {ds : List Diagnostic} (h : Sound source (.leaf n) ds) :
    Node.descendants [n] = [n] := by
  obtain ⟨⟨hleaf⟩, -, -⟩ := h
  rw [Node.descendants_leaf hleaf, Node.descendants_nil]

lemma Sound.closing_name {tag : ClosingTag} {ds : List Diagnostic}
    (h : Sound source (.closing tag) ds) : closingName? source tag.span = some tag.name := by
  obtain ⟨-, -, hcomes⟩ := h
  cases hcomes with
  | closing name => exact name
  | startTag _ _ becomes => cases becomes

lemma Sound.closing_quiet {tag : ClosingTag} {ds : List Diagnostic}
    (h : Sound source (.closing tag) ds) : ds = [] := by
  obtain ⟨-, -, hcomes⟩ := h
  cases hcomes with
  | closing => rfl
  | startTag _ _ becomes => cases becomes

end Event

/-- **The tree of a source is built from sound events.** -/
theorem parse_built_sound {p : Parsed} (h : parse source = .ok p) :
    ∃ n : Nesting, n.levels = [] ∧ n.Built (Event.Sound source) source.size ∧
      p.document.nodes = n.nodes.reverse ∧
      p.diagnostics = (Frontmatter.read source).diagnostics ++ n.diagnostics.reverse :=
  parse_built Event.Sound.closing_quiet (fun _ => Event.read_sound) h

lemma parse_forall_descendants {P : Node → Prop} (hP : Nesting.Yields (Event.Sound source) P)
    {p : Parsed} (h : parse source = .ok p) : ∀ n ∈ Node.descendants p.document.nodes, P n :=
  parse_forall_nodes Event.Sound.closing_quiet (fun _ => Event.read_sound) hP h

/-- A sound event of which `Q` is known too. -/
def Event.SoundWith (source : Text) (Q : Event → Prop) (e : Event) (ds : List Diagnostic) : Prop :=
  e.Sound source ds ∧ Q e

lemma parse_forall_descendants_with {Q : Event → Prop} {P : Node → Prop}
    (hQ : ∀ c : Cursor, c.In source → Q (Event.read c).value)
    (hP : Nesting.Yields (Event.SoundWith source Q) P) {p : Parsed} (h : parse source = .ok p) :
    ∀ n ∈ Node.descendants p.document.nodes, P n :=
  parse_forall_nodes (fun he => he.1.closing_quiet) (fun c hc => ⟨Event.read_sound hc, hQ c hc⟩)
    hP h

lemma parse_forall_strays {Q : Event → Prop} {P : Span → Prop}
    (hQ : ∀ c : Cursor, c.In source → Q (Event.read c).value)
    (hP : ∀ {tag}, Event.SoundWith source Q (.closing tag) [] → P tag.span) {p : Parsed}
    (h : parse source = .ok p) : ∀ s ∈ strays p.diagnostics, P s := by
  -- no other report than that of a stray closing tag is about one
  have hwarns : Nesting.Warns (Event.SoundWith source Q) (fun d => ∀ s, d.stray? = some s → P s) :=
    { event := fun he d hd s hs => by
        rcases he.1.comes.problem_cases d hd with h | h | ⟨name, h⟩ | ⟨name, h⟩ <;>
          simp [Diagnostic.stray?, h] at hs
      stray := fun he s hs => by
        cases hs
        exact hP he
      mismatched := fun _ s hs => by cases hs
      unclosed := fun _ s hs => by cases hs }
  obtain ⟨n, -, hbuilt, -, hdiagnostics⟩ := parse_built (E := Event.SoundWith source Q)
    (fun he => he.1.closing_quiet) (fun c hc => ⟨Event.read_sound hc, hQ c hc⟩) h
  rw [hdiagnostics, strays_append, (Frontmatter.read_readFrom source).quiet, List.nil_append]
  intro s hs
  obtain ⟨d, hd, hstray⟩ := List.mem_filterMap.mp hs
  exact hbuilt.forall_diagnostics hwarns d (List.mem_reverse.mp hd) s hstray

end TsxLowering.Markup
