import TsxLowering.Markup.Event
import TsxLowering.Proofs.Faithful.StartTag

/-!
Events as they stand in the source.

An event begins where the reader stands and ends where it reads on. What it holds is faithful:
a node without nodes inside, the start tag of an element with content to come, or a closing tag.
-/

namespace TsxLowering.Markup

variable {source : Text}

/-! ### Diagnostics -/

/-- Where a closing tag was reported that closes nothing. -/
def Diagnostic.stray? (d : Diagnostic) : Option Span :=
  match d.problem with
  | .strayClosingTag _ => some d.span
  | _ => none

/-- The spans of the closing tags that were reported to close nothing. -/
def strays (diagnostics : List Diagnostic) : List Span := diagnostics.filterMap Diagnostic.stray?

@[simp] lemma strays_nil : strays [] = [] := rfl

@[simp] lemma strays_cons (d : Diagnostic) (ds : List Diagnostic) :
    strays (d :: ds) = d.stray?.toList ++ strays ds := by
  cases h : d.stray? <;> simp [strays, h]

@[simp] lemma strays_append (ds es : List Diagnostic) :
    strays (ds ++ es) = strays ds ++ strays es := List.filterMap_append

lemma strays_reverse (ds : List Diagnostic) : strays ds.reverse = (strays ds).reverse :=
  List.filterMap_reverse

lemma Enclosed.strays_readCode (c : Cursor) : strays (readCode c).diagnostics = [] := by
  simp only [readCode]
  split <;> rfl

lemma Attribute.Value.strays_read (c : Cursor) : strays (Value.read c).diagnostics = [] := by
  simp only [Value.read]
  split
  iterate 3
    · rfl
  · exact Enclosed.strays_readCode _
  · rfl

lemma StartTag.Item.strays_attribute {c : Cursor} {a : Reading Attribute}
    (h : Item.read c = .attribute a) : strays a.diagnostics = [] := by
  unfold Item.read at h
  dsimp only at h
  split at h
  · cases h
    unfold Attribute.readNamed
    dsimp only
    split
    · exact Attribute.Value.strays_read _
    · rfl
  · split at h <;> cases h
    rfl
  all_goals cases h

lemma StartTag.Item.strays_missing {c : Cursor} {ds : List Diagnostic}
    (h : Item.read c = .missing ds) : strays ds = [] := by
  unfold Item.read at h
  dsimp only at h
  split at h
  · cases h
  · split at h <;> cases h
    rfl
  all_goals cases h
  all_goals rfl

lemma StartTag.Tail.strays_read (last c : Cursor) : strays (Tail.read last c).diagnostics = [] := by
  fun_induction Tail.read last c with
  | case1 last c a h ih => simp [Tail.cons, Item.strays_attribute h, ih]
  | case2 last c next h ih => exact ih
  | case3 => rfl
  | case4 last c ds h => exact Item.strays_missing h

lemma StartTag.strays_read (c : Cursor) : strays (read c).diagnostics = [] := by
  simp only [read, strays_append, Tail.strays_read, List.nil_append]
  split <;> rfl

/-! ### Nodes without nodes inside -/

/-- Nodes stand between the tags of the element. -/
def StartTag.HoldsNodes (t : StartTag) : Prop :=
  t.ending = .closed ∧ t.isVoid = false ∧ t.isRawText = false

/-- Where the content of an element ends. -/
def Element.contentEnd (e : Element) : Nat := e.endTag.elim e.span.stop Span.start

structure Element.Faithful (source : Text) (e : Element) : Prop where
  fits : e.span.Fits source
  startTag : e.startTag.Faithful source
  start_eq : e.span.start = e.startTag.span.start
  endTag : ∀ t, e.endTag = some t → t.Fits source ∧ t.stop = e.span.stop

lemma Element.Faithful.contentEnd_le {e : Element} (h : e.Faithful source) :
    e.contentEnd ≤ e.span.stop := by
  cases ht : e.endTag with
  | none => simp [Element.contentEnd, ht]
  | some t =>
    obtain ⟨hfits, hstop⟩ := h.endTag t ht
    simp only [Element.contentEnd, ht, Option.elim, ← hstop]
    exact hfits.start_le

lemma Element.Faithful.contentEnd_boundary {e : Element} (he : e.Faithful source) :
    source.Boundary e.contentEnd := by
  cases ht : e.endTag with
  | none =>
    rw [Element.contentEnd, ht]
    exact he.fits.stop_boundary
  | some t =>
    rw [Element.contentEnd, ht]
    exact (he.endTag t ht).1.start_boundary

lemma Element.Faithful.start_lt {e : Element} (h : e.Faithful source) :
    e.span.start < e.startTag.span.stop := by
  rw [h.start_eq]
  exact h.startTag.start_lt

/-- A node that is complete in itself. -/
inductive Node.Leaf (source : Text) : Node → Prop
  | text {t : Excerpt} (h : t.Faithful source) : Leaf source (.text t)
  | expression {e : Enclosed} (h : e.Faithful source) : Leaf source (.expression e)
  | comment {span : Span} {data : Excerpt} (fits : span.Fits source)
      (data_faithful : data.Faithful source) (start_le : span.start ≤ data.span.start)
      (stop_le : data.span.stop ≤ span.stop) : Leaf source (.comment span data)
  | doctype {span : Span} (fits : span.Fits source) : Leaf source (.doctype span)
  | unclosed {e : Element} (h : e.Faithful source) (ending : e.startTag.ending = .unclosed)
      (rawText : e.rawText = none) (endTag : e.endTag = none)
      (span : e.span = e.startTag.span) : Leaf source (.element e [])
  | childless {e : Element} (h : e.Faithful source) (ending : e.startTag.ending ≠ .unclosed)
      (kind : e.startTag.ending = .selfClosing ∨ e.startTag.isVoid = true)
      (rawText : e.rawText = none) (contentEnd : e.contentEnd = e.startTag.span.stop)
      (void : e.endTag.isSome = true → e.startTag.isVoid = true) : Leaf source (.element e [])
  | rawText {e : Element} {raw : Span} (h : e.Faithful source)
      (ending : e.startTag.ending = .closed) (void : e.startTag.isVoid = false)
      (kind : e.startTag.isRawText = true) (rawText : e.rawText = some raw)
      (fits : raw.Fits source) (start_eq : raw.start = e.startTag.span.stop)
      (contentEnd : e.contentEnd = raw.stop) : Leaf source (.element e [])

lemma Node.Leaf.fits {n : Node} (h : n.Leaf source) : n.span.Fits source := by
  cases h with
  | text h => exact h.fits
  | expression h => exact h.fits
  | comment fits => exact fits
  | doctype fits => exact fits
  | unclosed h => exact h.fits
  | childless h => exact h.fits
  | rawText h => exact h.fits

namespace Event

inductive Faithful (source : Text) : Event → Prop
  | leaf {n : Node} (h : n.Leaf source) : Faithful source (.leaf n)
  | opening {tag : StartTag} (h : tag.Faithful source) (holds : tag.HoldsNodes) :
      Faithful source (.opening tag)
  | closing {tag : ClosingTag} : Faithful source (.closing tag)

/-- What a reading of an event at `c` has come to. -/
structure ReadAt (source : Text) (c : Cursor) (r : Reading Event) : Prop where
  faithful : r.value.Faithful source
  span_eq : r.value.span = c.spanTo r.next
  reaches : c.Reaches r.next
  quiet : strays r.diagnostics = []

variable {c : Cursor}

lemma readText_readAt (hc : c.In source) : ReadAt source c (readText c) :=
  ⟨.leaf (.text (hc.excerpt _)), rfl, c.reaches_advance _, rfl⟩

lemma readExpression_readAt {s : Text} (hc : c.In source) (hrest : c.rest = '\x7b' :: s) :
    ReadAt source c (readExpression c) :=
  ⟨.leaf (.expression (Enclosed.readCode_faithful hc hrest)), Enclosed.span_readCode c,
    Enclosed.readCode_reaches c, Enclosed.strays_readCode c⟩

lemma readComment_readAt (hc : c.In source) : ReadAt source c (readComment c) := by
  have hdata (n : Nat) : ((c.advance 4).excerpt n).Faithful source := (hc.advance 4).excerpt n
  have hopen := (c.reaches_advance 4).pos_le
  unfold readComment
  dsimp only
  split
  · next data rest h =>
    have hreach : c.Reaches ((c.advance 4).advance (data.length + 3)) :=
      (c.reaches_advance 4).trans (Cursor.reaches_advance ..)
    refine ⟨.leaf (.comment (hc.fits_spanTo hreach) (hdata _) hopen ?_), rfl, hreach, rfl⟩
    exact (Cursor.reaches_advance_advance (Nat.le_add_right ..)).pos_le
  · refine ⟨.leaf (.comment (hc.fits_spanTo c.reaches_atEnd) (hdata _) hopen ?_), rfl,
      c.reaches_atEnd, rfl⟩
    rw [Cursor.spanTo, hc.pos_atEnd]
    exact (hdata _).fits.stop_boundary.le_size

lemma readDoctype_readAt (hc : c.In source) : ReadAt source c (readDoctype c) := by
  unfold readDoctype
  dsimp only
  split
  · exact ⟨.leaf (.doctype (hc.fits_spanTo (c.reaches_advance _))), rfl, c.reaches_advance _, rfl⟩
  · exact ⟨.leaf (.doctype (hc.fits_spanTo c.reaches_atEnd)), rfl, c.reaches_atEnd, rfl⟩

end Event

lemma ClosingTag.read_reaches (c : Cursor) : c.Reaches (ClosingTag.read c).2 := by
  have hname (n : Nat) : c.Reaches ((c.advance 2).advance n) :=
    (c.reaches_advance 2).trans (Cursor.reaches_advance ..)
  simp only [ClosingTag.read]
  split
  · exact (hname _).trans (Token.next_reaches _)
  · exact hname _

lemma ClosingTag.span_read (c : Cursor) :
    (ClosingTag.read c).1.span = c.spanTo (ClosingTag.read c).2 := rfl

/-! ### Elements and the events of a text -/

namespace Event

variable {c : Cursor}

lemma readVoidEnd_cases (tag : StartTag) (c : Cursor) :
    readVoidEnd tag c = (none, c) ∨
      tag.isVoid = true ∧ ∃ d, c.Reaches d ∧ readVoidEnd tag c = (some (c.spanTo d), d) := by
  unfold readVoidEnd
  split
  · dsimp only
    split
    · next h =>
      rw [Bool.and_eq_true] at h
      exact .inr ⟨h.1, _, ClosingTag.read_reaches c, rfl⟩
    · exact .inl rfl
  · exact .inl rfl

lemma readElement_childless {tag : StartTag} {d : Cursor} (hc : c.In source) (hd : c.Reaches d)
    (htag : tag.Faithful source) (hspan : tag.span = c.spanTo d)
    (hclosed : tag.ending ≠ .unclosed) (hkind : tag.ending = .selfClosing ∨ tag.isVoid = true) :
    c.Reaches (readVoidEnd tag d).2 ∧
      Node.Leaf source
        (.element ⟨c.spanTo (readVoidEnd tag d).2, tag, none, (readVoidEnd tag d).1⟩ []) := by
  have hstart : c.pos = tag.span.start := by rw [hspan]; rfl
  have hstop : tag.span.stop = d.pos := by rw [hspan]; rfl
  rcases readVoidEnd_cases tag d with h | ⟨hvoid, e, he, h⟩
  · rw [h]
    exact ⟨hd, .childless ⟨hc.fits_spanTo hd, htag, hstart, by simp⟩ hclosed hkind rfl hstop.symm
      (by simp)⟩
  · rw [h]
    refine ⟨hd.trans he, .childless ⟨hc.fits_spanTo (hd.trans he), htag, hstart, ?_⟩ hclosed hkind
      rfl hstop.symm fun _ => hvoid⟩
    rintro t ⟨⟩
    exact ⟨(hc.reaches hd).fits_spanTo he, rfl⟩

lemma readRawText_spec {tag : StartTag} {d : Cursor} (hc : c.In source) (hd : c.Reaches d)
    (htag : tag.Faithful source) (hspan : tag.span = c.spanTo d)
    (hclosed : tag.ending = .closed) (hvoid : tag.isVoid = false)
    (hraw : tag.isRawText = true) :
    c.Reaches (readRawText tag d).next ∧ strays (readRawText tag d).diagnostics = [] ∧
      Node.Leaf source (.element ⟨c.spanTo (readRawText tag d).next, tag,
        some (readRawText tag d).value.1, (readRawText tag d).value.2⟩ []) := by
  have hstart : c.pos = tag.span.start := by rw [hspan]; rfl
  have hstop : tag.span.stop = d.pos := by rw [hspan]; rfl
  have hin := hc.reaches hd
  unfold readRawText
  split
  · next n h =>
    have hcloser := ClosingTag.read_reaches (d.advance n)
    have hreach := hd.trans ((d.reaches_advance n).trans hcloser)
    refine ⟨hreach, rfl, .rawText ⟨hc.fits_spanTo hreach, htag, hstart, ?_⟩ hclosed hvoid hraw rfl
      (hin.fits_spanTo (d.reaches_advance n)) hstop.symm rfl⟩
    rintro t ⟨⟩
    exact ⟨(hin.advance n).fits_spanTo hcloser, rfl⟩
  · have hreach := hd.trans d.reaches_atEnd
    exact ⟨hreach, rfl, .rawText ⟨hc.fits_spanTo hreach, htag, hstart, by simp⟩ hclosed hvoid hraw
      rfl (hin.fits_spanTo d.reaches_atEnd) hstop.symm rfl⟩

lemma readElement_readAt {s : Text} (hc : c.In source) (hrest : c.rest = '<' :: s) :
    ReadAt source c (readElement c) := by
  have htag := StartTag.read_faithful hc hrest
  have hspan := StartTag.span_read c
  have hreach := StartTag.read_reaches hc
  have hquiet := StartTag.strays_read c
  simp only [readElement]
  split
  · next hending =>
    exact ⟨.leaf (.unclosed ⟨htag.fits, htag, rfl, by simp⟩ hending rfl rfl rfl), hspan, hreach,
      hquiet⟩
  · next hclosed =>
    split
    · next hkind =>
      have h := readElement_childless hc hreach htag hspan hclosed (by simpa using hkind)
      exact ⟨.leaf h.2, rfl, h.1, hquiet⟩
    · next hkind =>
      simp only [Bool.or_eq_true, decide_eq_true_eq, not_or, Bool.not_eq_true] at hkind
      have hclosed : (StartTag.read c).value.ending = .closed := by
        cases h : (StartTag.read c).value.ending <;> simp_all
      split
      · next hraw =>
        obtain ⟨hnext, hstrays, hleaf⟩ :=
          readRawText_spec hc hreach htag hspan hclosed hkind.2 hraw
        exact ⟨.leaf hleaf, rfl, hnext, by simp [hquiet, hstrays]⟩
      · next hraw =>
        exact ⟨.opening htag ⟨hclosed, hkind.2, by simpa using hraw⟩, hspan, hreach, hquiet⟩

/-- **An event is what the source says**: it begins at the cursor, ends where the reader goes on,
and all it holds is faithful. -/
theorem read_readAt (hc : c.In source) : ReadAt source c (read c) := by
  unfold read
  split
  · next hrest => exact readExpression_readAt hc hrest
  · exact readComment_readAt hc
  · exact readDoctype_readAt hc
  · split
    · exact ⟨.closing, ClosingTag.span_read c, ClosingTag.read_reaches c, rfl⟩
    · exact readText_readAt hc
  · next hrest =>
    split
    · exact readElement_readAt hc hrest
    · exact readText_readAt hc
  · exact readText_readAt hc

lemma span_read_lt (hc : c.In source) (hne : c.rest ≠ []) :
    (read c).value.span.start < (read c).value.span.stop := by
  have h := read_readAt hc
  rw [h.span_eq]
  exact h.reaches.pos_lt (read_rest_lt hne)

end Event

end TsxLowering.Markup
