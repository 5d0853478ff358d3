import TsxLowering.Markup.StartTag
import TsxLowering.Proofs.CodeScan
import TsxLowering.Proofs.Cursor

/-!
Attributes and start tags as they stand in the source.

A part is faithful when its spans lie in the source in the order in which it was written, and
every text it stores is the source under the span of that text. All that the reader of start
tags returns is faithful, and a tag that ends has no part in it that does not.
-/

namespace TsxLowering.Markup

variable {source : Text}

/-- The text is what stands between the delimiters. -/
structure Enclosed.Faithful (source : Text) (e : Enclosed) : Prop where
  fits : e.span.Fits source
  text : source.slice? e.innerSpan.start e.innerSpan.stop = some e.text
  toEnd : e.closed = false → e.span.stop = source.size

namespace Enclosed

lemma Faithful.inner_fits {e : Enclosed} (h : e.Faithful source) : e.innerSpan.Fits source :=
  ⟨_, h.text⟩

lemma innerSpan_stop_le (e : Enclosed) : e.innerSpan.stop ≤ e.span.stop := by
  unfold innerSpan
  split <;> simp

lemma span_read (c : Cursor) (split : Option (Text × Text)) :
    (read c split).1.span = c.spanTo (read c split).2 := by
  cases split <;> rfl

lemma read_reaches (c : Cursor) (split : Option (Text × Text)) :
    c.Reaches (read c split).2 := by
  cases split with
  | none => exact c.reaches_atEnd
  | some p => exact c.reaches_advance _

lemma read_unclosed {c : Cursor} {split : Option (Text × Text)}
    (h : (read c split).1.closed = false) : (read c split).2.rest = [] := by
  cases split with
  | none => simp [read, Cursor.atEnd]
  | some p => cases h

lemma read_faithful {c : Cursor} {opening : Char} (closing : Char) {s : Text}
    {split : Option (Text × Text)} (hc : c.In source) (hrest : c.rest = opening :: s)
    (hopening : opening.utf8Size = 1) (hclosing : closing.utf8Size = 1)
    (hsplit : ∀ inner rest, split = some (inner, rest) → s = inner ++ closing :: rest) :
    (read c split).1.Faithful source := by
  have hfits := hc.fits_spanTo (read_reaches c split)
  rw [← span_read] at hfits
  have hafter : c.advance 1 = ⟨c.pos + 1, s⟩ := by
    rw [Cursor.advance_one_of_rest hrest, hopening]
  cases split with
  | none =>
    refine ⟨hfits, ?_, fun _ => hc.pos_atEnd⟩
    -- all after the opening delimiter, up to the end
    have hin := hc.advance 1
    have h := hin.excerpt s.length
    have hend := hin.pos_atEnd
    rw [hafter] at h hend
    simp only [Excerpt.Faithful, Cursor.excerpt, Cursor.spanTo, List.take_length] at h
    rw [show (Cursor.advance ⟨c.pos + 1, s⟩ s.length).pos = source.size from hend,
      ← hc.pos_atEnd] at h
    simpa [read, innerSpan, Cursor.spanTo, hrest] using h
  | some p =>
    obtain ⟨inner, rest⟩ := p
    obtain rfl := hsplit inner rest rfl
    refine ⟨hfits, ?_, by simp [read]⟩
    have h := (hc.advance 1).excerpt inner.length
    have hstop : (c.advance (inner.length + 2)).pos = c.pos + 1 + inner.size + 1 := by
      have := Cursor.advance_eq_of_rest (c := c) (t := opening :: inner ++ [closing]) (s := rest)
        (by simp [hrest])
      simp only [List.cons_append, List.length_cons, List.length_append, List.length_nil] at this
      rw [this]
      simp [hopening, hclosing]
      omega
    rw [hafter] at h
    simp only [Excerpt.Faithful, Cursor.excerpt, Cursor.spanTo, Cursor.advance,
      List.take_left] at h
    simpa [read, innerSpan, Cursor.spanTo, hstop] using h

lemma readCode_reaches (c : Cursor) : c.Reaches (readCode c).next := read_reaches ..

lemma span_readCode (c : Cursor) : (readCode c).value.span = c.spanTo (readCode c).next :=
  span_read ..

lemma readCode_faithful {c : Cursor} {s : Text} (hc : c.In source) (hrest : c.rest = '\x7b' :: s) :
    (readCode c).value.Faithful source := by
  refine read_faithful '\x7d' hc hrest rfl rfl fun inner rest h => ?_
  rw [hrest] at h
  exact Code.append_of_split h

end Enclosed

/-! ### Tokens -/

namespace Token

lemma next_reaches (c : Cursor) : c.Reaches (next c).2 :=
  (c.reaches_skipWhile isSkipped).trans (Cursor.reaches_advance ..)

lemma next_snd (c : Cursor) :
    (next c).2 = (c.skipWhile isSkipped).advance (lexeme (c.skipWhile isSkipped).rest).2 := rfl

lemma lexeme_of_tagEnd {s : Text} (h : (lexeme s).1 = .tagEnd) :
    ∃ r, s = '>' :: r ∧ (lexeme s).2 = 1 := by
  revert h
  fun_cases lexeme s <;> simp

lemma lexeme_of_selfClosingEnd {s : Text} (h : (lexeme s).1 = .selfClosingEnd) :
    ∃ r, s = '/' :: '>' :: r ∧ (lexeme s).2 = 2 := by
  revert h
  fun_cases lexeme s <;> simp

end Token

/-! ### Attributes -/

namespace Attribute

/-- The value, with its delimiters, ends at `stop`, and nothing of it lies before `start`. -/
def Value.Faithful (source : Text) (start stop : Nat) : Value → Prop
  | .empty => start = stop
  | .quoted v | .expression v | .template v =>
    v.Faithful source ∧ start ≤ v.span.start ∧ v.span.stop = stop
  | .unquoted v => v.Faithful source ∧ start ≤ v.span.start ∧ v.span.stop = stop

def Value.isClosed : Value → Bool
  | .quoted v | .expression v | .template v => v.closed
  | .empty | .unquoted _ => true

def Faithful (source : Text) : Attribute → Prop
  | .normal span name value =>
    name.Faithful source ∧ name.span.start = span.start ∧ name.span.start < name.span.stop ∧
      value.Faithful source name.span.stop span.stop
  | .spread span part | .shorthand span part =>
    span.Fits source ∧ part.Faithful source ∧ span.start < part.span.start ∧
      part.span.stop < span.stop

def isClosed : Attribute → Bool
  | .normal _ _ value => value.isClosed
  | .spread .. | .shorthand .. => true

lemma Value.Faithful.start_le {start stop : Nat} {v : Value} (h : v.Faithful source start stop) :
    start ≤ stop := by
  cases v with
  | empty => exact Nat.le_of_eq h
  | unquoted v => obtain ⟨hv, hle, rfl⟩ := h; exact Nat.le_trans hle hv.fits.start_le
  | _ v => obtain ⟨hv, hle, rfl⟩ := h; exact Nat.le_trans hle hv.fits.start_le

lemma Value.Faithful.stop_boundary {start stop : Nat} {v : Value}
    (h : v.Faithful source start stop) (hstart : source.Boundary start) :
    source.Boundary stop := by
  cases v with
  | empty => exact h ▸ hstart
  | unquoted v => obtain ⟨hv, -, rfl⟩ := h; exact hv.fits.stop_boundary
  | _ v => obtain ⟨hv, -, rfl⟩ := h; exact hv.fits.stop_boundary

lemma Faithful.start_lt {a : Attribute} (h : a.Faithful source) : a.span.start < a.span.stop := by
  cases a with
  | normal span name value =>
    obtain ⟨-, hstart, hlt, hvalue⟩ := h
    have := hvalue.start_le
    simp only [Attribute.span]
    omega
  | _ span part =>
    obtain ⟨-, hpart, hstart, hstop⟩ := h
    have := hpart.fits.start_le
    simp only [Attribute.span]
    omega

lemma Faithful.fits {a : Attribute} (h : a.Faithful source) : a.span.Fits source := by
  have hlt := h.start_lt
  cases a with
  | normal span name value =>
    obtain ⟨hname, hstart, -, hvalue⟩ := h
    refine Span.fits_iff.mpr ⟨Nat.le_of_lt hlt, ?_, hvalue.stop_boundary hname.fits.stop_boundary⟩
    exact hstart ▸ hname.fits.start_boundary
  | _ span part => exact h.1

lemma Value.read_reaches (c : Cursor) : c.Reaches (Value.read c).next := by
  refine (c.reaches_skipWhile isAsciiBlank).trans ?_
  simp only [Value.read]
  split
  iterate 4
    · exact Enclosed.read_reaches ..
  · exact Cursor.reaches_advance ..

lemma Value.read_faithful {c : Cursor} {start : Nat} (hc : c.In source) (hstart : start ≤ c.pos) :
    (Value.read c).value.Faithful source start (Value.read c).next.pos := by
  have hle := Nat.le_trans hstart (c.reaches_skipWhile isAsciiBlank).pos_le
  replace hc := hc.reaches (c.reaches_skipWhile isAsciiBlank)
  simp only [Value.read]
  split
  · next s hrest =>
    refine ⟨Enclosed.read_faithful '"' hc hrest rfl rfl fun inner rest => ?_, ?_, ?_⟩
    · exact Text.append_of_splitOnce
    · rwa [Enclosed.span_read]
    · rw [Enclosed.span_read]; rfl
  · next s hrest =>
    refine ⟨Enclosed.read_faithful '\'' hc hrest rfl rfl fun inner rest => ?_, ?_, ?_⟩
    · exact Text.append_of_splitOnce
    · rwa [Enclosed.span_read]
    · rw [Enclosed.span_read]; rfl
  · next s hrest =>
    refine ⟨Enclosed.read_faithful '`' hc hrest rfl rfl fun inner rest => ?_, ?_, ?_⟩
    · exact Code.append_of_splitTemplate
    · rwa [Enclosed.span_read]
    · rw [Enclosed.span_read]; rfl
  · next s hrest =>
    refine ⟨Enclosed.readCode_faithful hc hrest, ?_, ?_⟩
    · rwa [Enclosed.span_readCode]
    · rw [Enclosed.span_readCode]; rfl
  · exact ⟨hc.excerpt _, hle, rfl⟩

lemma Value.read_unclosed {c : Cursor} (h : (Value.read c).value.isClosed = false) :
    (Value.read c).next.rest = [] := by
  simp only [Value.read] at h ⊢
  split at h
  iterate 4
    · exact Enclosed.read_unclosed h
  · cases h

/-- What a reading of an attribute, begun at `c`, has come to. -/
structure ReadAt (source : Text) (c : Cursor) (r : Reading Attribute) : Prop where
  faithful : r.value.Faithful source
  start_le : c.pos ≤ r.value.span.start
  stop_eq : r.value.span.stop = r.next.pos
  reaches : c.Reaches r.next
  unclosed : r.value.isClosed = false → r.next.rest = []

lemma readNamed_readAt {c d : Cursor} {name : Excerpt} (hc : c.In source) (hd : c.Reaches d)
    (hname : name.Faithful source) (hstart : c.pos ≤ name.span.start)
    (hlt : name.span.start < name.span.stop) (hstop : name.span.stop = d.pos) :
    ReadAt source c (readNamed name d) := by
  have hnext := Token.next_reaches d
  have hin := (hc.reaches hd).reaches hnext
  unfold readNamed
  dsimp only
  split
  · have hvalue := Value.read_faithful hin (hstop ▸ hnext.pos_le)
    have hreach := hd.trans (hnext.trans (Value.read_reaches (Token.next d).2))
    exact ⟨⟨hname, rfl, hlt, hvalue⟩, hstart, rfl, hreach, Value.read_unclosed⟩
  · exact ⟨⟨hname, rfl, hlt, hstop⟩, hstart, rfl, hd, by simp [isClosed, Value.isClosed]⟩

lemma takeWhile_append_of_neg {p : Char → Bool} {x : Char} (h : p x = false) (s t : Text) :
    (s ++ x :: t).takeWhile p = s.takeWhile p := by
  induction s with
  | nil => simp [h]
  | cons c s ih => cases hc : p c <;> simp [hc, ih]

lemma length_trim_add_le (s : Text) :
    (s.takeWhile isBlank).length + s.trim.length ≤ s.length := by
  obtain ⟨trail, -, htrail⟩ := Text.exists_trim_append s
  have hsplit := congrArg List.length (List.takeWhile_append_dropWhile (p := isBlank) (l := s))
  rw [htrail, List.length_append, List.length_append] at hsplit
  omega

lemma span_ofBraces (start : Nat) (c : Cursor) (inner : Text) :
    (ofBraces start c inner).span = ⟨start, (c.advance (inner.length + 1)).pos⟩ := by
  unfold ofBraces
  dsimp only
  split <;> rfl

lemma ofBraces_faithful {start : Nat} {c : Cursor} {inner rest : Text} (hc : c.In source)
    (hstart : source.Boundary start) (hlt : start < c.pos)
    (hrest : c.rest = inner ++ '\x7d' :: rest) : (ofBraces start c inner).Faithful source := by
  have hspan : Span.Fits ⟨start, (c.advance (inner.length + 1)).pos⟩ source :=
    Span.fits_of_boundary hstart (hc.advance _).boundary
      (Nat.le_trans (Nat.le_of_lt hlt) (c.reaches_advance _).pos_le)
  have hskip : c.skipWhile isBlank = c.advance (inner.takeWhile isBlank).length := by
    rw [Cursor.skipWhile, hrest, takeWhile_append_of_neg (by decide)]
  have hroom := length_trim_add_le inner
  -- whatever ends inside the braces ends before the closing one
  have hbefore (n : Nat) (hn : n ≤ inner.length) :
      (c.advance n).pos < (c.advance (inner.length + 1)).pos := by
    refine Nat.lt_of_le_of_lt (Cursor.reaches_advance_advance hn).pos_le ?_
    rw [← Cursor.advance_advance]
    exact Cursor.pos_lt_advance Nat.one_pos (by simp [hrest])
  unfold ofBraces
  dsimp only
  rw [hskip]
  split
  · next code hbody =>
    rw [hbody] at hroom
    simp only [List.length_cons] at hroom
    refine ⟨hspan, ((hc.advance _).advance _).excerpt _, ?_, ?_⟩
    · rw [Cursor.advance_advance]
      exact Nat.lt_of_lt_of_le hlt (c.reaches_advance _).pos_le
    · simp only [Cursor.excerpt, Cursor.spanTo, Cursor.advance_advance]
      exact hbefore _ (by omega)
  · refine ⟨hspan, (hc.advance _).excerpt _, ?_, ?_⟩
    · exact Nat.lt_of_lt_of_le hlt (c.reaches_advance _).pos_le
    · simp only [Cursor.excerpt, Cursor.spanTo, Cursor.advance_advance]
      exact hbefore _ (by omega)

/-- Attributes one behind the other, all between two offsets. -/
def InOrder (source : Text) : Nat → List Attribute → Nat → Prop
  | start, [], stop => start ≤ stop
  | start, a :: rest, stop =>
    start ≤ a.span.start ∧ a.Faithful source ∧ InOrder source a.span.stop rest stop

/-- Where the last of the attributes ends, or else `start`. -/
def endOf (start : Nat) : List Attribute → Nat
  | [] => start
  | a :: rest => endOf a.span.stop rest

lemma InOrder.le {start stop : Nat} {attributes : List Attribute}
    (h : InOrder source start attributes stop) : start ≤ stop := by
  induction attributes generalizing start with
  | nil => exact h
  | cons a rest ih =>
    obtain ⟨hle, ha, hrest⟩ := h
    have := ha.start_lt
    have := ih hrest
    omega

lemma InOrder.bounds {start stop : Nat} {attributes : List Attribute}
    (h : InOrder source start attributes stop) :
    ∀ a ∈ attributes, a.span.start < a.span.stop ∧ start ≤ a.span.start ∧ a.span.stop ≤ stop := by
  induction attributes generalizing start with
  | nil => simp
  | cons b rest ih =>
    obtain ⟨hle, hb, hrest⟩ := h
    have hlt := hb.start_lt
    intro a ha
    rcases List.mem_cons.mp ha with rfl | ha
    · exact ⟨hlt, hle, hrest.le⟩
    · have := ih hrest a ha
      omega

lemma InOrder.faithful {start stop : Nat} {attributes : List Attribute}
    (h : InOrder source start attributes stop) : ∀ a ∈ attributes, a.Faithful source := by
  induction attributes generalizing start with
  | nil => simp
  | cons a rest ih => exact List.forall_mem_cons.mpr ⟨h.2.1, ih h.2.2⟩

lemma InOrder.endOf_bounds {start stop : Nat} {attributes : List Attribute}
    (h : InOrder source start attributes stop) (hstart : source.Boundary start) :
    source.Boundary (endOf start attributes) ∧
      start ≤ endOf start attributes := by
  induction attributes generalizing start with
  | nil => exact ⟨hstart, Nat.le_refl _⟩
  | cons a rest ih =>
    obtain ⟨hle, ha, hrest⟩ := h
    obtain ⟨hboundary, hend⟩ := ih hrest ha.fits.stop_boundary
    have := ha.start_lt
    exact ⟨hboundary, by simp only [endOf]; omega⟩

lemma endOf_eq (start : Nat) (attributes : List Attribute) :
    endOf start attributes = (attributes.getLast?.map (·.span.stop)).getD start := by
  induction attributes generalizing start with
  | nil => rfl
  | cons a rest ih => simp [endOf, ih, List.getLast?_cons]

end Attribute

/-! ### Start tags -/

namespace StartTag

/-- How much of the source between two offsets an ending takes. -/
def Ending.Between (source : Text) (start stop : Nat) : Ending → Prop
  | .unclosed => start = stop
  | .closed => start < stop ∧ source.Boundary (stop - 1)
  | .selfClosing => start + 2 ≤ stop

lemma Item.read_attribute {c : Cursor} {a : Reading Attribute} (hc : c.In source)
    (h : Item.read c = .attribute a) : Attribute.ReadAt source c a := by
  have hskip := c.reaches_skipWhile Token.isSkipped
  have hin := hc.reaches hskip
  have hlt (hkind : (Token.next c).1.kind ≠ .endOfInput) :
      (Token.next c).1.span.start < (Token.next c).2.pos := by
    have hne : (c.skipWhile Token.isSkipped).rest ≠ [] := mt Token.lexeme_endOfInput_iff.mpr hkind
    exact Cursor.pos_lt_advance (Token.lexeme_pos hne) hne
  unfold Item.read at h
  dsimp only at h
  split at h
  · next hkind =>
    cases h
    exact Attribute.readNamed_readAt hc (Token.next_reaches c) (hin.excerpt _) hskip.pos_le
      (hlt (by simp [hkind])) rfl
  · next hkind =>
    split at h
    · next inner rest hsplit =>
      cases h
      have hreach := Token.next_reaches c
      have hspan := Attribute.span_ofBraces (Token.next c).1.span.start (Token.next c).2 inner
      refine ⟨?_, by rw [hspan]; exact hskip.pos_le, by rw [hspan],
        hreach.trans (Cursor.reaches_advance ..), ?_⟩
      · exact Attribute.ofBraces_faithful (hc.reaches hreach) hin.boundary (hlt (by simp [hkind]))
          (Code.append_of_split hsplit)
      · intro hclosed
        unfold Attribute.ofBraces at hclosed
        dsimp only at hclosed
        split at hclosed <;> cases hclosed
    · cases h
  all_goals cases h

lemma Item.read_stray {c next : Cursor} (h : Item.read c = .stray next) : c.Reaches next := by
  unfold Item.read at h
  dsimp only at h
  split at h
  · cases h
  · split at h <;> cases h
  all_goals cases h
  all_goals exact Token.next_reaches c

lemma Item.read_tagEnd {c next : Cursor} {ending : Ending} (hc : c.In source)
    (h : Item.read c = .tagEnd ending next) :
    c.Reaches next ∧ ending ≠ .unclosed ∧ ending.Between source c.pos next.pos := by
  have hskip := c.reaches_skipWhile Token.isSkipped
  have hle := hskip.pos_le
  unfold Item.read at h
  dsimp only at h
  split at h
  · cases h
  · split at h <;> cases h
  · next hkind =>
    cases h
    obtain ⟨r, hr, hn⟩ := Token.lexeme_of_tagEnd hkind
    have hnext : (Token.next c).2.pos = (c.skipWhile Token.isSkipped).pos + 1 := by
      rw [Token.next_snd, hn, Cursor.advance_one_of_rest hr]
      rfl
    refine ⟨Token.next_reaches c, by simp, by omega, ?_⟩
    rw [hnext, Nat.add_sub_cancel]
    exact (hc.reaches hskip).boundary
  · next hkind =>
    cases h
    obtain ⟨r, hr, hn⟩ := Token.lexeme_of_selfClosingEnd hkind
    have hnext : (Token.next c).2.pos = (c.skipWhile Token.isSkipped).pos + 2 := by
      rw [Token.next_snd, hn]
      exact congrArg Cursor.pos (Cursor.advance_eq_of_rest (t := ['/', '>']) hr)
    refine ⟨Token.next_reaches c, by simp, ?_⟩
    show c.pos + 2 ≤ (Token.next c).2.pos
    omega
  all_goals cases h

lemma Item.read_of_nil {c : Cursor} (h : c.rest = []) : Item.read c = .missing [] := by
  have hskip : (c.skipWhile Token.isSkipped).rest = [] := by simp [Cursor.skipWhile, h]
  have hkind : (Token.next c).1.kind = .endOfInput := Token.lexeme_endOfInput_iff.mpr hskip
  unfold Item.read
  simp only [hkind]

lemma Ending.Between.mono {start start' stop : Nat} {ending : Ending} (hne : ending ≠ .unclosed)
    (hle : start' ≤ start) (h : ending.Between source start stop) :
    ending.Between source start' stop := by
  cases ending with
  | unclosed => exact absurd rfl hne
  | closed => exact ⟨Nat.lt_of_le_of_lt hle h.1, h.2⟩
  | selfClosing => exact Nat.le_trans (Nat.add_le_add_right hle 2) h

lemma Ending.Between.le {start stop : Nat} {ending : Ending}
    (h : ending.Between source start stop) : start ≤ stop := by
  cases ending with
  | unclosed => exact Nat.le_of_eq h
  | closed => exact Nat.le_of_lt h.1
  | selfClosing => exact Nat.le_trans (Nat.le_add_right ..) h

/-- All behind the name of a tag, from `start` to the end of the tag. -/
structure Tail.Faithful (source : Text) (start stop : Nat) (t : Tail) : Prop where
  inOrder : Attribute.InOrder source start t.attributes stop
  ending : t.ending.Between source (Attribute.endOf start t.attributes) stop
  closed : t.ending ≠ .unclosed → ∀ a ∈ t.attributes, a.isClosed = true

lemma Tail.read_of_nil {last c : Cursor} (h : c.rest = []) :
    (Tail.read last c).value.ending = .unclosed := by
  unfold Tail.read
  split
  case h_4 => rfl
  all_goals
    next hitem =>
    rw [Item.read_of_nil h] at hitem
    cases hitem

lemma Tail.read_faithful {last c : Cursor} (hlast : last.In source) (hreach : last.Reaches c) :
    last.Reaches (Tail.read last c).next ∧
      (Tail.read last c).value.Faithful source last.pos (Tail.read last c).next.pos := by
  fun_induction Tail.read last c with
  | case1 last c a h ih =>
    have hc := hlast.reaches hreach
    have ha := Item.read_attribute hc h
    obtain ⟨hnext, hrest⟩ := ih (hc.reaches ha.reaches) (Cursor.Reaches.refl _)
    refine ⟨hreach.trans (ha.reaches.trans hnext), ⟨?_, ha.faithful, ?_⟩, ?_, ?_⟩
    · exact Nat.le_trans hreach.pos_le ha.start_le
    · rw [ha.stop_eq]
      exact hrest.inOrder
    · simp only [Tail.cons, Attribute.endOf]
      rw [ha.stop_eq]
      exact hrest.ending
    · intro hending b hb
      rcases List.mem_cons.mp hb with rfl | hb
      · -- an attribute that does not end leaves nothing for the tag to end with
        by_contra hopen
        exact hending (Tail.read_of_nil (ha.unclosed (by simpa using hopen)))
      · exact hrest.closed hending b hb
  | case2 last c next h ih => exact ih hlast (hreach.trans (Item.read_stray h))
  | case3 last c ending next h =>
    obtain ⟨hnext, hne, hbetween⟩ := Item.read_tagEnd (hlast.reaches hreach) h
    have hbetween := hbetween.mono hne hreach.pos_le
    exact ⟨hreach.trans hnext, hbetween.le, hbetween, fun _ => by simp⟩
  | case4 last c diagnostics h =>
    exact ⟨Cursor.Reaches.refl _, Nat.le_refl _, rfl, fun hne => absurd rfl hne⟩

structure Faithful (source : Text) (t : StartTag) : Prop where
  fits : t.span.Fits source
  name : t.name.Faithful source
  name_start : t.name.span.start = t.span.start + 1
  tail : Tail.Faithful source t.name.span.stop t.span.stop ⟨t.attributes, t.ending⟩

lemma Faithful.name_stop_le {t : StartTag} (h : t.Faithful source) :
    t.name.span.stop ≤ t.span.stop := h.tail.inOrder.le

lemma Faithful.start_lt_name_stop {t : StartTag} (h : t.Faithful source) :
    t.span.start < t.name.span.stop := by
  have := h.name_start
  have := h.name.fits.start_le
  omega

lemma Faithful.start_lt {t : StartTag} (h : t.Faithful source) : t.span.start < t.span.stop :=
  Nat.lt_of_lt_of_le h.start_lt_name_stop h.name_stop_le

lemma attributesEnd_eq (t : StartTag) :
    t.attributesEnd = Attribute.endOf t.name.span.stop t.attributes := by
  rw [Attribute.endOf_eq, attributesEnd]
  cases t.attributes.getLast? <;> rfl

lemma Faithful.attributesEnd_boundary {t : StartTag} (h : t.Faithful source) :
    source.Boundary t.attributesEnd := by
  rw [attributesEnd_eq]
  exact (h.tail.inOrder.endOf_bounds h.name.fits.stop_boundary).1

lemma Faithful.attributesEnd_between {t : StartTag} (h : t.Faithful source) :
    t.ending.Between source t.attributesEnd t.span.stop := by
  rw [attributesEnd_eq]
  exact h.tail.ending

lemma read_reaches {c : Cursor} (hc : c.In source) : c.Reaches (read c).next := by
  have hname (n : Nat) : c.Reaches ((c.advance 1).advance n) :=
    (c.reaches_advance 1).trans (Cursor.reaches_advance ..)
  exact (hname _).trans (Tail.read_faithful (hc.reaches (hname _)) (Cursor.Reaches.refl _)).1

lemma span_read (c : Cursor) : (read c).value.span = c.spanTo (read c).next := rfl

lemma read_faithful {c : Cursor} {s : Text} (hc : c.In source) (hrest : c.rest = '<' :: s) :
    (read c).value.Faithful source := by
  refine ⟨hc.fits_spanTo (read_reaches hc), (hc.advance 1).excerpt _, ?_, ?_⟩
  · exact congrArg Cursor.pos (Cursor.advance_one_of_rest hrest)
  · exact (Tail.read_faithful ((hc.advance 1).advance _) (Cursor.Reaches.refl _)).2

end StartTag

end TsxLowering.Markup
