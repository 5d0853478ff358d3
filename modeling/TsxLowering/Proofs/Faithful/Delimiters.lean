import TsxLowering.Proofs.Faithful.StartTag

/-!
Delimiters, and code that is never closed.

A part between delimiters stands in the source with both of them around it, or with the opening
one alone where it runs to the end of the source. All that the reader of a start tag has to
report, but for the tag itself, is code of the second kind.
-/

namespace TsxLowering.Markup

variable {source : Text} {c : Cursor}

/-- The source under the span is the text between its delimiters. -/
structure Enclosed.Within (source : Text) (opening closing : Char) (e : Enclosed) : Prop where
  written : source.slice? e.span.start e.span.stop =
    some (opening :: e.text ++ if e.closed then [closing] else [])
  toEnd : e.closed = false → e.span.stop = source.size

/-- The report of code that runs to the end of the source. -/
structure Diagnostic.OpenCode (source : Text) (d : Diagnostic) : Prop where
  problem : d.problem = .unclosedExpression
  fits : d.span.Fits source
  toEnd : d.span.stop = source.size

/-! ### Parts between delimiters -/

namespace Enclosed

lemma read_toEnd {split : Option (Text × Text)} (hc : c.In source)
    (h : (read c split).1.closed = false) : (read c split).1.span.stop = source.size := by
  cases split with
  | none => exact hc.pos_atEnd
  | some p => cases h

lemma read_within {opening closing : Char} {s : Text} {split : Option (Text × Text)}
    (hc : c.In source) (hrest : c.rest = opening :: s)
    (hsplit : ∀ inner rest, split = some (inner, rest) → s = inner ++ closing :: rest) :
    (read c split).1.Within source opening closing := by
  refine ⟨?_, read_toEnd hc⟩
  cases split with
  | none =>
    have h := hc.excerpt c.rest.length
    simpa [Excerpt.Faithful, Cursor.excerpt, read, Cursor.atEnd, hrest] using h
  | some p =>
    obtain ⟨inner, rest⟩ := p
    have hs := hsplit inner rest rfl
    have h := hc.excerpt (inner.length + 2)
    have htake : c.rest.take (inner.length + 2) = opening :: inner ++ [closing] := by
      simp [hrest, hs, List.take_append, List.take_of_length_le]
    simp only [Excerpt.Faithful, Cursor.excerpt, htake] at h
    simpa [read] using h

lemma readCode_within {s : Text} (hc : c.In source) (hrest : c.rest = '\x7b' :: s) :
    (readCode c).value.Within source '\x7b' '\x7d' := by
  refine read_within hc hrest fun inner rest h => ?_
  rw [hrest] at h
  exact Code.append_of_split h

lemma readCode_reports (hc : c.In source) :
    ∀ d ∈ (readCode c).diagnostics, d.OpenCode source := by
  have hfits := hc.fits_spanTo (readCode_reaches c)
  rw [← span_readCode] at hfits
  simp only [readCode]
  split
  · simp
  · next hopen =>
    exact List.forall_mem_singleton.mpr ⟨rfl, hfits, read_toEnd hc (by simpa using hopen)⟩

end Enclosed

/-! ### Attributes -/

namespace Attribute

def Value.Delimited (source : Text) : Value → Prop
  | .quoted v => ∃ quote, (quote = '"' ∨ quote = '\'') ∧ v.Within source quote quote
  | .template v => v.Within source '`' '`'
  | .expression v => v.Within source '\x7b' '\x7d'
  | .empty | .unquoted _ => True

/-- The delimiters of the value are there. -/
def Delimited (source : Text) : Attribute → Prop
  | .normal _ _ value => value.Delimited source
  | .spread .. | .shorthand .. => True

lemma Value.read_delimited (hc : c.In source) : (Value.read c).value.Delimited source := by
  replace hc := hc.reaches (c.reaches_skipWhile isAsciiBlank)
  simp only [Value.read]
  split
  · next s hrest =>
    exact ⟨'"', .inl rfl, Enclosed.read_within hc hrest fun _ _ => Text.append_of_splitOnce⟩
  · next s hrest =>
    exact ⟨'\'', .inr rfl, Enclosed.read_within hc hrest fun _ _ => Text.append_of_splitOnce⟩
  · next s hrest => exact Enclosed.read_within hc hrest fun _ _ => Code.append_of_splitTemplate
  · next s hrest => exact Enclosed.readCode_within hc hrest
  · trivial

lemma Value.read_reports (hc : c.In source) :
    ∀ d ∈ (Value.read c).diagnostics, d.OpenCode source := by
  replace hc := hc.reaches (c.reaches_skipWhile isAsciiBlank)
  simp only [Value.read]
  split
  iterate 3
    · simp
  · exact Enclosed.readCode_reports hc
  · simp

/-- What a reading of an attribute holds and reports. -/
structure Sound (source : Text) (r : Reading Attribute) : Prop where
  delimited : r.value.Delimited source
  reports : ∀ d ∈ r.diagnostics, d.OpenCode source

lemma readNamed_sound (name : Excerpt) (hc : c.In source) : Sound source (readNamed name c) := by
  have hnext := hc.reaches (Token.next_reaches c)
  unfold readNamed
  dsimp only
  split
  · exact ⟨Value.read_delimited hnext, Value.read_reports hnext⟩
  · exact ⟨trivial, by simp⟩

lemma ofBraces_delimited (start : Nat) (c : Cursor) (inner : Text) :
    (ofBraces start c inner).Delimited source := by
  unfold ofBraces
  dsimp only
  split <;> trivial

end Attribute

/-! ### Start tags -/

namespace StartTag

lemma Item.read_attribute_sound {a : Reading Attribute} (hc : c.In source)
    (h : Item.read c = .attribute a) : Attribute.Sound source a := by
  have hnext := hc.reaches (Token.next_reaches c)
  unfold Item.read at h
  dsimp only at h
  split at h
  · cases h
    exact Attribute.readNamed_sound _ hnext
  · split at h <;> cases h
    exact ⟨Attribute.ofBraces_delimited .., by simp⟩
  all_goals cases h

lemma Item.read_missing_reports {ds : List Diagnostic} (hc : c.In source)
    (h : Item.read c = .missing ds) : ∀ d ∈ ds, d.OpenCode source := by
  have hskip := hc.reaches (c.reaches_skipWhile Token.isSkipped)
  unfold Item.read at h
  dsimp only at h
  split at h
  · cases h
  · split at h <;> cases h
    refine List.forall_mem_singleton.mpr ⟨rfl, ?_, hc.pos_atEnd⟩
    refine Span.fits_of_boundary hskip.boundary (hc.reaches c.reaches_atEnd).boundary ?_
    rw [hc.pos_atEnd]
    exact hskip.boundary.le_size
  all_goals cases h
  all_goals simp

lemma Tail.read_sound (last : Cursor) (hc : c.In source) :
    (∀ a ∈ (Tail.read last c).value.attributes, a.Delimited source) ∧
      ∀ d ∈ (Tail.read last c).diagnostics, d.OpenCode source := by
  fun_induction Tail.read last c with
  | case1 last c a h ih =>
    have ha := Item.read_attribute_sound hc h
    obtain ⟨hattributes, hreports⟩ := ih (hc.reaches (Item.read_attribute hc h).reaches)
    exact ⟨List.forall_mem_cons.mpr ⟨ha.delimited, hattributes⟩,
      List.forall_mem_append.mpr ⟨ha.reports, hreports⟩⟩
  | case2 last c next h ih => exact ih (hc.reaches (Item.read_stray h))
  | case3 => exact ⟨by simp, by simp⟩
  | case4 last c ds h => exact ⟨by simp, Item.read_missing_reports hc h⟩

/-- The delimiters of all values in the tag are there. -/
def Delimited (source : Text) (t : StartTag) : Prop := ∀ a ∈ t.attributes, a.Delimited source

/-- The report of a start tag that does not end. -/
def unclosedReport (t : StartTag) : List Diagnostic :=
  match t.ending with
  | .unclosed => [⟨.unclosedStartTag t.name.text, t.span⟩]
  | _ => []

lemma read_delimited (hc : c.In source) : (read c).value.Delimited source :=
  (Tail.read_sound _ ((hc.advance 1).advance _)).1

lemma read_diagnostics (hc : c.In source) :
    ∃ ds, (read c).diagnostics = ds ++ (read c).value.unclosedReport ∧
      ∀ d ∈ ds, d.OpenCode source := by
  let afterName := (c.advance 1).advance ((c.advance 1).rest.takeWhile isNameChar).length
  have hname : afterName.In source := (hc.advance 1).advance _
  exact ⟨_, rfl, (Tail.read_sound afterName hname).2⟩

end StartTag

end TsxLowering.Markup
