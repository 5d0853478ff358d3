import TsxLowering.Proofs.Faithful.Reports
import TsxLowering.Proofs.RoundTrip.Tags

/-!
Where closing tags end.

A closing tag is read in one way, wherever it stands: behind the content of an element, behind raw
text, right behind the start tag of a void element, or where it closes nothing. The reader goes from
the name to the `>` over blanks, but not over a line break, which is a token of its own. The scan of
code goes over both. So the two agree on a closing tag exactly if no line break stands in it, and
else the reader leaves all behind the name to the text that follows.
-/

namespace TsxLowering.Markup

variable {source : Text} {c : Cursor} {name blanks tail : Text}

/-! ### The reader of closing tags -/

namespace Token

lemma isAsciiBlank_eq (x : Char) : isAsciiBlank x = (isSkipped x || x == '\n') := by
  rw [Bool.eq_iff_iff]
  simp only [isAsciiBlank, isSkipped, Bool.or_eq_true, beq_iff_eq]
  grind

lemma next_of_sameLine (h : c.rest = blanks ++ '>' :: tail)
    (hblanks : ∀ x ∈ blanks, isAsciiBlank x = true) (hline : '\n' ∉ blanks) :
    (next c).1.kind = .tagEnd ∧ (next c).2 = c.advance (blanks.length + 1) := by
  have hall : ∀ x ∈ blanks, isSkipped x = true := by
    intro x hx
    have hblank := hblanks x hx
    rw [isAsciiBlank_eq, Bool.or_eq_true, beq_iff_eq] at hblank
    exact hblank.resolve_right (ne_of_mem_of_not_mem hx hline)
  have htake : c.rest.takeWhile isSkipped = blanks := by
    rw [h, List.takeWhile_append_of_pos hall]
    simp [isSkipped]
  have hskip : c.skipWhile isSkipped = c.advance blanks.length := by rw [Cursor.skipWhile, htake]
  have hrest : (c.advance blanks.length).rest = '>' :: tail := Cursor.rest_advance_of_rest h rfl
  simp only [next, hskip, hrest]
  exact ⟨rfl, Cursor.advance_advance ..⟩

lemma next_of_lineBreak (h : c.rest = blanks ++ tail)
    (hblanks : ∀ x ∈ blanks, isAsciiBlank x = true) (hline : '\n' ∈ blanks) :
    (next c).1.kind = .lineBreak := by
  obtain ⟨before, after, rfl, hbefore⟩ := List.eq_append_cons_of_mem hline
  have hall : ∀ x ∈ before, isSkipped x = true := by
    intro x hx
    have hblank := hblanks x (by simp [hx])
    rw [isAsciiBlank_eq, Bool.or_eq_true, beq_iff_eq] at hblank
    exact hblank.resolve_right (ne_of_mem_of_not_mem hx hbefore)
  have hdrop : c.rest.dropWhile isSkipped = '\n' :: (after ++ tail) := by
    rw [h, List.append_assoc, List.dropWhile_append_of_pos hall]
    rfl
  exact (next_of_lexeme (t := ['\n']) hdrop rfl).1

end Token

namespace ClosingTag

lemma takeWhile_ending (hblanks : ∀ x ∈ blanks, isAsciiBlank x = true) (tail : Text) :
    (blanks ++ '>' :: tail).takeWhile isNameChar = [] := by
  cases blanks with
  | nil => rfl
  | cons x blanks =>
    have hx := isBlank_of_isAsciiBlank (hblanks x (by simp))
    exact List.takeWhile_cons_of_neg (by simp [StartTag.isNameChar_of_isBlank hx])

/-- The part of a closing tag behind its name that the reader takes. -/
def taken (blanks : Text) : Text := if '\n' ∈ blanks then [] else blanks ++ ['>']

lemma stop_read (hname : ∀ x ∈ name, isNameChar x = true)
    (hblanks : ∀ x ∈ blanks, isAsciiBlank x = true)
    (h : c.rest = '<' :: '/' :: (name ++ (blanks ++ '>' :: tail))) :
    (ClosingTag.read c).1.span.stop =
      c.pos + Text.size ('<' :: '/' :: (name ++ taken blanks)) := by
  have hafterOpen : (c.advance 2).rest = name ++ (blanks ++ '>' :: tail) :=
    Cursor.rest_advance_of_rest (s := ['<', '/']) h rfl
  have htake : (c.advance 2).rest.takeWhile isNameChar = name := by
    rw [hafterOpen, List.takeWhile_append_of_pos hname, takeWhile_ending hblanks, List.append_nil]
  have hafterName : c.advance (2 + name.length) =
      ⟨c.pos + Text.size ('<' :: '/' :: name), blanks ++ '>' :: tail⟩ := by
    rw [Nat.add_comm]
    exact Cursor.advance_eq_of_rest (t := '<' :: '/' :: name) h
  have hsize (s : Text) : Text.size ('<' :: '/' :: (name ++ s)) =
      Text.size ('<' :: '/' :: name) + s.size := Text.size_append ('<' :: '/' :: name) s
  rw [hsize, ← Nat.add_assoc, taken]
  simp only [ClosingTag.read, htake, Cursor.advance_advance, hafterName, Cursor.spanTo]
  generalize c.pos + Text.size ('<' :: '/' :: name) = pos
  -- a line break is a token of its own, so the tag ends with its name
  by_cases hline : '\n' ∈ blanks
  · have hkind : (Token.next ⟨pos, blanks ++ '>' :: tail⟩).1.kind = .lineBreak :=
      Token.next_of_lineBreak rfl hblanks hline
    simp [hkind, hline]
  · obtain ⟨hkind, hnext⟩ :=
      Token.next_of_sameLine (c := ⟨pos, blanks ++ '>' :: tail⟩) rfl hblanks hline
    have hend : Cursor.advance ⟨pos, blanks ++ '>' :: tail⟩ (blanks.length + 1) =
        ⟨pos + (blanks ++ ['>']).size, tail⟩ := by
      simpa using Cursor.advance_eq_of_rest (c := ⟨pos, blanks ++ '>' :: tail⟩)
        (t := blanks ++ ['>']) (s := tail) (by simp)
    simp only [hkind, hnext, hend, hline, if_false]

/-- The tag was read in the source. -/
def ReadIn (source : Text) (tag : ClosingTag) : Prop :=
  ∃ (c : Cursor) (s : Text), c.In source ∧ c.rest = '<' :: '/' :: s ∧ startsTagName s = true ∧
    tag = (ClosingTag.read c).1

end ClosingTag

/-! ### Names in any case -/

lemma sameIgnoringCase_iff {s t : Text} :
    s.sameIgnoringCase t = true ↔ s.map Char.toLower = t.map Char.toLower := beq_iff_eq

lemma length_of_sameIgnoringCase {s t : Text} (h : s.sameIgnoringCase t = true) :
    s.length = t.length := by
  simpa using congrArg List.length (sameIgnoringCase_iff.mp h)

lemma isAlpha_toLower (x : Char) : x.toLower.isAlpha = x.isAlpha := by
  unfold Char.toLower
  split
  · unfold Char.isAlpha Char.isUpper Char.isLower
    grind
  · rfl

lemma isAlpha_of_sameIgnoringCase {s t : Text} (h : s.sameIgnoringCase t = true)
    (ht : ∀ x ∈ t, x.isAlpha = true) : ∀ x ∈ s, x.isAlpha = true := by
  intro x hx
  have hmem : x.toLower ∈ t.map Char.toLower :=
    sameIgnoringCase_iff.mp h ▸ List.mem_map_of_mem hx
  obtain ⟨y, hy, hyx⟩ := List.mem_map.mp hmem
  rw [← isAlpha_toLower, ← hyx, isAlpha_toLower]
  exact ht y hy

lemma isAlpha_of_special (h : isVoidName name = true ∨ isRawTextName name = true) :
    name ≠ [] ∧ ∀ x ∈ name, x.isAlpha = true := by
  have hwords : ((voidNames ++ rawTextNames).all fun v => !v.isEmpty && v.all Char.isAlpha) =
      true := by decide
  obtain ⟨v, hv, hsame⟩ : ∃ v ∈ voidNames ++ rawTextNames, name.sameIgnoringCase v = true := by
    rwa [isVoidName, isRawTextName, ← Bool.or_eq_true, ← List.any_append, List.any_eq_true] at h
  obtain ⟨hne, halpha⟩ := (Bool.and_eq_true ..).mp (List.all_eq_true.mp hwords v hv)
  refine ⟨?_, isAlpha_of_sameIgnoringCase hsame (List.all_eq_true.mp halpha)⟩
  rintro rfl
  have hnil : v = [] := List.length_eq_zero_iff.mp (length_of_sameIgnoringCase hsame).symm
  simp [hnil] at hne

lemma startsTagName_of_special {s : Text} (hsame : s.sameIgnoringCase name = true)
    (h : isVoidName name = true ∨ isRawTextName name = true) (tail : Text) :
    startsTagName (s ++ tail) = true := by
  obtain ⟨hne, halpha⟩ := isAlpha_of_special h
  cases s with
  | nil =>
    have hlength := length_of_sameIgnoringCase hsame
    exact absurd (List.length_eq_zero_iff.mp hlength.symm) hne
  | cons x s =>
    have hx := isAlpha_of_sameIgnoringCase hsame halpha x (by simp)
    simp [startsTagName, hx]

/-! ### The end of raw text -/

/-- Whether the closing tag with this text behind its `</` begins with a name, in any case. -/
def ClosingTag.beginsWith (name rest : Text) : Bool :=
  Text.sameIgnoringCase (rest.take name.length) name

/-- Where `P` says of the text behind a `</` whether that closes an element, the first such text,
and what stands before it. -/
structure FirstCloser (P : Text → Bool) (s raw rest : Text) : Prop where
  split : s = raw ++ '<' :: '/' :: rest
  closes : P rest = true
  first : ∀ u v, s = u ++ '<' :: '/' :: v → u.length < raw.length → P v = false

def NoCloser (P : Text → Bool) (s : Text) : Prop :=
  ∀ u v, s = u ++ '<' :: '/' :: v → P v = false

lemma FirstCloser.cons {P : Text → Bool} {s raw rest : Text} {x : Char}
    (h : FirstCloser P s raw rest) (hx : ∀ v, x :: s = '<' :: '/' :: v → P v = false) :
    FirstCloser P (x :: s) (x :: raw) rest where
  split := by rw [List.cons_append, ← h.split]
  closes := h.closes
  first u v huv hlt := by
    cases u with
    | nil => exact hx v huv
    | cons y u => exact h.first u v (List.cons.inj huv).2 (Nat.lt_of_succ_lt_succ hlt)

lemma NoCloser.cons {P : Text → Bool} {s : Text} {x : Char} (h : NoCloser P s)
    (hx : ∀ v, x :: s = '<' :: '/' :: v → P v = false) : NoCloser P (x :: s) := by
  intro u v huv
  cases u with
  | nil => exact hx v huv
  | cons y u => exact h u v (List.cons.inj huv).2

namespace Event

open ClosingTag (beginsWith)

lemma rawTextLength_eq_some {name s : Text} {n : Nat} (h : rawTextLength name s = some n) :
    ∃ raw rest, raw.length = n ∧ FirstCloser (beginsWith name) s raw rest := by
  fun_induction rawTextLength name s generalizing n with
  | case1 => cases h
  | case2 s hsame =>
    cases h
    exact ⟨[], s, rfl, rfl, hsame, by simp⟩
  | case3 s hother ih =>
    -- a closing tag of another name is part of the raw text
    obtain ⟨m, hm, rfl⟩ := Option.map_eq_some_iff.mp h
    obtain ⟨raw, rest, rfl, hfirst⟩ := ih hm
    refine ⟨'<' :: raw, rest, rfl, hfirst.cons ?_⟩
    rintro v ⟨⟩
    exact Bool.not_eq_true _ ▸ hother
  | case4 x s hclosing ih =>
    obtain ⟨m, hm, rfl⟩ := Option.map_eq_some_iff.mp h
    obtain ⟨raw, rest, rfl, hfirst⟩ := ih hm
    refine ⟨x :: raw, rest, rfl, hfirst.cons ?_⟩
    rintro v ⟨⟩
    exact absurd rfl (hclosing v rfl)

lemma rawTextLength_eq_none {name s : Text} (h : rawTextLength name s = none) :
    NoCloser (beginsWith name) s := by
  fun_induction rawTextLength name s with
  | case1 => intro u v huv; cases u <;> cases huv
  | case2 => cases h
  | case3 s hother ih =>
    refine (ih (Option.map_eq_none_iff.mp h)).cons ?_
    rintro v ⟨⟩
    exact Bool.not_eq_true _ ▸ hother
  | case4 x s hclosing ih =>
    refine (ih (Option.map_eq_none_iff.mp h)).cons ?_
    rintro v ⟨⟩
    exact absurd rfl (hclosing v rfl)

end Event

/-! ### The closing tags of a source -/

def Node.endTag? : Node → Option Span
  | .element e _ => e.endTag
  | .text _ | .expression _ | .comment .. | .doctype _ => none

/-- The spans of all closing tags: those that end an element, and those that close nothing. -/
def Parsed.closingTags (p : Parsed) : List Span :=
  (Node.descendants p.document.nodes).filterMap Node.endTag? ++ strays p.diagnostics

/-- A closing tag was read under the span. -/
def IsClosingTag (source : Text) (t : Span) : Prop :=
  ∃ tag : ClosingTag, tag.ReadIn source ∧ t = tag.span

/-- What an event takes to be a closing tag is one. -/
def Event.Closes (source : Text) : Event → Prop
  | .leaf node => ∀ t, node.endTag? = some t → IsClosingTag source t
  | .opening _ => True
  | .closing tag => IsClosingTag source tag.span

namespace Event

lemma readVoidEnd_closes (tag : StartTag) (hc : c.In source) :
    ∀ t, (readVoidEnd tag c).1 = some t → IsClosingTag source t := by
  intro t ht
  unfold readVoidEnd at ht
  split at ht
  · next s hrest =>
    dsimp only at ht
    split at ht
    · next hvoid =>
      cases ht
      rw [Bool.and_eq_true] at hvoid
      have hname : (ClosingTag.read c).1.name = s.takeWhile isNameChar := by
        simp [ClosingTag.read, hrest]
      have hstarts := startsTagName_of_special hvoid.2 (.inl hvoid.1) (s.dropWhile isNameChar)
      rw [hname, List.takeWhile_append_dropWhile] at hstarts
      exact ⟨_, ⟨c, s, hc, hrest, hstarts, rfl⟩, rfl⟩
    · cases ht
  · cases ht

lemma readRawText_closes {tag : StartTag} (hraw : tag.isRawText = true) (hc : c.In source) :
    ∀ t, (readRawText tag c).value.2 = some t → IsClosingTag source t := by
  intro t ht
  unfold readRawText at ht
  split at ht
  · next n hn =>
    cases ht
    obtain ⟨raw, rest, rfl, hfirst⟩ := rawTextLength_eq_some hn
    have hrest := Cursor.rest_advance_of_rest hfirst.split rfl
    have hsame := hfirst.closes
    have hstarts := startsTagName_of_special hsame (.inr hraw) (rest.drop tag.name.text.length)
    rw [List.take_append_drop] at hstarts
    exact ⟨_, ⟨c.advance raw.length, rest, hc.advance _, hrest, hstarts, rfl⟩, rfl⟩
  · cases ht

lemma readElement_closes (hc : c.In source) : (readElement c).value.Closes source := by
  have hnext := hc.reaches (StartTag.read_reaches hc)
  simp only [readElement]
  split
  · intro t ht
    cases ht
  · split
    · exact readVoidEnd_closes _ hnext
    · split
      · next hraw => exact readRawText_closes hraw hnext
      · trivial

lemma read_closes (hc : c.In source) : (read c).value.Closes source := by
  unfold read
  split
  · intro t ht
    cases ht
  · unfold readComment
    dsimp only
    split <;> (intro t ht; cases ht)
  · intro t ht
    cases ht
  · next s hrest =>
    split
    · next hstarts => exact ⟨_, ⟨c, s, hc, hrest, hstarts, rfl⟩, rfl⟩
    · intro t ht
      cases ht
  · split
    · exact readElement_closes hc
    · intro t ht
      cases ht
  · intro t ht
    cases ht

end Event

lemma yields_closing : Nesting.Yields (Event.SoundWith source (Event.Closes source))
    (fun n => ∀ t, n.endTag? = some t → IsClosingTag source t) where
  leaf event := by
    rw [event.1.descendants_leaf]
    exact List.forall_mem_singleton.mpr event.2
  unclosed _ t ht := by cases ht
  closed _ event _ t ht := by
    cases ht
    exact event.2

/-- **All closing tags of a source** were read in it, in the one way there is. -/
theorem parse_closingTags {p : Parsed} (h : parse source = .ok p) :
    ∀ t ∈ p.closingTags, IsClosingTag source t := by
  intro t ht
  rcases List.mem_append.mp ht with ht | ht
  · obtain ⟨n, hn, hend⟩ := List.mem_filterMap.mp ht
    exact parse_forall_descendants_with (fun _ => Event.read_closes) yields_closing h n hn t hend
  · exact parse_forall_strays (fun _ => Event.read_closes) (fun event => event.2) h t ht

/-! ### The scan of code -/

lemma leads_wholeClosingTag (hname : ∀ x ∈ name, isNameChar x = true)
    (hblanks : ∀ x ∈ blanks, isAsciiBlank x = true)
    (hstarts : startsTagName (name ++ (blanks ++ '>' :: tail)) = true) (depth : Nat)
    (outer : List Code.Frame) :
    Code.Leads (.markup depth :: outer) ('<' :: '/' :: (name ++ (blanks ++ ['>'])))
      (Code.afterTag .closing false depth outer) tail := by
  -- what may stand in a name does not end one for the scan of code either
  have hinName : ∀ x ∈ name,
      (!(isAsciiBlank x || x == '>' || x == '/' || x == '\x7b')) = true := by
    intro x hx
    have hchar := hname x hx
    by_contra hend
    simp only [Bool.not_eq_true, Bool.not_eq_false', Bool.or_eq_true, beq_iff_eq] at hend
    rcases hend with ((hblank | rfl) | rfl) | rfl
    · rw [StartTag.isNameChar_of_isBlank (isBlank_of_isAsciiBlank hblank)] at hchar
      cases hchar
    all_goals exact absurd hchar (by decide)
  have hends : Code.tagName (blanks ++ '>' :: tail) = [] := by
    refine Code.tagName_attributes ?_ rfl
    cases blanks with
    | nil => rfl
    | cons x blanks => exact hblanks x (by simp)
  have hnames : Code.NamesTag name (blanks ++ ['>'] ++ tail) := by
    rw [List.append_assoc]
    refine ⟨hstarts, ?_⟩
    unfold Code.tagName at hends ⊢
    rw [List.takeWhile_append_of_pos hinName]
    exact (congrArg (name ++ ·) hends).trans (List.append_nil _)
  have hend : Code.Leads (.tag .closing depth :: outer) (blanks ++ ['>'])
      (Code.afterTag .closing false depth outer) tail :=
    (Code.leads_blanks (List.all_eq_true.mpr hblanks) _ _ _ _).append (.step fun _ => rfl)
  exact (Code.leads_closingTag depth outer hnames).append hend

/-- How the closing tag under a span ends, if it is written with these blanks before its `>` and
this text follows. -/
structure ClosingTagEnds (t : Span) (name blanks tail : Text) : Prop where
  whole_iff : t.stop = t.start + Text.size ('<' :: '/' :: (name ++ (blanks ++ ['>']))) ↔
    '\n' ∉ blanks
  cut_short : '\n' ∈ blanks → t.stop = t.start + Text.size ('<' :: '/' :: name)
  scanned_whole : ∀ depth outer, Code.Leads (.markup depth :: outer)
    ('<' :: '/' :: (name ++ (blanks ++ ['>']))) (Code.afterTag .closing false depth outer) tail

/-- **Where a closing tag ends**: where the scan of code ends it too, unless there is a line break
in it. -/
theorem closingTags_end_iff (h : source.size ≤ Offset.limit) :
    ∃ p, parse source = .ok p ∧ ∀ t ∈ p.closingTags, (closingName? source t).isSome = true ∧
      ∀ before name blanks tail : Text,
        source = before ++ '<' :: '/' :: (name ++ (blanks ++ '>' :: tail)) →
        t.start = before.size → name.all isNameChar = true → blanks.all isAsciiBlank = true →
        ClosingTagEnds t name blanks tail := by
  obtain ⟨p, hp⟩ := exists_parse_eq_ok h
  refine ⟨p, hp, fun t ht => ?_⟩
  obtain ⟨_, ⟨c, s, hc, hrest, hstarts, rfl⟩, rfl⟩ := parse_closingTags hp t ht
  refine ⟨by rw [ClosingTag.closingName?_read hc hrest]; rfl, ?_⟩
  intro before name blanks tail hsource hstart hname hblanks
  rw [List.all_eq_true] at hname hblanks
  -- the tag was read where the given one stands, as both are found at one offset
  obtain ⟨before', hsource', hpos⟩ := hc
  obtain ⟨-, hc⟩ :=
    Text.append_inj_of_size_eq (hsource'.symm.trans hsource) (hpos.symm.trans hstart)
  have hstop := ClosingTag.stop_read hname hblanks hc
  rw [hrest] at hc
  obtain rfl : s = name ++ (blanks ++ '>' :: tail) := by simpa using hc
  refine ⟨?_, fun hline => ?_, leads_wholeClosingTag hname hblanks hstarts⟩
  · rw [hstop, ClosingTag.taken]
    split
    · next hline =>
      have hpos := Char.utf8Size_pos '>'
      have hsizes : ¬ c.pos + Text.size ('<' :: '/' :: (name ++ [])) =
          c.pos + Text.size ('<' :: '/' :: (name ++ (blanks ++ ['>']))) := by
        simp only [List.append_nil, Text.size_cons, Text.size_append]
        omega
      exact iff_of_false hsizes (not_not_intro hline)
    · next hline => exact iff_of_true rfl hline
  · rw [hstop, ClosingTag.taken, if_pos hline, List.append_nil]
    rfl

/-- A closing tag with blanks in it ends an element, one with a line break a void element, and one
closes nothing. -/
def spacedTags : Text := "<b>x</b \t><br></BR\n></i >".toList

theorem closingTags_end_spaced :
    spacedTags.size ≤ Offset.limit ∧
      ∃ p, parse spacedTags = .ok p ∧ p.closingTags = [⟨4, 10⟩, ⟨14, 18⟩, ⟨20, 25⟩] ∧
        ClosingTagEnds ⟨4, 10⟩ ['b'] [' ', '\t'] "<br></BR\n></i >".toList ∧
        ClosingTagEnds ⟨14, 18⟩ ['B', 'R'] ['\n'] "</i >".toList := by
  refine ⟨by decide, ?_⟩
  obtain ⟨p, hp, hends⟩ := @closingTags_end_iff spacedTags (by decide)
  have hspans : (parse spacedTags).toOption.map (·.closingTags) =
      some [⟨4, 10⟩, ⟨14, 18⟩, ⟨20, 25⟩] := by decide +kernel
  rw [hp] at hspans
  have htags : p.closingTags = [⟨4, 10⟩, ⟨14, 18⟩, ⟨20, 25⟩] := Option.some.inj hspans
  rw [htags] at hends
  refine ⟨p, hp, htags, ?_, ?_⟩
  · exact (hends ⟨4, 10⟩ (by simp)).2 "<b>x".toList _ _ _ rfl rfl rfl rfl
  · exact (hends ⟨14, 18⟩ (by simp)).2 "<b>x</b \t><br>".toList _ _ _ rfl rfl rfl rfl

/-- **A line break cuts a closing tag short**, although the tag ends right behind it. -/
theorem closingTags_cut_short : ¬ ∀ (source : Text) (p : Parsed), parse source = .ok p →
    ∀ t ∈ p.closingTags, ∀ before name blanks tail : Text,
      source = before ++ '<' :: '/' :: (name ++ (blanks ++ '>' :: tail)) → t.start = before.size →
      name.all isNameChar = true → blanks.all isAsciiBlank = true →
      t.stop = t.start + Text.size ('<' :: '/' :: (name ++ (blanks ++ ['>']))) := by
  intro h
  obtain ⟨p, hp⟩ : ∃ p, parse "<p></p\n>".toList = .ok p := exists_parse_eq_ok (by decide)
  have hspans : (parse "<p></p\n>".toList).toOption.map (·.closingTags) = some [⟨3, 6⟩] := by
    decide +kernel
  rw [hp] at hspans
  have htags : p.closingTags = [⟨3, 6⟩] := Option.some.inj hspans
  have hstop := h _ p hp ⟨3, 6⟩ (by simp [htags]) "<p>".toList ['p'] ['\n'] [] rfl rfl rfl
    rfl
  exact absurd hstop (by decide)

end TsxLowering.Markup
