import TsxLowering.Proofs.ClosingTags
import TsxLowering.Proofs.RoundTrip.Document
import TsxLowering.Proofs.RoundTrip.Spelling
import TsxLowering.Proofs.Spans
import TsxLowering.Proofs.TagReports

/-!
Blanks around the `=` of an attribute.

Behind the `=` the reader passes over all blanks. Before it, it looks at one token, and a line break
is a token of its own. So the value belongs to the name exactly if no line break stands between the
name and the `=`. Otherwise the name has no value, the `=` and the opening quote are passed over as
stray punctuation, and the text in the quotes is read as if it were attributes.
-/

namespace TsxLowering

lemma Cursor.In.rest_of_pos {c : Cursor} {before rest : Text} (hc : c.In (before ++ rest))
    (hpos : c.pos = before.size) : c.rest = rest := by
  obtain ⟨before', hsource, hpos'⟩ := hc
  exact (Text.append_inj_of_size_eq hsource (hpos.symm.trans hpos')).2.symm

namespace Markup

variable {source : Text} {c : Cursor} {name gap gap' value tail : Text}

/-- A start tag with one attribute, with blanks before and behind its `=`. -/
def spacedTag (name gap gap' value : Text) : Text :=
  '<' :: 'p' :: ' ' :: (name ++ (gap ++ '=' :: (gap' ++ '"' :: (value ++ ['"', '>']))))

namespace StartTag

/-- The tag has one attribute, whose value stands in quotes, and ends at `stop`. -/
structure HasOne (t : StartTag) (name value : Text) (stop : Nat) : Prop where
  tagName : t.name.text = ['p']
  attributes : ∃ span nameSpan valueSpan,
    t.attributes = [.normal span ⟨nameSpan, name⟩ (.quoted ⟨valueSpan, value, true⟩)]
  closed : t.ending = .closed
  stop_eq : t.span.stop = stop

/-- The first attribute of the tag has no value, and all others are read from `rest` on, which also
decides how the tag ends. -/
def LosesValue (t : StartTag) (name rest : Text) : Prop :=
  ∃ (span nameSpan : Span) (last d : Cursor), d.rest = rest ∧
    t.attributes = .normal span ⟨nameSpan, name⟩ .empty :: (Tail.read last d).value.attributes ∧
    t.ending = (Tail.read last d).value.ending

/-! ### Without a line break -/

lemma isLink_of_sameLine (hgap : ∀ x ∈ gap, isAsciiBlank x = true)
    (hgap' : ∀ x ∈ gap', isAsciiBlank x = true) (hline : '\n' ∉ gap) :
    IsLink (gap ++ '=' :: gap') := by
  refine ⟨gap, gap', rfl, fun x hx => ?_, hgap'⟩
  have hblank := hgap x hx
  rw [Token.isAsciiBlank_eq, Bool.or_eq_true, beq_iff_eq] at hblank
  exact hblank.resolve_right (ne_of_mem_of_not_mem hx hline)

lemma exists_of_outline_quoted {as : List Attribute}
    (h : as.mapM Attribute.outline? = some [.quoted name value]) :
    ∃ span nameSpan valueSpan,
      as = [.normal span ⟨nameSpan, name⟩ (.quoted ⟨valueSpan, value, true⟩)] := by
  obtain ⟨a, rfl, ha⟩ : ∃ a, as = [a] ∧ a.outline? = some (.quoted name value) := by
    match as with
    | [] => simp at h
    | [a] =>
      rw [List.mapM_cons, Option.bind_eq_bind, Option.bind_eq_some_iff] at h
      obtain ⟨o, ho, hone⟩ := h
      exact ⟨a, rfl, by simpa [ho] using hone⟩
    | a :: b :: as =>
      simp [Option.bind_eq_some_iff] at h
  unfold Attribute.outline? at ha
  split at ha
  case h_2 span n v =>
    obtain ⟨valueSpan, text, closed⟩ := v
    cases closed <;> simp at ha
    obtain ⟨rfl, rfl⟩ := ha
    exact ⟨span, n.span, valueSpan, rfl⟩
  all_goals simp at ha

lemma hasOne_read (hname : IsName name) (hgap : ∀ x ∈ gap, isAsciiBlank x = true)
    (hgap' : ∀ x ∈ gap', isAsciiBlank x = true) (hvalue : '"' ∉ value) (hline : '\n' ∉ gap)
    (hc : c.In source) (h : c.rest = spacedTag name gap gap' value ++ tail) :
    (StartTag.read c).value.HasOne name value
      (c.pos + (spacedTag name gap gap' value).size) := by
  have hspelled : AttributeOutline.Spelled (.quoted name value)
      (name ++ ((gap ++ '=' :: gap') ++ '"' :: (value ++ ['"']))) :=
    .quoted hname (isLink_of_sameLine hgap hgap' hline) (.inl rfl) hvalue
  let slot : Slot := ⟨[' '], name ++ ((gap ++ '=' :: gap') ++ '"' :: (value ++ ['"'])),
    .quoted name value⟩
  have hslot : slot.WellFormed := ⟨by simp [slot, isBlank], hspelled⟩
  -- the tag is a row of one slot, with one blank before the attribute
  have hrow : c.rest = '<' :: (['p'] ++ ([slot].flatMap Slot.print ++ ([] ++ '>' :: tail))) := by
    simpa [spacedTag, slot, Slot.print] using h
  obtain ⟨hgives, htext, hending⟩ := StartTag.read_row (by simp [isNameChar, isBlank])
    (by simpa using hslot) (.closed [] (by simp) tail) (Slot.apart_of_gaps (by simp [slot]) true)
    hrow
  refine ⟨htext, exists_of_outline_quoted hgives.view_eq, hending, ?_⟩
  have hend := (hc.reaches (StartTag.read_reaches hc)).pos_add_size
  have hstart := hc.pos_add_size
  rw [hgives.rest] at hend
  rw [h, Text.size_append] at hstart
  rw [StartTag.span_read, Cursor.spanTo]
  dsimp only
  omega

/-! ### With a line break -/

lemma Tail.read_stray {x : Char} {s : Text} (hx : x = '=' ∨ x = '"') (last : Cursor)
    (h : c.rest = x :: s) : Tail.read last c = Tail.read last (c.advance 1) := by
  have hitem : Item.read c = .stray (c.advance 1) := by
    rcases hx with rfl | rfl
    · have hskip : c.skipWhile Token.isSkipped = c := Cursor.skipWhile_of_rest h rfl
      have hlexeme : Token.lexeme ('=' :: s) = (.equals, 1) := rfl
      simp only [Item.read, Token.next, hskip, h, hlexeme]
    · have hskip : c.skipWhile Token.isSkipped = c := Cursor.skipWhile_of_rest h rfl
      have hlexeme : Token.lexeme ('"' :: s) = (.invalid, 1) := rfl
      simp only [Item.read, Token.next, hskip, h, hlexeme]
  rw [Tail.read_eq, hitem]

lemma losesValue_read (hname : IsName name) (hgap : ∀ x ∈ gap, isAsciiBlank x = true)
    (hgap' : ∀ x ∈ gap', isAsciiBlank x = true) (hline : '\n' ∈ gap)
    (h : c.rest = spacedTag name gap gap' value ++ tail) :
    (StartTag.read c).value.LosesValue name (value ++ '"' :: '>' :: tail) := by
  have hblank {s : Text} (hs : ∀ x ∈ s, isAsciiBlank x = true) : ∀ x ∈ s, isBlank x = true :=
    fun x hx => isBlank_of_isAsciiBlank (hs x hx)
  have hafter : (c.advance 1).rest = ['p'] ++ ([' '] ++ (name ++ (gap ++ '=' :: (gap' ++
      '"' :: (value ++ '"' :: '>' :: tail))))) := by
    simpa [spacedTag] using congrArg List.tail h
  have htake : (c.advance 1).rest.takeWhile isNameChar = ['p'] := by rw [hafter]; rfl
  -- the name of the attribute is followed by a line break, so there is no value
  have hend : (gap ++ '=' :: (gap' ++ '"' :: (value ++ '"' :: '>' :: tail))).takeWhile isNameChar =
      [] := takeWhile_blanks (hblank hgap) (List.ne_nil_of_mem hline)
  have hskip : ((c.advance 1).advance 1).rest.dropWhile Token.isSkipped =
      name ++ (gap ++ '=' :: (gap' ++ '"' :: (value ++ '"' :: '>' :: tail))) := by
    rw [Cursor.rest_advance_of_rest (n := 1) hafter rfl, List.dropWhile_append_of_pos
      (by simp [Token.isSkipped])]
    exact Token.dropWhile_name hname _
  obtain ⟨span, d, hitem, hd⟩ := Item.read_name hskip hname hend
  have hnamed : Attribute.readNamed ⟨span, name⟩ d =
      ⟨.normal ⟨span.start, d.pos⟩ ⟨span, name⟩ .empty, [], d⟩ := by
    simp only [Attribute.readNamed, Token.next_of_lineBreak hd hgap hline]
  -- from there on the blanks and the stray punctuation make no difference
  obtain ⟨e, he, hfirst⟩ := Tail.read_blanks d hd (hblank hgap)
  obtain ⟨f, hf, hsecond⟩ := Tail.read_blanks (c := e.advance 1) d
    (Cursor.rest_advance_of_rest (s := ['=']) he rfl) (hblank hgap')
  have htail : Tail.read d d = Tail.read d (f.advance 1) := by
    rw [hfirst, Tail.read_stray (.inl rfl) d he, hsecond, Tail.read_stray (.inr rfl) d hf]
  have hread : Tail.read ((c.advance 1).advance 1) ((c.advance 1).advance 1) =
      Tail.cons (Attribute.readNamed ⟨span, name⟩ d) (Tail.read d (f.advance 1)) := by
    rw [Tail.read_eq, hitem, ← htail, hnamed]
  refine ⟨⟨span.start, d.pos⟩, span, d, f.advance 1,
    Cursor.rest_advance_of_rest (s := ['"']) hf rfl, ?_, ?_⟩
  · simp only [StartTag.read, htake, List.length_singleton, hread, hnamed, Tail.cons]
  · simp only [StartTag.read, htake, List.length_singleton, hread, hnamed, Tail.cons]

lemma HasOne.not_losesValue {t : StartTag} {stop : Nat} {rest : Text}
    (h : t.HasOne name value stop) : ¬ t.LosesValue name rest := by
  rintro ⟨span, nameSpan, last, d, -, hattributes, -⟩
  obtain ⟨-, ⟨_, _, _, hone⟩, -, -⟩ := h
  rw [hone] at hattributes
  cases hattributes

end StartTag

/-! ### In a tree -/

/-- A node that is no element was read as it stands. -/
def Node.ReadIn (source : Text) (n : Node) : Prop :=
  n.element? = none → ∃ c : Cursor, c.In source ∧ (Event.read c).value = .leaf n

lemma parse_node_read {p : Parsed} (h : parse source = .ok p) :
    ∀ n ∈ Node.descendants p.document.nodes, n.ReadIn source := by
  have hyields : Nesting.Yields
      (Event.SoundWith source fun e => ∃ c : Cursor, c.In source ∧ (Event.read c).value = e)
      (Node.ReadIn source) :=
    { leaf := fun hevent m hm _ => by
        rw [hevent.1.descendants_leaf, List.mem_singleton] at hm
        exact hm ▸ hevent.2
      unclosed := fun _ hnone => by cases hnone
      closed := fun _ _ _ hnone => by cases hnone }
  exact parse_forall_descendants_with (fun c hc => ⟨c, hc, rfl⟩) hyields h

lemma Event.readElement_ne_leaf {n : Node} (h : n.element? = none) :
    (readElement c).value ≠ .leaf n := by
  intro heq
  simp only [readElement] at heq
  split at heq
  · cases heq
    cases h
  · split at heq
    · cases heq
      cases h
    · split at heq
      · cases heq
        cases h
      · cases heq

lemma exists_first_element {s : Text} {p : Parsed} (hstarts : startsTagName s = true)
    (h : parse ('<' :: s) = .ok p) :
    ∃ e children nodes, p.document.nodes = .element e children :: nodes ∧ e.span.start = 0 := by
  have hbody : p.document.bodySpan.start = 0 := by
    have hp := h
    simp only [parse, parse_eq_ok h, if_true, Frontmatter.read_of_tag] at hp
    cases hp
    rfl
  have htiling := (parse_faithful h).body
  have hstrays := parse_closingTags h
  have hnodes := parse_node_read h
  rw [hbody, (parse_faithful h).body_stop] at htiling
  unfold Parsed.closingTags at hstrays
  generalize p.document.nodes = nodes at htiling hstrays hnodes
  generalize strays p.diagnostics = spans at htiling hstrays
  have hfirst {c : Cursor} (hc : c.In ('<' :: s)) (hpos : c.pos = 0) : c.rest = '<' :: s :=
    Cursor.In.rest_of_pos (show c.In ([] ++ '<' :: s) from hc) hpos
  generalize hstart : (0 : Nat) = start at htiling ⊢
  -- whatever comes first was read at the start, where a tag begins
  cases htiling with
  | nil =>
    have := Char.utf8Size_pos '<'
    rw [Text.size_cons] at hstart
    omega
  | @stray t _ _ _ _ lt =>
    obtain ⟨_, ⟨c, r, hc, hrest, -, rfl⟩, rfl⟩ := hstrays t (by simp)
    rw [hfirst hc hstart.symm] at hrest
    obtain ⟨-, rfl⟩ := List.cons.inj hrest
    cases hstarts
  | @leaf n nodes _ _ hleaf lt =>
    have hn := hnodes n (by simp [Node.descendants_leaf hleaf])
    cases n with
    | element e children => exact ⟨e, children, nodes, rfl, rfl⟩
    | _ =>
      obtain ⟨c, hc, hread⟩ := hn rfl
      have hspan := (Event.read_readAt hc).span_eq
      rw [hread] at hspan
      have hpos : c.pos = 0 := hstart ▸ (congrArg Span.start hspan).symm
      rw [Event.read_tag hstarts (hfirst hc hpos)] at hread
      exact absurd hread (Event.readElement_ne_leaf rfl)
  | @element e children nodes => exact ⟨e, children, nodes, rfl, rfl⟩

/-- **Blanks around the `=`** do not keep a value from its name, unless there is a line break before
the `=`. This is so wherever the tag stands, and a tag at the start of a source is the start tag of
its first node. -/
theorem spacedTag_whole_iff (hname : IsName name) (hgap : gap.all isAsciiBlank = true)
    (hgap' : gap'.all isAsciiBlank = true) (hvalue : '"' ∉ value) (before tail : Text)
    (hsize : (before ++ (spacedTag name gap gap' value ++ tail)).size ≤ Offset.limit) :
    ∃ p, parse (before ++ (spacedTag name gap gap' value ++ tail)) = .ok p ∧
      (before = [] → ∃ e children nodes, p.document.nodes = .element e children :: nodes ∧
        e.span.start = before.size) ∧
      ∀ e children, .element e children ∈ Node.descendants p.document.nodes →
        e.span.start = before.size →
        (e.startTag.HasOne name value (before.size + (spacedTag name gap gap' value).size) ↔
          '\n' ∉ gap) ∧
        ('\n' ∈ gap → e.startTag.LosesValue name (value ++ '"' :: '>' :: tail)) := by
  rw [List.all_eq_true] at hgap hgap'
  obtain ⟨p, hp⟩ := exists_parse_eq_ok hsize
  refine ⟨p, hp, ?_, ?_⟩
  · rintro rfl
    exact exists_first_element (s := 'p' :: _) rfl hp
  · intro e children he hstart
    obtain ⟨c, s, hc, -, -, hread⟩ := parse_startTag_read hp he
    have hfaithful := ((parse_faithful hp).body.placed _ he).faithful
    -- an element that starts where the given tag stands was read from it
    have hpos : c.pos = before.size := by
      rw [← hstart, hfaithful.start_eq, hread]
      rfl
    have hrest := hc.rest_of_pos hpos
    have hlost : '\n' ∈ gap → e.startTag.LosesValue name (value ++ '"' :: '>' :: tail) :=
      fun hline => hread ▸ StartTag.losesValue_read hname hgap hgap' hline hrest
    refine ⟨⟨fun hone hline => hone.not_losesValue (hlost hline), fun hline => ?_⟩, hlost⟩
    rw [hread, ← hpos]
    exact StartTag.hasOne_read hname hgap hgap' hvalue hline hc hrest

/-- The value holds what would end the tag, and there are blanks of all kinds. -/
theorem spacedTag_whole_blanks :
    IsName ['@', 'a'] ∧ ∃ p e children nodes,
      parse ("<p @a \t\r\x0c=\n \"/>\x7b<\"></p>".toList) = .ok p ∧
        p.document.nodes = .element e children :: nodes ∧
        e.startTag.HasOne ['@', 'a'] "/>\x7b<".toList 19 := by
  have hname : IsName ['@', 'a'] := by decide
  have hgap : (" \t\r\x0c".toList).all isAsciiBlank = true := by decide
  have hgap' : ("\n ".toList).all isAsciiBlank = true := by decide
  have hvalue : '"' ∉ "/>\x7b<".toList := by decide
  obtain ⟨p, hp, hfirst, hall⟩ :=
    spacedTag_whole_iff hname hgap hgap' hvalue [] "</p>".toList (by decide)
  obtain ⟨e, children, nodes, hnodes, hstart⟩ := hfirst rfl
  refine ⟨hname, p, e, children, nodes, hp, hnodes, ?_⟩
  exact (hall e children (by rw [hnodes]; simp) hstart).1.mpr (by decide)

/-- **A line break before the `=`** keeps the value from its name. -/
theorem spacedTag_loses_value : ¬ ∀ name gap gap' value : Text, IsName name →
    gap.all isAsciiBlank = true → gap'.all isAsciiBlank = true → '"' ∉ value →
    ∃ p e children nodes, parse (spacedTag name gap gap' value) = .ok p ∧
      p.document.nodes = .element e children :: nodes ∧
      e.startTag.HasOne name value (spacedTag name gap gap' value).size := by
  intro h
  obtain ⟨p, e, children, nodes, hp, hnodes, hone⟩ :=
    h ['a'] ['\n'] [] ['b'] (by decide) rfl rfl (by decide)
  have hattributes : (parse (spacedTag ['a'] ['\n'] [] ['b'])).toOption.map
      (fun p => p.document.nodes.map fun n => n.element?.map fun e =>
        e.startTag.attributes.length) = some [some 2] := by decide +kernel
  obtain ⟨-, ⟨_, _, _, hattribute⟩, -, -⟩ := hone
  simp [hp, Except.toOption, hnodes, Node.element?, hattribute] at hattributes

end Markup

end TsxLowering
