import TsxLowering.Proofs.ClosingTags

/-!
Where raw text ends.

The content of a raw text element runs up to the first closing tag that begins with the name of the
element, in any case, and that tag is the end tag whatever its name goes on with. So the content
ends at the element's own closing tag exactly if the name of the end tag is no longer than the
element's.
-/

namespace TsxLowering.Markup

open ClosingTag (beginsWith)

variable {source : Text} {c : Cursor}

/-- Whether the closing tag with this text behind its `</` has a name, in any case. -/
def ClosingTag.isNamed (name rest : Text) : Bool :=
  Text.sameIgnoringCase (rest.takeWhile isNameChar) name

/-- The content of an element runs from its start tag up to the first closing tag that `P` accepts,
which is the end tag, or else to the end of the source. -/
inductive Element.RawTextEnds (source : Text) (P : Text → Bool) (e : Element) : Prop
  | closed {before content raw rest : Text} {t : Span} (source_eq : source = before ++ content)
      (start : e.startTag.span.stop = before.size) (closer : FirstCloser P content raw rest)
      (rawText : e.rawText = some ⟨before.size, before.size + raw.size⟩)
      (endTag : e.endTag = some t) (endTag_start : t.start = before.size + raw.size)
      (endTag_name : closingName? source t = some (rest.takeWhile isNameChar)) :
      RawTextEnds source P e
  | toEnd {before content : Text} (source_eq : source = before ++ content)
      (start : e.startTag.span.stop = before.size) (quiet : NoCloser P content)
      (rawText : e.rawText = some ⟨before.size, source.size⟩) (endTag : e.endTag = none) :
      RawTextEnds source P e

/-! ### The raw text of a tree -/

lemma StartTag.isVoid_of_isRawText {tag : StartTag} (h : tag.isRawText = true) :
    tag.isVoid = false := by
  have hapart : (rawTextNames.all fun r => voidNames.all fun v =>
      r.map Char.toLower != v.map Char.toLower) = true := by decide
  by_contra hvoid
  obtain ⟨r, hr, hraw⟩ := List.any_eq_true.mp h
  obtain ⟨v, hv, hvoid⟩ := List.any_eq_true.mp (Bool.not_eq_false _ ▸ hvoid :)
  have hne := List.all_eq_true.mp (List.all_eq_true.mp hapart r hr) v hv
  rw [sameIgnoringCase_iff] at hraw hvoid
  simp [← hraw, ← hvoid] at hne

/-- The content of a raw text element was read right behind its start tag. -/
def Node.RawTextRead (source : Text) : Node → Prop
  | .element e _ => e.startTag.isRawText = true → e.startTag.ending = .closed →
    ∃ d : Cursor, d.In source ∧ e.startTag.span.stop = d.pos ∧
      e.rawText = some (Event.readRawText e.startTag d).value.1 ∧
      e.endTag = (Event.readRawText e.startTag d).value.2
  | .text _ | .expression _ | .comment .. | .doctype _ => True

def Event.RawTextRead (source : Text) : Event → Prop
  | .leaf node => node.RawTextRead source
  | .opening _ | .closing _ => True

namespace Event

lemma readElement_rawTextRead (hc : c.In source) : (readElement c).value.RawTextRead source := by
  have hnext := hc.reaches (StartTag.read_reaches hc)
  simp only [readElement]
  split
  · next hunclosed =>
    intro _ hclosed
    cases hunclosed.symm.trans hclosed
  · split
    · next hkind =>
      intro hraw hclosed
      have hvoid := StartTag.isVoid_of_isRawText hraw
      dsimp only at hraw hclosed hvoid
      simp [hclosed, hvoid] at hkind
    · split
      · exact fun _ _ => ⟨_, hnext, rfl, rfl, rfl⟩
      · trivial

lemma read_rawTextRead (hc : c.In source) : (read c).value.RawTextRead source := by
  unfold read
  split
  · trivial
  · unfold readComment
    dsimp only
    split <;> trivial
  · trivial
  · split <;> trivial
  · split
    · exact readElement_rawTextRead hc
    · trivial
  · trivial

end Event

/-- An element that was still open while its content was read holds nodes and no raw text. -/
lemma yields_rawTextRead :
    Nesting.Yields (Event.SoundWith source (Event.RawTextRead source))
      (Node.RawTextRead source) where
  leaf event := by
    rw [event.1.descendants_leaf]
    exact List.forall_mem_singleton.mpr event.2
  unclosed event hraw _ := by
    have hholds := event.1.holdsNodes.2.2
    cases hraw.symm.trans hholds
  closed event _ _ hraw _ := by
    have hholds := event.1.holdsNodes.2.2
    cases hraw.symm.trans hholds

lemma Element.rawTextEnds {e : Element} {d : Cursor} (hd : d.In source)
    (hstop : e.startTag.span.stop = d.pos)
    (hraw : e.rawText = some (Event.readRawText e.startTag d).value.1)
    (hend : e.endTag = (Event.readRawText e.startTag d).value.2) :
    e.RawTextEnds source (beginsWith e.startTag.name.text) := by
  have hatEnd := hd.pos_atEnd
  have hin := hd
  obtain ⟨before, hsource, hpos⟩ := hd
  unfold Event.readRawText at hraw hend
  split at hraw <;> rename_i hlength <;> simp only [hlength] at hend
  · obtain ⟨raw, rest, rfl, hfirst⟩ := Event.rawTextLength_eq_some hlength
    have hadvance := Cursor.advance_eq_of_rest hfirst.split
    have hname := ClosingTag.closingName?_read (hin.advance raw.length) (s := rest)
      (by rw [hadvance])
    have htake : (ClosingTag.read (d.advance raw.length)).1.name = rest.takeWhile isNameChar := by
      simp [ClosingTag.read, hadvance]
    rw [htake] at hname
    refine .closed hsource (hstop.trans hpos) hfirst ?_ hend ?_ hname
    · rw [hraw, Cursor.spanTo, hadvance, hpos]
    · rw [ClosingTag.span_read, Cursor.spanTo, hadvance, hpos]
  · refine .toEnd hsource (hstop.trans hpos) (Event.rawTextLength_eq_none hlength) ?_ hend
    rw [hraw, Cursor.spanTo, hatEnd, hpos]

/-! ### Names that go on -/

lemma ClosingTag.beginsWith_of_isNamed {name rest : Text} (h : isNamed name rest = true) :
    beginsWith name rest = true := by
  have hlength := length_of_sameIgnoringCase h
  have htake : rest.take name.length = rest.takeWhile isNameChar := by
    rw [← hlength]
    exact (List.prefix_iff_eq_take.mp (List.takeWhile_prefix _)).symm
  rwa [beginsWith, htake]

lemma ClosingTag.take_takeWhile {name rest : Text} (hname : isRawTextName name = true)
    (h : beginsWith name rest = true) :
    (rest.takeWhile isNameChar).take name.length = rest.take name.length := by
  have hchars : ∀ x ∈ rest.take name.length, isNameChar x = true := by
    intro x hx
    have halpha := isAlpha_of_sameIgnoringCase h (isAlpha_of_special (.inr hname)).2 x hx
    exact isNameChar_of_isAlphanum (by simp [Char.isAlphanum, halpha])
  have hlength := length_of_sameIgnoringCase h
  calc (rest.takeWhile isNameChar).take name.length
      = ((rest.take name.length ++ rest.drop name.length).takeWhile isNameChar).take
          name.length := by rw [List.take_append_drop]
    _ = (rest.take name.length ++ (rest.drop name.length).takeWhile isNameChar).take
          name.length := by rw [List.takeWhile_append_of_pos hchars]
    _ = rest.take name.length := List.take_left' hlength

/-- The end tag has the name of the element, in any case. -/
def Element.EndTagNamed (source : Text) (e : Element) : Prop :=
  ∀ t, e.endTag = some t →
    ∃ name, closingName? source t = some name ∧
      name.sameIgnoringCase e.startTag.name.text = true

lemma Element.RawTextEnds.endTagNamed {e : Element}
    (h : e.RawTextEnds source (ClosingTag.isNamed e.startTag.name.text)) :
    e.EndTagNamed source := by
  intro t ht
  cases h with
  | closed _ _ closer _ endTag _ endTag_name =>
    obtain rfl := Option.some.inj (endTag.symm.trans ht)
    exact ⟨_, endTag_name, closer.closes⟩
  | toEnd _ _ _ _ endTag => cases endTag.symm.trans ht

lemma Element.RawTextEnds.named_iff {e : Element}
    (h : e.RawTextEnds source (beginsWith e.startTag.name.text)) :
    e.RawTextEnds source (ClosingTag.isNamed e.startTag.name.text) ↔ e.EndTagNamed source := by
  constructor
  · exact Element.RawTextEnds.endTagNamed
  · intro hnamed
    -- a tag of the full name begins with it, so no such tag comes first
    have hother {v : Text} (hv : beginsWith e.startTag.name.text v = false) :
        ClosingTag.isNamed e.startTag.name.text v = false := by
      by_contra hn
      have := ClosingTag.beginsWith_of_isNamed (Bool.not_eq_false _ ▸ hn :)
      simp [hv] at this
    cases h with
    | closed source_eq start closer rawText endTag endTag_start endTag_name =>
      obtain ⟨name, hname, hsame⟩ := hnamed _ endTag
      obtain rfl := Option.some.inj (endTag_name.symm.trans hname)
      exact .closed source_eq start
        ⟨closer.split, hsame, fun u v huv hlt => hother (closer.first u v huv hlt)⟩ rawText endTag
        endTag_start endTag_name
    | toEnd source_eq start quiet rawText endTag =>
      exact .toEnd source_eq start (fun u v huv => hother (quiet u v huv)) rawText endTag

lemma Element.RawTextEnds.endTag_begins {e : Element} (hraw : e.startTag.isRawText = true)
    (h : e.RawTextEnds source (beginsWith e.startTag.name.text)) :
    ∀ t, e.endTag = some t → ∃ name, closingName? source t = some name ∧
      beginsWith e.startTag.name.text name = true := by
  intro t ht
  cases h with
  | closed _ _ closer _ endTag _ endTag_name =>
    obtain rfl := Option.some.inj (endTag.symm.trans ht)
    refine ⟨_, endTag_name, ?_⟩
    rw [beginsWith, ClosingTag.take_takeWhile hraw closer.closes]
    exact closer.closes
  | toEnd _ _ _ _ endTag => cases endTag.symm.trans ht

/-- **Where raw text ends**: at the first closing tag that begins with the name of the element,
which is its own closing tag exactly if it has that name. -/
theorem rawText_ends_iff (h : source.size ≤ Offset.limit) :
    ∃ p, parse source = .ok p ∧ ∀ (e : Element) (children : List Node),
      .element e children ∈ Node.descendants p.document.nodes → e.startTag.isRawText = true →
      e.startTag.ending = .closed →
      e.RawTextEnds source (beginsWith e.startTag.name.text) ∧
      (∀ t, e.endTag = some t → ∃ name, closingName? source t = some name ∧
        beginsWith e.startTag.name.text name = true) ∧
      (e.RawTextEnds source (ClosingTag.isNamed e.startTag.name.text) ↔ e.EndTagNamed source) := by
  obtain ⟨p, hp⟩ := exists_parse_eq_ok h
  refine ⟨p, hp, fun e children he hraw hclosed => ?_⟩
  have hread : Node.RawTextRead source (.element e children) :=
    parse_forall_descendants_with (fun _ => Event.read_rawTextRead) yields_rawTextRead hp _ he
  obtain ⟨d, hd, hstop, hcontent, hend⟩ := hread hraw hclosed
  have hends := e.rawTextEnds hd hstop hcontent hend
  exact ⟨hends, hends.endTag_begins hraw, hends.named_iff⟩

/-- Another closing tag stands in the raw text, and the element's own is in upper case. -/
def shoutedScript : Text := "<script>a</s>é</SCRIPT >".toList

theorem rawText_ends_shouted :
    shoutedScript.size ≤ Offset.limit ∧ ∃ p e, parse shoutedScript = .ok p ∧
      .element e [] ∈ Node.descendants p.document.nodes ∧ e.startTag.isRawText = true ∧
      e.startTag.ending = .closed ∧ e.rawText = some ⟨8, 15⟩ ∧ e.endTag = some ⟨15, 25⟩ ∧
      e.RawTextEnds shoutedScript (ClosingTag.isNamed "script".toList) := by
  refine ⟨by decide, ?_⟩
  obtain ⟨p, hp, hends⟩ := @rawText_ends_iff shoutedScript (by decide)
  let e : Element := ⟨⟨0, 25⟩, ⟨⟨0, 8⟩, ⟨⟨1, 7⟩, "script".toList⟩, [], .closed⟩, some ⟨8, 15⟩,
    some ⟨15, 25⟩⟩
  have hnodes : (parse shoutedScript).toOption.map (fun p => Node.descendants p.document.nodes) =
      some [.element e []] := by decide +kernel
  rw [hp] at hnodes
  have hall : Node.descendants p.document.nodes = [.element e []] := Option.some.inj hnodes
  have he : .element e [] ∈ Node.descendants p.document.nodes := by simp [hall]
  refine ⟨p, e, hp, he, rfl, rfl, rfl, rfl, (hends e [] he rfl rfl).2.2.mpr ?_⟩
  rintro t ⟨⟩
  exact ⟨"SCRIPT".toList, by decide +kernel, by decide⟩

/-- **Raw text may end at the closing tag of another element**, whose name is longer. -/
theorem rawText_ends_early : ¬ ∀ (source : Text) (p : Parsed), parse source = .ok p →
    ∀ (e : Element) (children : List Node),
      .element e children ∈ Node.descendants p.document.nodes → e.startTag.isRawText = true →
      e.startTag.ending = .closed →
      e.RawTextEnds source (ClosingTag.isNamed e.startTag.name.text) := by
  intro h
  obtain ⟨p, hp⟩ : ∃ p, parse "<script>a</scripty></script>".toList = .ok p :=
    exists_parse_eq_ok (by decide)
  let e : Element := ⟨⟨0, 19⟩, ⟨⟨0, 8⟩, ⟨⟨1, 7⟩, "script".toList⟩, [], .closed⟩, some ⟨8, 9⟩,
    some ⟨9, 19⟩⟩
  have hnodes : (parse "<script>a</scripty></script>".toList).toOption.map
      (fun p => Node.descendants p.document.nodes) = some [.element e []] := by decide +kernel
  rw [hp] at hnodes
  have hall : Node.descendants p.document.nodes = [.element e []] := Option.some.inj hnodes
  have he : .element e [] ∈ Node.descendants p.document.nodes := by simp [hall]
  obtain ⟨name, hname, hsame⟩ := (h _ p hp e [] he rfl rfl).endTagNamed _ rfl
  have hfound : closingName? "<script>a</scripty></script>".toList ⟨9, 19⟩ =
      some "scripty".toList := by decide +kernel
  obtain rfl := Option.some.inj (hfound.symm.trans hname)
  exact absurd hsame (by decide)

end TsxLowering.Markup
