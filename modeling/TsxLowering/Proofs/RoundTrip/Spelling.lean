import TsxLowering.Proofs.Faithful.Reports
import TsxLowering.Proofs.RoundTrip.Attributes

/-!
How the attributes of a source are written.

Every start tag of a tree was read somewhere in the source. So behind the name of an attribute that
has a value stand blanks and an `=`, a value in quotes holds no such quote, and code that is spread
or is a name of its own stands in its braces with nothing but blanks around it.
-/

namespace TsxLowering

lemma Text.not_mem_of_splitOnce {s inner rest : Text} {x : Char}
    (h : s.splitOnce [x] = some (inner, rest)) : x ∉ inner := by
  intro hx
  obtain ⟨before, after, rfl, hbefore⟩ := List.eq_append_cons_of_mem hx
  have hfirst : Text.splitOnce (before ++ x :: (after ++ x :: rest)) [x] =
      some (before, after ++ x :: rest) :=
    Text.splitOnce_append (p := []) List.not_mem_nil fun h => hbefore (h.subset (by simp))
  have hs : s = before ++ x :: (after ++ x :: rest) := by simpa using Text.append_of_splitOnce h
  rw [← hs, h] at hfirst
  simp at hfirst

namespace Cursor

variable {source : Text} {c : Cursor}

lemma In.slice?_skipWhile (h : c.In source) (p : Char → Bool) :
    source.slice? c.pos (c.skipWhile p).pos = some (c.rest.takeWhile p) := by
  have hexcerpt := h.excerpt (c.rest.takeWhile p).length
  rwa [Excerpt.Faithful, Cursor.excerpt,
    ← List.prefix_iff_eq_take.mp (List.takeWhile_prefix p)] at hexcerpt

lemma In.slice?_advance {s t : Text} (h : c.In source) (hrest : c.rest = s ++ t) :
    source.slice? c.pos (c.advance s.length).pos = some s := by
  have hexcerpt := h.excerpt s.length
  rwa [Excerpt.Faithful, Cursor.excerpt, hrest, List.take_left] at hexcerpt

end Cursor

namespace Markup

variable {source : Text} {c : Cursor}

/-! ### Start tags -/

/-- The tag was read in the source. -/
def StartTag.ReadIn (source : Text) (tag : StartTag) : Prop :=
  ∃ (c : Cursor) (s : Text), c.In source ∧ c.rest = '<' :: s ∧ startsTagName s = true ∧
    tag = (StartTag.read c).value

/-- The start tag of an element has a property. -/
def Node.HasTag (P : StartTag → Prop) : Node → Prop
  | .element e _ => P e.startTag
  | .text _ | .expression _ | .comment .. | .doctype _ => True

def Event.HasTag (P : StartTag → Prop) : Event → Prop
  | .leaf node => node.HasTag P
  | .opening tag => P tag
  | .closing _ => True

lemma Event.read_hasTag (hc : c.In source) :
    (Event.read c).value.HasTag (StartTag.ReadIn source) := by
  unfold Event.read
  split
  · trivial
  · unfold readComment
    dsimp only
    split <;> trivial
  · trivial
  · split <;> trivial
  · next s _ _ _ hrest =>
    split
    · next hstarts =>
      have htag : (StartTag.read c).value.ReadIn source := ⟨c, s, hc, hrest, hstarts, rfl⟩
      obtain ⟨ds, -, hbecomes⟩ := readElement_becomes hc
      generalize (readElement c).value = e at hbecomes ⊢
      cases hbecomes <;> exact htag
    · trivial
  · trivial

/-- **Every start tag of a tree** was read in the source. -/
theorem parse_startTag_read {p : Parsed} (h : parse source = .ok p) {e : Element}
    {children : List Node} (he : .element e children ∈ Node.descendants p.document.nodes) :
    e.startTag.ReadIn source := by
  have hyields : Nesting.Yields (Event.SoundWith source (Event.HasTag (StartTag.ReadIn source)))
      (Node.HasTag (StartTag.ReadIn source)) :=
    { leaf := fun hevent m hm => by
        rw [hevent.1.descendants_leaf, List.mem_singleton] at hm
        exact hm ▸ hevent.2
      unclosed := fun hevent => hevent.2
      closed := fun hevent _ _ => hevent.2 }
  exact parse_forall_descendants_with (fun _ => Event.read_hasTag) hyields h _ he

/-! ### Attributes -/

namespace Attribute

/-- How an attribute is written in the source, where it has a value that is text or has no name
before its braces. -/
def Spelled (source : Text) : Attribute → Prop
  | .normal _ name (.quoted v) =>
    v.closed = true → ∃ link quote, IsLink link ∧ (quote = '"' ∨ quote = '\'') ∧ quote ∉ v.text ∧
      source.slice? name.span.stop v.span.start = some link ∧
      source.slice? v.span.start v.span.stop = some (quote :: (v.text ++ [quote]))
  | .normal _ name (.unquoted v) =>
    ∃ link, IsLink link ∧ source.slice? name.span.stop v.span.start = some link
  | .spread span code =>
    ∃ inner : Text, inner.trim = '.' :: '.' :: '.' :: code.text ∧
      source.slice? span.start span.stop = some ('\x7b' :: (inner ++ ['\x7d']))
  | .shorthand span name =>
    ∃ inner : Text, inner.trim = name.text ∧
      source.slice? span.start span.stop = some ('\x7b' :: (inner ++ ['\x7d']))
  | _ => True

lemma lexeme_of_equals {s : Text} (h : (Token.lexeme s).1 = .equals) :
    ∃ r, s = '=' :: r ∧ (Token.lexeme s).2 = 1 := by
  revert h
  fun_cases Token.lexeme s <;> simp

lemma exists_link (hc : c.In source) (h : (Token.next c).1.kind = .equals) :
    ∃ link, IsLink link ∧
      source.slice? c.pos ((Token.next c).2.skipWhile isAsciiBlank).pos = some link := by
  have hskip := hc.slice?_skipWhile Token.isSkipped
  have hin := hc.reaches (c.reaches_skipWhile Token.isSkipped)
  obtain ⟨r, hrest, hlength⟩ := lexeme_of_equals h
  have hequals := hin.slice?_advance (s := ['=']) hrest
  have hnext : (Token.next c).2 = (c.skipWhile Token.isSkipped).advance 1 := by
    rw [Token.next_snd, hlength]
  have hafter := (hin.advance 1).slice?_skipWhile isAsciiBlank
  rw [hnext]
  exact ⟨_, ⟨_, _, rfl, List.all_eq_true.mp List.all_takeWhile,
    List.all_eq_true.mp List.all_takeWhile⟩,
    Text.slice?_trans hskip (Text.slice?_trans hequals hafter)⟩

lemma read_quoted {quote : Char} {s : Text} (hc : c.In source) (hrest : c.rest = quote :: s)
    (hclosed : (Enclosed.read c (Text.splitOnce s [quote])).1.closed = true) :
    quote ∉ (Enclosed.read c (Text.splitOnce s [quote])).1.text ∧
      source.slice? c.pos (Enclosed.read c (Text.splitOnce s [quote])).1.span.stop =
        some (quote :: ((Enclosed.read c (Text.splitOnce s [quote])).1.text ++ [quote])) := by
  have hwithin : (Enclosed.read c (Text.splitOnce s [quote])).1.Within source quote quote :=
    Enclosed.read_within hc hrest fun _ _ => Text.append_of_splitOnce
  obtain ⟨hwritten, -⟩ := hwithin
  rw [hclosed] at hwritten
  rw [Enclosed.span_read] at hwritten ⊢
  refine ⟨?_, hwritten⟩
  cases hsplit : Text.splitOnce s [quote] with
  | none =>
    rw [hsplit] at hclosed
    cases hclosed
  | some p =>
    obtain ⟨inner, rest⟩ := p
    exact Text.not_mem_of_splitOnce hsplit

lemma readNamed_spelled {name : Excerpt} (hc : c.In source) (hname : name.span.stop = c.pos) :
    (readNamed name c).value.Spelled source := by
  unfold readNamed
  dsimp only
  split
  · next hkind =>
    obtain ⟨link, hlink, hslice⟩ := exists_link hc hkind
    rw [← hname] at hslice
    have hin := (hc.reaches (Token.next_reaches c)).reaches
      ((Token.next c).2.reaches_skipWhile isAsciiBlank)
    simp only [Value.read]
    generalize (Token.next c).2.skipWhile isAsciiBlank = d at hslice hin ⊢
    split
    · next s hrest =>
      intro hclosed
      obtain ⟨hfree, hwritten⟩ := read_quoted hin hrest hclosed
      rw [Enclosed.span_read] at hwritten ⊢
      exact ⟨link, '"', hlink, .inl rfl, hfree, hslice, hwritten⟩
    · next s hrest =>
      intro hclosed
      obtain ⟨hfree, hwritten⟩ := read_quoted hin hrest hclosed
      rw [Enclosed.span_read] at hwritten ⊢
      exact ⟨link, '\'', hlink, .inr rfl, hfree, hslice, hwritten⟩
    · trivial
    · trivial
    · exact ⟨link, hlink, hslice⟩
  · trivial

lemma ofBraces_spelled {start : Nat} {inner rest : Text} (hc : c.In source)
    (hopening : source.slice? start c.pos = some ['\x7b'])
    (hrest : c.rest = inner ++ '\x7d' :: rest) : (ofBraces start c inner).Spelled source := by
  have hclosing := hc.slice?_advance (s := inner ++ ['\x7d']) (t := rest) (by simpa using hrest)
  rw [List.length_append] at hclosing
  unfold ofBraces
  dsimp only
  split
  · next code htrim =>
    obtain ⟨t, ht⟩ := rest_skipWhile_of_trim hrest htrim
    have hcode : ((c.skipWhile isBlank).advance 3).rest = code ++ t := by
      rw [Cursor.rest_advance, ht]
      rfl
    refine ⟨inner, ?_, Text.slice?_trans hopening hclosing⟩
    rw [htrim, Cursor.text_excerpt_of_rest hcode rfl]
  · obtain ⟨t, ht⟩ := rest_skipWhile_of_trim hrest rfl
    refine ⟨inner, ?_, Text.slice?_trans hopening hclosing⟩
    rw [Cursor.text_excerpt_of_rest ht rfl]

end Attribute

namespace StartTag

lemma Item.read_spelled_in {a : Reading Attribute} (hc : c.In source)
    (h : Item.read c = .attribute a) : a.value.Spelled source := by
  have hin := hc.reaches (c.reaches_skipWhile Token.isSkipped)
  have hnext := hc.reaches (Token.next_reaches c)
  unfold Item.read at h
  dsimp only at h
  split at h
  · cases h
    exact Attribute.readNamed_spelled hnext rfl
  · next hkind =>
    split at h
    · next inner rest hsplit =>
      cases h
      obtain ⟨r, hrest, hlength⟩ : ∃ r, (c.skipWhile Token.isSkipped).rest = '\x7b' :: r ∧
          (Token.lexeme (c.skipWhile Token.isSkipped).rest).2 = 1 := by
        revert hkind
        simp only [Token.next]
        fun_cases Token.lexeme (c.skipWhile Token.isSkipped).rest <;> simp
      have hopening := hin.slice?_advance (s := ['\x7b']) hrest
      refine Attribute.ofBraces_spelled hnext ?_ (Code.append_of_split hsplit)
      rw [Token.next_snd, hlength]
      exact hopening
    · cases h
  all_goals cases h

lemma Tail.read_spelled (last : Cursor) (hc : c.In source) :
    ∀ a ∈ (Tail.read last c).value.attributes, a.Spelled source := by
  fun_induction Tail.read last c with
  | case1 last c a h ih =>
    exact List.forall_mem_cons.mpr ⟨Item.read_spelled_in hc h,
      ih (hc.reaches (Item.read_attribute hc h).reaches)⟩
  | case2 last c next h ih => exact ih (hc.reaches (Item.read_stray h))
  | case3 => simp
  | case4 => simp

lemma ReadIn.spelled {tag : StartTag} (h : tag.ReadIn source) :
    ∀ a ∈ tag.attributes, a.Spelled source := by
  obtain ⟨c, s, hc, -, -, rfl⟩ := h
  exact Tail.read_spelled _ ((hc.advance 1).advance _)

lemma ReadIn.faithful {tag : StartTag} (h : tag.ReadIn source) : tag.Faithful source := by
  obtain ⟨c, s, hc, hrest, -, rfl⟩ := h
  exact read_faithful hc hrest

end StartTag

end Markup

end TsxLowering
