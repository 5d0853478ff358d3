import TsxLowering.Markup.Document
import TsxLowering.Proofs.RoundTrip.Tags

/-!
Printed markup, read back as a document.

Each part of a printed row of nodes is one event: one for a node without nodes inside, and one
for each of the two tags of an element. The nodes that come between the tags of an element are
complete when its closing tag is read, so that tag meets the element it belongs to, whatever
elements of the same name there are around it or inside.
-/

namespace TsxLowering.Markup

variable {c : Cursor} {name tail : Text}

/-! ### Texts -/

namespace IsTagName

lemma append_eq_cons (h : IsTagName name) (tail : Text) :
    ∃ x s, name ++ tail = x :: s ∧ x.isAlpha = true := by
  obtain ⟨x, hx, halpha⟩ := h.letter
  obtain ⟨s, rfl⟩ := List.head?_eq_some_iff.mp hx
  exact ⟨x, s ++ tail, rfl, halpha⟩

lemma startsTagName_append (h : IsTagName name) (tail : Text) :
    startsTagName (name ++ tail) = true := by
  obtain ⟨x, s, hs, hx⟩ := h.append_eq_cons tail
  simp [hs, startsTagName, hx]

end IsTagName

namespace Event

lemma textRun_append {s : Text} (hmarkup : '<' ∉ s) (hcode : '\x7b' ∉ s)
    (htail : textRun tail = []) : textRun (s ++ tail) = s := by
  induction s with
  | nil => exact htail
  | cons x s ih =>
    rw [List.mem_cons, not_or] at hmarkup hcode
    have hx : (x == '\x7b' || (x == '<' && startsMarkup (s ++ tail))) = false := by
      simp [Ne.symm hmarkup.1, Ne.symm hcode.1]
    rw [List.cons_append, textRun, hx, ih hmarkup.2 hcode.2]
    rfl

lemma textRun_tag (h : IsTagName name) (tail : Text) : textRun ('<' :: (name ++ tail)) = [] := by
  have hname := h.startsTagName_append tail
  obtain ⟨x, s, hs, hx⟩ := h.append_eq_cons tail
  rw [hs] at hname ⊢
  have hmarkup : startsMarkup (x :: s) = true := by
    unfold startsMarkup
    split
    · rfl
    · next heq =>
      cases heq
      exact absurd hx (by decide)
    · exact hname
  simp [textRun, hmarkup]

lemma textRun_closing (h : IsTagName name) (tail : Text) :
    textRun ('<' :: '/' :: (name ++ tail)) = [] := by
  simp [textRun, startsMarkup, h.startsTagName_append]

end Event

namespace Outline

lemma print_element_append (name : Text) (attributes : List AttributeOutline)
    (children rest : Outline) (tail : Text) :
    (element name attributes children rest).print ++ tail =
      '<' :: (name ++ (attributes.flatMap AttributeOutline.print ++ '>' :: (children.print ++
        '<' :: '/' :: (name ++ '>' :: (rest.print ++ tail))))) := by
  simp [print]

lemma print_selfClosing_append (name : Text) (attributes : List AttributeOutline) (rest : Outline)
    (tail : Text) :
    (selfClosing name attributes rest).print ++ tail =
      '<' :: (name ++ (attributes.flatMap AttributeOutline.print ++
        ' ' :: '/' :: '>' :: (rest.print ++ tail))) := by
  simp [print]

lemma textRun_print {o : Outline} (ho : o.WellFormed) (htext : o.startsWithText = false)
    (htail : Event.textRun tail = []) : Event.textRun (o.print ++ tail) = [] := by
  cases o with
  | nil => exact htail
  | text run rest => cases htext
  | expression code rest => rfl
  | comment data rest => rfl
  | element name attributes children rest =>
    rw [print_element_append]
    exact Event.textRun_tag ho.1 _
  | selfClosing name attributes rest =>
    rw [print_selfClosing_append]
    exact Event.textRun_tag ho.1 _

end Outline

/-! ### Events -/

namespace Event

/-- The event at the cursor is a node that, in front of others, makes the outline `f` of them. -/
def ReadsLeaf (c : Cursor) (f : Outline → Outline) (tail : Text) : Prop :=
  ∃ node next, read c = ⟨.leaf node, [], next⟩ ∧ next.rest = tail ∧
    ∀ rest, node.outline? rest = some (f rest)

lemma read_text {run : Text} (h : c.rest = run ++ tail) (hne : run ≠ []) (hmarkup : '<' ∉ run)
    (hcode : '\x7b' ∉ run) (htail : textRun tail = []) :
    read c = ⟨.leaf (.text (c.excerpt run.length)), [], c.advance run.length⟩ := by
  obtain ⟨x, s, rfl⟩ := List.exists_cons_of_ne_nil hne
  rw [List.mem_cons, not_or] at hmarkup hcode
  have hread : read c = readText c := by
    unfold read
    split <;> first | rfl | rename_i heq
    all_goals
      rw [h] at heq
      have hx := (List.cons.inj heq).1.symm
      first | exact absurd hx hmarkup.1 | exact absurd hx hcode.1
  have hlength : 1 + (textRun (c.rest.drop 1)).length = (x :: s).length := by
    simp [h, textRun_append hmarkup.2 hcode.2 htail, Nat.add_comm]
  rw [hread, readText, hlength]

lemma readsLeaf_text {run : Text} (h : c.rest = run ++ tail) (hne : run ≠ []) (hmarkup : '<' ∉ run)
    (hcode : '\x7b' ∉ run) (htail : textRun tail = []) : ReadsLeaf c (.text run) tail := by
  refine ⟨_, _, read_text h hne hmarkup hcode htail, Cursor.rest_advance_of_rest h rfl,
    fun rest => ?_⟩
  rw [Node.outline?, Cursor.text_excerpt_of_rest h rfl]

lemma readsLeaf_expression {code : Text} (h : c.rest = '\x7b' :: (code ++ '\x7d' :: tail))
    (hcode : Code.Balanced .code code) : ReadsLeaf c (.expression code) tail := by
  have hread : read c = readExpression c := by simp only [read, h]
  refine ⟨_, _, by rw [hread, readExpression, Enclosed.readCode_eq h hcode],
    rest_advance_enclosed h, fun rest => ?_⟩
  simp [Node.outline?]

lemma readsLeaf_comment {data : Text}
    (h : c.rest = '<' :: '!' :: '-' :: '-' :: (data ++ '-' :: '-' :: '>' :: tail))
    (hdata : ¬ ['-', '-', '>'] <:+: data) : ReadsLeaf c (.comment data) tail := by
  have hread : read c = readComment c := by simp only [read, h]
  have hafter : (c.advance 4).rest = data ++ '-' :: '-' :: '>' :: tail := by
    rw [Cursor.rest_advance, h]
    rfl
  have hsplit : (c.advance 4).rest.splitOnce ['-', '-', '>'] = some (data, tail) := by
    rw [hafter]
    exact Text.splitOnce_append (p := ['-', '-']) (by decide) hdata
  refine ⟨_, _, by simp only [hread, readComment, hsplit]; rfl, ?_, fun rest => ?_⟩
  · exact Cursor.rest_advance_of_rest (s := data ++ ['-', '-', '>']) (by simpa using hafter)
      (by simp)
  · rw [Node.outline?, Cursor.text_excerpt_of_rest hafter rfl]

lemma read_tag {s : Text} (h : startsTagName s = true) (hc : c.rest = '<' :: s) :
    read c = readElement c := by
  unfold read
  rw [hc]
  split
  · next heq => cases heq
  · next heq =>
    cases heq
    exact absurd h (by simp [startsTagName])
  · next heq =>
    cases heq
    exact absurd h (by simp [startsTagName])
  · next heq =>
    cases heq
    exact absurd h (by simp [startsTagName])
  · next heq =>
    cases heq
    exact if_pos h
  · next hne => exact absurd rfl (hne s)

section tags

variable {attributes : List AttributeOutline} (hname : IsTagName name)
  (ha : ∀ a ∈ attributes, a.WellFormed)

include hname ha

lemma readsLeaf_selfClosing (h : c.rest = '<' :: (name ++
      (attributes.flatMap AttributeOutline.print ++ ' ' :: '/' :: '>' :: tail))) :
    ReadsLeaf c (.selfClosing name attributes) tail := by
  obtain ⟨hgives, htext, hending⟩ :=
    StartTag.read_print hname.isName ha (.selfClosing [' '] (by simp [isBlank]) tail) h
  have hvoid : (StartTag.read c).value.isVoid = false := by
    rw [StartTag.isVoid, htext, hname.not_void]
  -- a closing tag behind it belongs to another element
  have hend : readVoidEnd (StartTag.read c).value (StartTag.read c).next =
      (none, (StartTag.read c).next) := by
    unfold readVoidEnd
    split <;> simp [hvoid]
  refine ⟨.element ⟨c.spanTo (StartTag.read c).next, (StartTag.read c).value, none, none⟩ [], _, ?_,
    hgives.rest, fun rest => ?_⟩
  · rw [read_tag (hname.startsTagName_append _) h]
    simp [readElement, hending, hend, hgives.diagnostics]
  · simp [Node.outline?, hgives.view_eq, hending, htext]

lemma read_opening (h : c.rest = '<' :: (name ++
      (attributes.flatMap AttributeOutline.print ++ '>' :: tail))) :
    ∃ tag next, read c = ⟨.opening tag, [], next⟩ ∧ next.rest = tail ∧ tag.name.text = name ∧
      tag.ending = .closed ∧ tag.attributes.mapM Attribute.outline? = some attributes := by
  obtain ⟨hgives, htext, hending⟩ :=
    StartTag.read_print hname.isName ha (.closed [] (by simp) tail) h
  have hvoid : (StartTag.read c).value.isVoid = false := by
    rw [StartTag.isVoid, htext, hname.not_void]
  have hraw : (StartTag.read c).value.isRawText = false := by
    rw [StartTag.isRawText, htext, hname.not_rawText]
  refine ⟨_, _, ?_, hgives.rest, htext, hending, hgives.view_eq⟩
  rw [read_tag (hname.startsTagName_append _) h]
  simp [readElement, hending, hvoid, hraw, hgives.diagnostics]

end tags

lemma read_closing (hname : IsTagName name) (h : c.rest = '<' :: '/' :: (name ++ '>' :: tail)) :
    read c = ⟨.closing ⟨name, ⟨c.pos, c.pos + (name.size + 3)⟩⟩, [],
      ⟨c.pos + (name.size + 3), tail⟩⟩ := by
  simp only [read, h, hname.startsTagName_append, ↓reduceIte, readClosing,
    ClosingTag.read_name hname.isName h]

end Event

/-! ### Trees -/

namespace Nesting

/-- The tree after all events from the cursor on. -/
def after (n : Nesting) (c : Cursor) : Nesting := (Event.stream c).foldl addReading n

lemma after_of_rest_nil (n : Nesting) (h : c.rest = []) : n.after c = n := by
  rw [after, Event.stream, dif_pos h]
  rfl

lemma after_eq (n : Nesting) (h : c.rest ≠ []) :
    n.after c = (n.addReading (Event.read c)).after (Event.read c).next := by
  rw [after, Event.stream, dif_neg h]
  rfl

/-- Puts nodes behind those on the innermost level. -/
def append (n : Nesting) (nodes : List Node) : Nesting :=
  { n with nodes := nodes.reverse ++ n.nodes }

lemma append_cons (n : Nesting) (node : Node) (nodes : List Node) :
    n.append (node :: nodes) = (n.append [node]).append nodes := by
  simp [append]

/-- Reading from the cursor on makes nodes with the outline `o`, and leaves `tail`. -/
def Makes (c : Cursor) (o : Outline) (tail : Text) : Prop :=
  ∃ next nodes, next.rest = tail ∧ Node.outlines? nodes = some o ∧
    ∀ n : Nesting, n.after c = (n.append nodes).after next

lemma makes_leaf {f : Outline → Outline} {o : Outline} {middle : Text} (hne : c.rest ≠ [])
    (hc : Event.ReadsLeaf c f middle) (ho : ∀ d : Cursor, d.rest = middle → Makes d o tail) :
    Makes c (f o) tail := by
  obtain ⟨node, next, hread, hrest, hnode⟩ := hc
  obtain ⟨last, nodes, hlast, hnodes, hafter⟩ := ho next hrest
  refine ⟨last, node :: nodes, hlast, ?_, fun n => ?_⟩
  · simp [Node.outlines?, hnodes, hnode]
  · rw [after_eq n hne, hread, hafter, append_cons]
    rfl

lemma addReading_closing (n : Nesting) {tag : StartTag} {closer : ClosingTag} (nodes : List Node)
    (d e : Cursor) (h : tag.name.text = closer.name) :
    ((n.addReading ⟨.opening tag, [], d⟩).append nodes).addReading ⟨.closing closer, [], e⟩ =
      n.append
        [.element ⟨⟨tag.span.start, closer.span.stop⟩, tag, none, some closer.span⟩ nodes] := by
  simp [addReading, add, append, closeThrough, Level.element, h]

/-- **Printed nodes** are read as themselves. The induction runs over the row of nodes, and over
the nodes inside an element up to its closing tag. -/
theorem makes_print {o : Outline} (ho : o.WellFormed) (htail : Event.textRun tail = [])
    (hc : c.rest = o.print ++ tail) : Makes c o tail := by
  induction o generalizing c tail with
  | nil => exact ⟨c, [], hc, rfl, fun n => rfl⟩
  | text run rest ih =>
    obtain ⟨⟨hne, hmarkup, hcode⟩, hstart, hrest⟩ := ho
    have h : c.rest = run ++ (rest.print ++ tail) := by simpa [Outline.print] using hc
    have hrun := Outline.textRun_print hrest hstart htail
    exact makes_leaf (by simp [h, hne]) (Event.readsLeaf_text h hne hmarkup hcode hrun)
      fun d hd => ih hrest htail hd
  | expression code rest ih =>
    obtain ⟨hcode, hrest⟩ := ho
    have h : c.rest = '\x7b' :: (code ++ '\x7d' :: (rest.print ++ tail)) := by
      simpa [Outline.print] using hc
    exact makes_leaf (by simp [h]) (Event.readsLeaf_expression h hcode)
      fun d hd => ih hrest htail hd
  | comment data rest ih =>
    obtain ⟨hdata, hrest⟩ := ho
    have h : c.rest = '<' :: '!' :: '-' :: '-' ::
        (data ++ '-' :: '-' :: '>' :: (rest.print ++ tail)) := by
      simpa [Outline.print] using hc
    exact makes_leaf (by simp [h]) (Event.readsLeaf_comment h hdata) fun d hd => ih hrest htail hd
  | element name attributes children rest ihc ihr =>
    obtain ⟨hname, ha, hchildren, hrest⟩ := ho
    rw [Outline.print_element_append] at hc
    obtain ⟨tag, d, hopen, hd, htext, hending, hattributes⟩ := Event.read_opening hname ha hc
    -- the nodes inside end in front of the closing tag, even if they end with text
    obtain ⟨e, nodes, he, hnodes, hinside⟩ := ihc hchildren (Event.textRun_closing hname _) hd
    have hclose := Event.read_closing hname he
    obtain ⟨last, more, hlast, hmore, hbehind⟩ :=
      ihr (c := ⟨e.pos + (name.size + 3), _⟩) hrest htail rfl
    refine ⟨last, .element ⟨⟨tag.span.start, e.pos + (name.size + 3)⟩, tag, none,
      some ⟨e.pos, e.pos + (name.size + 3)⟩⟩ nodes :: more, hlast, ?_, fun n => ?_⟩
    · simp [Node.outlines?, Node.outline?, hmore, hattributes, hending, hnodes, htext]
    · rw [after_eq n (by simp [hc]), hopen, hinside, after_eq _ (by simp [he]), hclose,
        addReading_closing n nodes d _ htext, hbehind, ← append_cons]
  | selfClosing name attributes rest ih =>
    obtain ⟨hname, ha, hrest⟩ := ho
    rw [Outline.print_selfClosing_append] at hc
    exact makes_leaf (by simp [hc]) (Event.readsLeaf_selfClosing hname ha hc)
      fun d hd => ih hrest htail hd

end Nesting

lemma Frontmatter.read_of_not_fence {source : Text} (h : ¬ ['-', '-', '-'] <+: source.trimStart) :
    Frontmatter.read source = ⟨none, [], Cursor.ofText source⟩ := by
  have hrest : ((Cursor.ofText source).skipWhile isBlank).rest = source.trimStart :=
    Cursor.rest_skipWhile ..
  simp only [Frontmatter.read, hrest]
  split
  · next heq =>
    rw [heq] at h
    exact absurd ⟨_, rfl⟩ h
  · rfl

lemma Frontmatter.read_of_tag (s : Text) :
    Frontmatter.read ('<' :: s) = ⟨none, [], Cursor.ofText ('<' :: s)⟩ := by
  refine read_of_not_fence ?_
  rw [Text.trimStart, List.dropWhile_cons_of_neg (by decide)]
  simp

/-- **Printed markup is read back.** Nothing is reported, there is no script, and the nodes are
those that were printed, unless there is more of it than offsets can count. -/
theorem parse_print {o : Outline} (ho : o.WellFormed)
    (hfence : ¬ ['-', '-', '-'] <+: o.print.trimStart) :
    (o.print.size ≤ Offset.limit → ∃ p, parse o.print = .ok p ∧ p.diagnostics = [] ∧
        p.document.frontmatter = none ∧ Node.outlines? p.document.nodes = some o) ∧
      (Offset.limit < o.print.size →
        parse o.print = .error ⟨.sourceTooLarge o.print.size, ⟨0, 0⟩⟩) := by
  refine ⟨fun hsize => ?_, fun hsize => if_neg (Nat.not_le.mpr hsize)⟩
  have hmakes : Nesting.Makes (Cursor.ofText o.print) o [] :=
    Nesting.makes_print ho rfl (List.append_nil _).symm
  obtain ⟨next, nodes, hnext, hnodes, hafter⟩ := hmakes
  -- all events of the printed nodes leave the nesting as it was, with the nodes added
  have htree : Nesting.ofEvents (Event.stream (Cursor.ofText o.print)) o.print.size =
      ⟨nodes.reverse, [], []⟩ := by
    have hempty := (hafter .empty).trans (Nesting.after_of_rest_nil _ hnext)
    rw [Nesting.after] at hempty
    simp only [Nesting.ofEvents, hempty]
    simp [Nesting.append, Nesting.empty, Nesting.closeAll]
  refine ⟨_, if_pos hsize, ?_, ?_, ?_⟩
  · simp [Frontmatter.read_of_not_fence hfence, htree]
  · simp [Frontmatter.read_of_not_fence hfence]
  · simp [Frontmatter.read_of_not_fence hfence, htree, hnodes]

/-- Elements of one name inside each other, all kinds of attributes, and closing braces in a
string, a comment and a template literal. -/
def Outline.nested : Outline :=
  .text ['a', ' ', '-', '-', '-', '\n'] <|
  .element ['p', '-', 'x']
    [.quoted ['t', 'o'] ['a', '>', ' ', '\x7b'], .bare ['@', 'i', 'f'],
      .code ['o', 'n'] ['f', '(', '`', '$', '\x7b', 'a', '\x7d', '\x7d', '`', ')'],
      .spread ['a', '1'], .shorthand ['é']]
    (.element ['p', '-', 'x'] [] (.text ['>'] (.comment ['>', '-'] .nil)) .nil) <|
  .expression ['\'', '\x7d', '\'', '/', '*', '\x7d', '*', '/'] <|
  .selfClosing ['p', '-', 'x'] [.bare ['i', 'd']] .nil

lemma Outline.nested_wellFormed : nested.WellFormed := by
  have hname : IsTagName ['p', '-', 'x'] := by decide +kernel
  have hcall : Code.Balanced .code ['f', '(', '`', '$', '\x7b', 'a', '\x7d', '\x7d', '`', ')'] := by
    refine .plain rfl (.brackets (s := ['`', '$', '\x7b', 'a', '\x7d', '\x7d', '`']) (t := [])
      (by decide) (.template (s := ['$', '\x7b', 'a', '\x7d', '\x7d']) (t := []) ?_ .nil) .nil)
    refine .interpolation (s := ['a']) (t := ['\x7d']) (.plain rfl .nil) ?_
    exact .char (by decide) (by decide) (by decide) .nil
  have hcode : Code.Balanced .code ['\'', '\x7d', '\'', '/', '*', '\x7d', '*', '/'] := by
    refine .string (s := ['\x7d']) (t := ['/', '*', '\x7d', '*', '/']) (.inr rfl)
      (.char (by decide) (by decide) (by decide) .nil) ?_
    exact .blockComment (s := ['\x7d']) (t := []) (by decide) .nil
  refine ⟨by decide, rfl, ⟨hname, ?_, ⟨hname, nofun, ?_, trivial⟩, hcode, hname, ?_, trivial⟩⟩
  · simp only [List.forall_mem_cons, AttributeOutline.WellFormed]
    exact ⟨⟨by decide, by decide⟩, by decide, ⟨by decide, hcall⟩, by decide +kernel,
      by decide +kernel, nofun⟩
  · exact ⟨by decide, rfl, by decide, trivial⟩
  · simp only [List.forall_mem_cons, AttributeOutline.WellFormed]
    exact ⟨by decide, nofun⟩

/-- Markup that is read back. -/
theorem parse_print_nested :
    ∃ p, parse Outline.nested.print = .ok p ∧ p.diagnostics = [] ∧
      p.document.frontmatter = none ∧ Node.outlines? p.document.nodes = some Outline.nested :=
  (parse_print Outline.nested_wellFormed (by decide +kernel)).1 (by decide +kernel)

end TsxLowering.Markup
