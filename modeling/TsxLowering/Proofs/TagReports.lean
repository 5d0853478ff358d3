import Mathlib.Data.Multiset.Filter
import TsxLowering.Proofs.Faithful.Reports

/-!
Every tag that is missing is reported once.

A start tag that does not end and an element without its end tag each have one report, and
there are no other reports of these kinds. One closing tag may end many elements, of which only
the outermost has its name: each of the others is reported with it, when it is ended.
-/

namespace TsxLowering.Markup

variable {source : Text}

/-! ### Elements and the reports about them -/

def Node.element? : Node → Option Element
  | .element e _ => some e
  | _ => none

/-- The elements of a tree on all levels. -/
def elements (nodes : List Node) : Multiset Element :=
  ((Node.descendants nodes).filterMap Node.element? : List Element)

/-- The start tag of the element does not end. -/
def Element.isCutOff (e : Element) : Bool := e.startTag.ending == .unclosed

/-- The element ought to have an end tag and has none. -/
def Element.lacksEndTag (e : Element) : Bool :=
  e.startTag.ending == .closed && !e.startTag.isVoid && e.endTag.isNone

lemma Element.isCutOff_of_lacksEndTag (e : Element) (h : e.lacksEndTag = true) :
    e.isCutOff = false := by
  simp only [lacksEndTag, Bool.and_eq_true, beq_iff_eq] at h
  simp [isCutOff, h.1.1]

def Diagnostic.isUnclosedStartTag (d : Diagnostic) : Bool :=
  match d.problem with
  | .unclosedStartTag _ => true
  | _ => false

def Diagnostic.isMissingEndTag (d : Diagnostic) : Bool :=
  match d.problem with
  | .unclosedTag _ | .mismatchedClosingTag .. => true
  | _ => false

/-- The report about an element with a tag that is missing. -/
inductive Element.Reported (source : Text) (e : Element) : Diagnostic → Prop
  | cutOff (h : e.isCutOff = true) :
      Reported source e ⟨.unclosedStartTag e.startTag.name.text, e.span⟩
  | unclosed (h : e.lacksEndTag = true) (stop : e.span.stop = source.size) :
      Reported source e ⟨.unclosedTag e.startTag.name.text, e.startTag.span⟩
  | mismatched {found : Text} {span : Span} (h : e.lacksEndTag = true)
      (found_ne : found ≠ e.startTag.name.text) (start : span.start = e.span.stop) :
      Reported source e ⟨.mismatchedClosingTag e.startTag.name.text found, span⟩

/-- Elements with a missing tag and the reports of missing tags correspond to each other, one to
one, and an end tag has the name of its element. -/
structure Parsed.TagsReported (source : Text) (p : Parsed) : Prop where
  startTags : Multiset.Rel (Element.Reported source)
    ((elements p.document.nodes).filter (·.isCutOff))
    ((p.diagnostics : Multiset Diagnostic).filter (·.isUnclosedStartTag))
  endTags : Multiset.Rel (Element.Reported source)
    ((elements p.document.nodes).filter (·.lacksEndTag))
    ((p.diagnostics : Multiset Diagnostic).filter (·.isMissingEndTag))
  names : ∀ e ∈ elements p.document.nodes, e.startTag.isVoid = false →
    e.startTag.isRawText = false → ∀ t, e.endTag = some t →
    closingName? source t = some e.startTag.name.text

/-! ### Both kinds of missing tags at once -/

def Element.isTroubled (e : Element) : Bool := e.isCutOff || e.lacksEndTag

def Diagnostic.isAboutTag (d : Diagnostic) : Bool := d.isUnclosedStartTag || d.isMissingEndTag

/-- The elements of a tree with a missing tag. -/
def troubled (nodes : List Node) : Multiset Element := (elements nodes).filter (·.isTroubled)

def tagReports (ds : List Diagnostic) : Multiset Diagnostic :=
  (ds : Multiset Diagnostic).filter (·.isAboutTag)

lemma elements_of_perm {nodes nodes' : List Node}
    (h : (Node.descendants nodes).Perm (Node.descendants nodes')) :
    elements nodes = elements nodes' :=
  Multiset.coe_eq_coe.mpr (h.filterMap _)

lemma troubled_append (nodes nodes' : List Node) :
    troubled (nodes ++ nodes') = troubled nodes + troubled nodes' := by
  rw [troubled, elements, Node.descendants_append, List.filterMap_append, ← Multiset.coe_add,
    Multiset.filter_add]
  rfl

lemma troubled_element (e : Element) :
    troubled [.element e []] = if e.isTroubled then {e} else 0 := by
  rw [troubled, elements, Node.descendants_element, Node.descendants_nil]
  exact Multiset.filter_singleton ..

lemma tagReports_append (ds ds' : List Diagnostic) :
    tagReports (ds ++ ds') = tagReports ds + tagReports ds' := by
  rw [tagReports, ← Multiset.coe_add, Multiset.filter_add]
  rfl

lemma tagReports_reverse (ds : List Diagnostic) : tagReports ds.reverse = tagReports ds := by
  rw [tagReports, Multiset.coe_reverse, tagReports]

lemma tagReports_openCode {ds : List Diagnostic} (h : ∀ d ∈ ds, d.OpenCode source) :
    tagReports ds = 0 := by
  refine Multiset.filter_eq_nil.mpr fun d hd => ?_
  have := (h d hd).problem
  simp [Diagnostic.isAboutTag, Diagnostic.isUnclosedStartTag, Diagnostic.isMissingEndTag, this]

/-! ### The reports of an event -/

lemma StartTag.unclosedReport_eq_nil (t : StartTag) (h : t.ending ≠ .unclosed) :
    t.unclosedReport = [] := by
  unfold unclosedReport
  split
  · contradiction
  · rfl

lemma StartTag.Becomes.leaf_reported {tag : StartTag} {n : Node} {ds : List Diagnostic}
    (h : tag.Becomes source (.leaf n) ds) :
    Multiset.Rel (Element.Reported source) (troubled [n])
      (tagReports (tag.unclosedReport ++ ds)) := by
  cases h with
  | unclosed ending =>
    have hcut : Element.isCutOff ⟨tag.span, tag, none, none⟩ = true := by
      simp [Element.isCutOff, ending]
    have hreport : tag.unclosedReport = [⟨.unclosedStartTag tag.name.text, tag.span⟩] := by
      simp [StartTag.unclosedReport, ending]
    rw [hreport, troubled_element, if_pos (by simp [Element.isTroubled, hcut])]
    exact .cons (.cutOff hcut) .zero
  | childless ending kind =>
    rw [tag.unclosedReport_eq_nil ending, troubled_element, if_neg]
    · exact .zero
    · rcases kind with h | h <;>
        simp [Element.isTroubled, Element.isCutOff, Element.lacksEndTag, h, ending]
  | rawText ending _ =>
    rw [tag.unclosedReport_eq_nil (by simp [ending]), troubled_element, if_neg]
    · exact .zero
    · simp [Element.isTroubled, Element.isCutOff, Element.lacksEndTag, ending]
  | @openRawText span raw ending void stop =>
    have hlacks : Element.lacksEndTag ⟨span, tag, some raw, none⟩ = true := by
      simp [Element.lacksEndTag, ending, void]
    rw [tag.unclosedReport_eq_nil (by simp [ending]), troubled_element,
      if_pos (by simp [Element.isTroubled, hlacks])]
    exact .cons (.unclosed hlacks stop) .zero

lemma Event.Sound.leaf_reported {n : Node} {ds : List Diagnostic}
    (h : Event.Sound source (.leaf n) ds) :
    Multiset.Rel (Element.Reported source) (troubled [n]) (tagReports ds) := by
  cases h.comes with
  | text => exact .zero
  | expression _ reports =>
    rw [tagReports_openCode reports]
    exact .zero
  | comment => exact .zero
  | openComment => exact .zero
  | doctype => exact .zero
  | startTag _ reports becomes =>
    rw [List.append_assoc, tagReports_append, tagReports_openCode reports, Multiset.zero_add]
    exact becomes.leaf_reported

lemma Event.Sound.opening_quiet {tag : StartTag} {ds : List Diagnostic}
    (h : Event.Sound source (.opening tag) ds) : tagReports ds = 0 := by
  have holds := h.holdsNodes
  cases h.comes with
  | startTag _ reports becomes =>
    cases becomes with
    | opening =>
      rw [List.append_nil, tag.unclosedReport_eq_nil (by simp [holds.1]), List.append_nil,
        tagReports_openCode reports]

/-! ### The reports of a tree -/

/-- The element that an open element becomes when it ends. -/
def Level.ended (l : Level) (endTag : Option Span) (stop : Nat) : Element :=
  ⟨⟨l.tag.span.start, stop⟩, l.tag, none, endTag⟩

lemma elements_placed_end (level : Level) (levels : List Level) (nodes : List Node)
    (endTag : Option Span) (stop : Nat) (ds ds' : List Diagnostic) :
    elements (Nesting.placed ⟨level.element nodes endTag stop :: level.siblings, levels, ds⟩) =
      level.ended endTag stop ::ₘ elements (Nesting.placed ⟨nodes, level :: levels, ds'⟩) :=
  Multiset.coe_eq_coe.mpr ((Nesting.descendants_placed_end ..).filterMap Node.element?)

lemma troubled_placed_closed {level : Level} (holds : level.tag.HoldsNodes) (levels : List Level)
    (nodes : List Node) (endTag : Span) (stop : Nat) (ds ds' : List Diagnostic) :
    troubled (Nesting.placed
      ⟨level.element nodes (some endTag) stop :: level.siblings, levels, ds⟩) =
      troubled (Nesting.placed ⟨nodes, level :: levels, ds'⟩) := by
  rw [troubled, elements_placed_end _ _ _ _ _ _ ds', Multiset.filter_cons_of_neg]
  · rfl
  · simp [Level.ended, Element.isTroubled, Element.isCutOff, Element.lacksEndTag, holds.1]

lemma lacksEndTag_ended {level : Level} (holds : level.tag.HoldsNodes) (stop : Nat) :
    (level.ended none stop).lacksEndTag = true := by
  simp [Level.ended, Element.lacksEndTag, holds.1, holds.2.1]

lemma troubled_placed_open {level : Level} (holds : level.tag.HoldsNodes) (levels : List Level)
    (nodes : List Node) (stop : Nat) (ds ds' : List Diagnostic) :
    troubled (Nesting.placed ⟨level.element nodes none stop :: level.siblings, levels, ds⟩) =
      level.ended none stop ::ₘ troubled (Nesting.placed ⟨nodes, level :: levels, ds'⟩) := by
  rw [troubled, elements_placed_end _ _ _ _ _ _ ds', Multiset.filter_cons_of_pos]
  · rfl
  · simp [Element.isTroubled, lacksEndTag_ended holds]

/-- **At every moment of the construction** the elements that have ended and lack a tag are the
ones reported. An element that is still open is neither. -/
theorem Nesting.Built.troubled_reported {n : Nesting}
    (h : n.Built (Event.Sound source) source.size) :
    Multiset.Rel (Element.Reported source) (troubled n.placed) (tagReports n.diagnostics) := by
  induction h with
  | empty => exact .zero
  | @leaf n node ds _ event ih =>
    rw [tagReports_append, tagReports_reverse]
    have hplaced : troubled (node :: n.placed) = troubled [node] + troubled n.placed :=
      troubled_append [node] n.placed
    exact (hplaced ▸ event.leaf_reported.add ih :)
  | opening _ event ih =>
    rw [tagReports_append, tagReports_reverse, event.opening_quiet, Multiset.zero_add]
    exact ih
  | stray _ _ ih => exact ih
  | @closed nodes level levels ds tag h _ _ ih =>
    -- an element that ends with its end tag was neither before and is neither now
    obtain ⟨_, hopen⟩ := h.level_opened
    rw [troubled_placed_closed hopen.holdsNodes _ _ _ _ _ ds]
    exact ih
  | @mismatched nodes level levels ds tag h _ name ih =>
    obtain ⟨_, hopen⟩ := h.level_opened
    have hlacks := lacksEndTag_ended hopen.holdsNodes tag.span.start
    rw [troubled_placed_open hopen.holdsNodes _ _ _ _ ds]
    exact .cons (.mismatched hlacks (Ne.symm name) rfl) ih
  | @unclosed nodes level levels ds h ih =>
    obtain ⟨_, hopen⟩ := h.level_opened
    have hlacks := lacksEndTag_ended hopen.holdsNodes source.size
    rw [troubled_placed_open hopen.holdsNodes _ _ _ _ ds]
    exact .cons (.unclosed hlacks rfl) ih

/-! ### The reports of a source -/

lemma Frontmatter.tagReports_read (source : Text) :
    tagReports (Frontmatter.read source).diagnostics = 0 := by
  unfold read
  dsimp only
  split
  · split
    · split <;> rfl
    · rfl
  · rfl

lemma parse_troubled_reported {p : Parsed} (h : parse source = .ok p) :
    Multiset.Rel (Element.Reported source) (troubled p.document.nodes)
      (tagReports p.diagnostics) := by
  obtain ⟨n, hlevels, hbuilt, hnodes, hds⟩ := parse_built_sound h
  have hplaced : elements p.document.nodes = elements n.placed := by
    rw [hnodes, Nesting.placed_of_levels_nil hlevels]
    exact elements_of_perm (Node.descendants_reverse_perm _)
  rw [troubled, hplaced, hds, tagReports_append, tagReports_reverse, Frontmatter.tagReports_read,
    Multiset.zero_add]
  exact hbuilt.troubled_reported

lemma rel_filter {α β : Type} {R : α → β → Prop} {s : Multiset α} {t : Multiset β}
    {p : α → Bool} {q : β → Bool} (h : Multiset.Rel R s t) (hR : ∀ a b, R a b → p a = q b) :
    Multiset.Rel R (s.filter (p ·)) (t.filter (q ·)) := by
  induction h with
  | zero => exact .zero
  | @cons a b _ _ hab _ ih =>
    have hpq := hR a b hab
    cases hb : q b with
    | true =>
      rw [Multiset.filter_cons_of_pos _ (by simp [hpq, hb]),
        Multiset.filter_cons_of_pos _ (by simp [hb])]
      exact .cons hab ih
    | false =>
      rw [Multiset.filter_cons_of_neg _ (by simp [hpq, hb]),
        Multiset.filter_cons_of_neg _ (by simp [hb])]
      exact ih

lemma filter_filter_of_imp {α : Type} {s : Multiset α} {p q : α → Bool}
    (h : ∀ a, q a = true → p a = true) :
    (s.filter (p ·)).filter (q ·) = s.filter (q ·) := by
  rw [Multiset.filter_filter]
  exact Multiset.filter_congr fun a _ => and_iff_left_of_imp (h a)

lemma Element.Reported.isCutOff_eq {e : Element} {d : Diagnostic} (h : e.Reported source d) :
    e.isCutOff = d.isUnclosedStartTag := by
  cases h with
  | cutOff h => exact h
  | unclosed h => exact e.isCutOff_of_lacksEndTag h
  | mismatched h => exact e.isCutOff_of_lacksEndTag h

lemma Element.Reported.lacksEndTag_eq {e : Element} {d : Diagnostic} (h : e.Reported source d) :
    e.lacksEndTag = d.isMissingEndTag := by
  cases h with
  | cutOff h =>
    cases hlacks : e.lacksEndTag with
    | true => exact absurd (e.isCutOff_of_lacksEndTag hlacks) (by simp [h])
    | false => rfl
  | unclosed h => exact h
  | mismatched h => exact h

/-- An end tag has the name of its element. -/
def Node.EndTagNamed (source : Text) (n : Node) : Prop :=
  ∀ e, n.element? = some e → e.startTag.isVoid = false → e.startTag.isRawText = false →
    ∀ t, e.endTag = some t → closingName? source t = some e.startTag.name.text

lemma Node.Leaf.endTagNamed {n : Node} (h : n.Leaf source) : n.EndTagNamed source := by
  rintro e he void raw t ht
  cases h with
  | unclosed _ _ _ endTag => cases he; cases endTag.symm.trans ht
  | childless _ _ _ _ _ isVoid => cases he; cases void.symm.trans (isVoid (by rw [ht]; rfl))
  | rawText _ _ _ kind => cases he; cases raw.symm.trans kind
  | _ => cases he

lemma yields_endTagNamed : Nesting.Yields (Event.Sound source) (Node.EndTagNamed source) where
  leaf := by
    intro node ds event
    rw [event.descendants_leaf]
    obtain ⟨⟨hleaf⟩, -, -⟩ := event
    exact List.forall_mem_singleton.mpr hleaf.endTagNamed
  unclosed := by
    rintro level nodes stop ds _ e ⟨⟩ _ _ t ⟨⟩
  closed := by
    rintro level nodes ds tag _ event hname e ⟨⟩ _ _ t ⟨⟩
    exact event.closing_name.trans (congrArg some hname.symm)

/-- **Tags that are missing are reported**, each once, with the name of its element and its place;
and no element ends at a closing tag of another name. -/
theorem parse_reports_tags (h : source.size ≤ Offset.limit) :
    ∃ p, parse source = .ok p ∧ p.TagsReported source := by
  obtain ⟨p, hp⟩ := exists_parse_eq_ok h
  have hreported := parse_troubled_reported hp
  refine ⟨p, hp, ?_, ?_, ?_⟩
  · -- one correspondence for both kinds of trouble, each of which picks its part
    have hcut := rel_filter hreported fun _ _ => Element.Reported.isCutOff_eq
    rw [troubled, tagReports,
      filter_filter_of_imp fun _ => by simp +contextual [Element.isTroubled],
      filter_filter_of_imp fun _ => by simp +contextual [Diagnostic.isAboutTag]] at hcut
    exact hcut
  · have hlacks := rel_filter hreported fun _ _ => Element.Reported.lacksEndTag_eq
    rw [troubled, tagReports,
      filter_filter_of_imp fun _ => by simp +contextual [Element.isTroubled],
      filter_filter_of_imp fun _ => by simp +contextual [Diagnostic.isAboutTag]] at hlacks
    exact hlacks
  · intro e he
    obtain ⟨n, hn, hne⟩ := List.mem_filterMap.mp (Multiset.mem_coe.mp he)
    exact parse_forall_descendants yields_endTagNamed hp n hn e hne

/-- One closing tag ends three elements, two of them of one name, another ends none, and the source
ends within a start tag. -/
def missingTags : Text := "<a><b><b><br>x</a></b><a>y<i j".toList

theorem parse_reports_missingTags :
    missingTags.size ≤ Offset.limit ∧
      ∃ p, parse missingTags = .ok p ∧ p.TagsReported missingTags ∧ p.diagnostics =
        [⟨.mismatchedClosingTag ['b'] ['a'], ⟨14, 18⟩⟩,
          ⟨.mismatchedClosingTag ['b'] ['a'], ⟨14, 18⟩⟩, ⟨.strayClosingTag ['b'], ⟨18, 22⟩⟩,
          ⟨.unclosedStartTag ['i'], ⟨26, 30⟩⟩, ⟨.unclosedTag ['a'], ⟨22, 25⟩⟩] := by
  refine ⟨by decide, ?_⟩
  obtain ⟨p, hp, hreported⟩ : ∃ p, parse missingTags = .ok p ∧ p.TagsReported missingTags :=
    parse_reports_tags (by decide)
  have hdiagnostics : (parse missingTags).toOption.map (·.diagnostics) = some
      [⟨.mismatchedClosingTag ['b'] ['a'], ⟨14, 18⟩⟩,
        ⟨.mismatchedClosingTag ['b'] ['a'], ⟨14, 18⟩⟩, ⟨.strayClosingTag ['b'], ⟨18, 22⟩⟩,
        ⟨.unclosedStartTag ['i'], ⟨26, 30⟩⟩, ⟨.unclosedTag ['a'], ⟨22, 25⟩⟩] := by decide +kernel
  rw [hp] at hdiagnostics
  exact ⟨p, hp, hreported, Option.some.inj hdiagnostics⟩

end TsxLowering.Markup
