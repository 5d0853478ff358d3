import TsxLowering.Proofs.Faithful.Tree

/-!
The layers of a document.

A layer is a stretch of the source that is shared out between nodes: the markup as a whole, or
the content of one element. What the nodes of a layer leave over are the stray closing tags
reported on it. Main statement: on every layer the two together tile it, each stray closing tag
is on one layer only, and inside an element its tags, its content and its attributes follow each
other in the same way.
-/

namespace TsxLowering.Markup

variable {source : Text}

/-- Spans one behind the other that cover all between two offsets. -/
def Tiles : Nat → List Span → Nat → Prop
  | a, [], b => a = b
  | a, s :: rest, b => s.start = a ∧ s.start ≤ s.stop ∧ Tiles s.stop rest b

/-- A stretch of the source and the nodes that share it. -/
structure Layer where
  span : Span
  nodes : List Node

/-- All between the tags of an element. -/
def Element.content (e : Element) : Span := ⟨e.startTag.span.stop, e.contentEnd⟩

instance (t : StartTag) : Decidable t.HoldsNodes := inferInstanceAs (Decidable (_ ∧ _ ∧ _))

/-- The layer inside of an element. -/
def Node.layer? : Node → Option Layer
  | .element e children => if e.startTag.HoldsNodes then some ⟨e.content, children⟩ else none
  | _ => none

/-- The layers inside the nodes of a tree, on all levels. -/
def innerLayers (nodes : List Node) : List Layer :=
  (Node.descendants nodes).filterMap Node.layer?

def Document.layers (d : Document) : List Layer := ⟨d.bodySpan, d.nodes⟩ :: innerLayers d.nodes

/-- No part of the span lies in one of the nodes. -/
def outside (nodes : List Node) (s : Span) : Bool :=
  nodes.all fun n => s.stop ≤ n.span.start || n.span.stop ≤ s.start

namespace Layer

/-- The span lies in the layer, and not in one of its nodes. -/
def owns (l : Layer) (s : Span) : Bool :=
  l.span.start ≤ s.start && s.stop ≤ l.span.stop && outside l.nodes s

/-- The nodes of the layer and the stray closing tags on it, taken together in order, are none
of them empty and tile it. -/
def Tiled (spans : List Span) (l : Layer) : Prop :=
  ∃ parts, Tiles l.span.start parts l.span.stop ∧ (∀ s ∈ parts, s.start < s.stop) ∧
    parts.Perm (l.nodes.map Node.span ++ spans.filter l.owns) ∧
    (l.nodes.map Node.span).Sublist parts ∧ (spans.filter l.owns).Sublist parts

end Layer

lemma innerLayers_leaf {n : Node} (h : n.Leaf source) (nodes : List Node) :
    innerLayers (n :: nodes) = innerLayers nodes := by
  have hnone : n.layer? = none := by
    cases h with
    | unclosed _ ending => simp [Node.layer?, StartTag.HoldsNodes, ending]
    | childless _ _ kind =>
      rcases kind with h | h <;> simp [Node.layer?, StartTag.HoldsNodes, h]
    | rawText _ _ _ kind => simp [Node.layer?, StartTag.HoldsNodes, kind]
    | _ => rfl
  rw [innerLayers, Node.descendants_leaf h, List.filterMap_cons_none hnone, innerLayers]

lemma innerLayers_element {e : Element} (holds : e.startTag.HoldsNodes)
    (children nodes : List Node) :
    innerLayers (.element e children :: nodes) =
      ⟨e.content, children⟩ :: (innerLayers children ++ innerLayers nodes) := by
  rw [innerLayers, Node.descendants_element, List.filterMap_cons_some
    (show Node.layer? _ = some ⟨e.content, children⟩ by simp [Node.layer?, holds]),
    List.filterMap_append]
  rfl

/-! ### Stray closing tags on a layer -/

variable {a b : Nat} {nodes : List Node} {spans : List Span}

lemma outside_cons (n : Node) (nodes : List Node) (s : Span) :
    outside (n :: nodes) s =
      ((s.stop ≤ n.span.start || n.span.stop ≤ s.start) && outside nodes s) := rfl

lemma outside_cons_of_le {n : Node} {s : Span} (nodes : List Node) (h : n.span.stop ≤ s.start) :
    outside (n :: nodes) s = outside nodes s := by
  simp [outside_cons, h]

lemma outside_element_eq_false {e : Element} {s : Span} (children nodes : List Node)
    (hstart : e.span.start < s.stop) (hstop : s.start < e.span.stop) :
    outside (.element e children :: nodes) s = false := by
  have hstart' : ¬s.stop ≤ (Node.element e children).span.start := Nat.not_le.mpr hstart
  have hstop' : ¬(Node.element e children).span.stop ≤ s.start := Nat.not_le.mpr hstop
  simp [outside_cons, hstart', hstop']

lemma Tiling.outside_of_disjoint {s : Span} (h : Tiling source a nodes spans b)
    (hs : s.stop ≤ a ∨ b ≤ s.start) : outside nodes s = true := by
  refine List.all_eq_true.mpr fun n hn => ?_
  have := h.node_bounds n hn
  simp only [Bool.or_eq_true, decide_eq_true_eq]
  omega

lemma Tiling.exists_parts (h : Tiling source a nodes spans b) :
    ∃ parts, Tiles a parts b ∧ (∀ s ∈ parts, s.start < s.stop) ∧
      parts.Perm (nodes.map Node.span ++ spans.filter (outside nodes)) ∧
      (nodes.map Node.span).Sublist parts ∧ (spans.filter (outside nodes)).Sublist parts := by
  induction h with
  | nil a => exact ⟨[], rfl, by simp, .nil, .slnil, .slnil⟩
  | @stray s nodes spans b fits lt rest ih =>
    obtain ⟨parts, htiles, hlt, hperm, hnodes, hstrays⟩ := ih
    have hout := rest.outside_of_disjoint (.inl (Nat.le_refl _))
    rw [List.filter_cons_of_pos hout]
    refine ⟨s :: parts, ⟨rfl, Nat.le_of_lt lt, htiles⟩, ?_, ?_, hnodes.cons _, hstrays.cons_cons _⟩
    · exact List.forall_mem_cons.mpr ⟨lt, hlt⟩
    · exact (hperm.cons s).trans List.perm_middle.symm
  | @leaf n nodes spans b hn lt rest ih =>
    obtain ⟨parts, htiles, hlt, hperm, hnodes, hstrays⟩ := ih
    have hfilter : spans.filter (outside (n :: nodes)) = spans.filter (outside nodes) :=
      List.filter_congr fun s hs => outside_cons_of_le nodes (rest.span_bounds s hs).1
    rw [hfilter]
    refine ⟨n.span :: parts, ⟨rfl, Nat.le_of_lt lt, htiles⟩, ?_, hperm.cons _, hnodes.cons_cons _,
      hstrays.cons _⟩
    exact List.forall_mem_cons.mpr ⟨lt, hlt⟩
  | @element e children nodes inner spans b he holds raw content rest _ ih =>
    obtain ⟨parts, htiles, hlt, hperm, hnodes, hstrays⟩ := ih
    have hbounds : e.span.start < e.startTag.span.stop ∧ e.contentEnd ≤ e.span.stop :=
      ⟨he.start_lt, he.contentEnd_le⟩
    have hle := content.le
    -- what is stray inside of the element is not outside of it
    have hinner : inner.filter (outside (.element e children :: nodes)) = [] := by
      refine List.filter_eq_nil_iff.mpr fun s hs => ?_
      have := content.span_bounds s hs
      have hstop : e.span.start < s.stop := by omega
      simp [outside_element_eq_false children nodes hstop (by omega)]
    have hfilter : spans.filter (outside (.element e children :: nodes)) =
        spans.filter (outside nodes) :=
      List.filter_congr fun s hs => outside_cons_of_le nodes (rest.span_bounds s hs).1
    rw [List.filter_append, hinner, hfilter, List.nil_append]
    have hlt' : e.span.start < e.span.stop := by omega
    refine ⟨e.span :: parts, ⟨rfl, Nat.le_of_lt hlt', htiles⟩, ?_, hperm.cons _, hnodes.cons_cons _,
      hstrays.cons _⟩
    exact List.forall_mem_cons.mpr ⟨hlt', hlt⟩

lemma Tiling.innerLayers_local (h : Tiling source a nodes spans b) :
    ∀ l ∈ innerLayers nodes, a ≤ l.span.start ∧ l.span.stop ≤ b ∧
      ∃ before own after, spans = before ++ own ++ after ∧
        Tiling source l.span.start l.nodes own l.span.stop ∧
        (∀ s ∈ before, s.stop ≤ l.span.start) ∧ ∀ s ∈ after, l.span.stop ≤ s.start := by
  induction h with
  | nil => simp [innerLayers]
  | @stray s nodes spans b fits lt rest ih =>
    intro l hl
    obtain ⟨hstart, hstop, before, own, after, rfl, hown, hbefore, hafter⟩ := ih l hl
    refine ⟨by omega, hstop, s :: before, own, after, by simp, hown, ?_, hafter⟩
    exact List.forall_mem_cons.mpr ⟨hstart, hbefore⟩
  | @leaf n nodes spans b hn lt rest ih =>
    intro l hl
    rw [innerLayers_leaf hn] at hl
    obtain ⟨hstart, hstop, hlocal⟩ := ih l hl
    exact ⟨by omega, hstop, hlocal⟩
  | @element e children nodes inner spans b he holds raw content rest ihcontent ihrest =>
    have hlt := he.start_lt
    have hend := he.contentEnd_le
    have hle := content.le
    have hrest := rest.le
    have hspans := rest.span_bounds
    have hinner := content.span_bounds
    intro l hl
    rw [innerLayers_element holds] at hl
    -- the layer of this element, one inside of it, or one behind it
    rcases List.mem_cons.mp hl with rfl | hl
    · refine ⟨Nat.le_of_lt hlt, by show e.contentEnd ≤ b; omega, [], inner, spans, rfl, content,
        by simp, fun s hs => ?_⟩
      exact Nat.le_trans hend (hspans s hs).1
    rcases List.mem_append.mp hl with hl | hl
    · obtain ⟨hstart, hstop, before, own, after, rfl, hown, hbefore, hafter⟩ := ihcontent l hl
      refine ⟨by omega, by omega, before, own, after ++ spans, by simp, hown, hbefore, ?_⟩
      intro s hs
      rcases List.mem_append.mp hs with hs | hs
      · exact hafter s hs
      · have := (hspans s hs).1
        omega
    · obtain ⟨hstart, hstop, before, own, after, rfl, hown, hbefore, hafter⟩ := ihrest l hl
      refine ⟨by omega, hstop, inner ++ before, own, after, by simp, hown, ?_, hafter⟩
      intro s hs
      rcases List.mem_append.mp hs with hs | hs
      · have := (hinner s hs).2.2
        omega
      · exact hbefore s hs

lemma Layer.owns_eq_true_iff {l : Layer} {s : Span} :
    l.owns s = true ↔ l.span.start ≤ s.start ∧ s.stop ≤ l.span.stop ∧ outside l.nodes s = true := by
  simp [Layer.owns, and_assoc]

/-- Of all stray closing tags, a layer owns those among its own that its nodes leave over. -/
lemma Layer.filter_owns {l : Layer} {before own after : List Span}
    (h : Tiling source l.span.start l.nodes own l.span.stop)
    (hlt : ∀ s ∈ before ++ own ++ after, s.start < s.stop)
    (hbefore : ∀ s ∈ before, s.stop ≤ l.span.start)
    (hafter : ∀ s ∈ after, l.span.stop ≤ s.start) :
    (before ++ own ++ after).filter l.owns = own.filter (outside l.nodes) := by
  have hnil (spans : List Span) (hspans : ∀ s ∈ spans, l.owns s = false) :
      spans.filter l.owns = [] :=
    List.filter_eq_nil_iff.mpr fun s hs => by simp [hspans s hs]
  have hown : own.filter l.owns = own.filter (outside l.nodes) := by
    refine List.filter_congr fun s hs => ?_
    obtain ⟨hstart, -, hstop⟩ := h.span_bounds s hs
    simp [Layer.owns, hstart, hstop]
  -- no span is empty, so those before and behind the layer are not in it
  rw [List.filter_append, List.filter_append, hown, hnil before, hnil after, List.append_nil,
    List.nil_append]
  · intro s hs
    have := hlt s (by simp [hs])
    have := hafter s hs
    rw [Bool.eq_false_iff, Ne, Layer.owns_eq_true_iff]
    omega
  · intro s hs
    have := hlt s (by simp [hs])
    have := hbefore s hs
    rw [Bool.eq_false_iff, Ne, Layer.owns_eq_true_iff]
    omega

/-! ### Every stray closing tag is on one layer -/

lemma Tiling.countP_owns_eq_zero {s : Span} (h : Tiling source a nodes spans b)
    (hlt : s.start < s.stop) (hs : s.stop ≤ a ∨ b ≤ s.start) :
    (innerLayers nodes).countP (·.owns s) = 0 := by
  refine List.countP_eq_zero.mpr fun l hl => ?_
  obtain ⟨hstart, hstop, -⟩ := h.innerLayers_local l hl
  rw [Layer.owns_eq_true_iff]
  omega

lemma Tiling.countP_owns_eq_one (h : Tiling source a nodes spans b) :
    ∀ s ∈ spans, (Layer.mk ⟨a, b⟩ nodes :: innerLayers nodes).countP (·.owns s) = 1 := by
  -- the layer itself owns what lies outside of its nodes, and counts once for it
  have hself {a b : Nat} {nodes : List Node} {s : Span} (hstart : a ≤ s.start)
      (hstop : s.stop ≤ b) : Layer.owns ⟨⟨a, b⟩, nodes⟩ s = outside nodes s := by
    simp [Layer.owns, hstart, hstop]
  induction h with
  | nil => simp
  | @stray t nodes spans b fits lt rest ih =>
    intro s hs
    rcases List.mem_cons.mp hs with rfl | hs
    · have hout := rest.outside_of_disjoint (.inl (Nat.le_refl _))
      rw [List.countP_cons_of_pos, rest.countP_owns_eq_zero lt (.inl (Nat.le_refl _))]
      rw [hself (Nat.le_refl _) rest.le, hout]
    · obtain ⟨hstart, hlt, hstop⟩ := rest.span_bounds s hs
      have := ih s hs
      rw [List.countP_cons, hself hstart hstop] at this
      rw [List.countP_cons, hself (by omega) hstop, this]
  | @leaf n nodes spans b hn lt rest ih =>
    intro s hs
    obtain ⟨hstart, hlt, hstop⟩ := rest.span_bounds s hs
    have := ih s hs
    rw [List.countP_cons, hself hstart hstop] at this
    rw [innerLayers_leaf hn, List.countP_cons, hself (by omega) hstop,
      outside_cons_of_le nodes hstart, this]
  | @element e children nodes inner spans b he holds raw content rest ihcontent ihrest =>
    have := he.start_lt
    have := he.contentEnd_le
    have := content.le
    have := rest.le
    intro s hs
    rw [innerLayers_element holds, List.countP_cons, ← List.cons_append, List.countP_append]
    rcases List.mem_append.mp hs with hs | hs
    · obtain ⟨hstart, hlt, hstop⟩ := content.span_bounds s hs
      rw [hself (by omega) (by omega),
        outside_element_eq_false children nodes (by omega) (by omega),
        rest.countP_owns_eq_zero hlt (.inl (by omega))]
      exact ihcontent s hs
    · obtain ⟨hstart, hlt, hstop⟩ := rest.span_bounds s hs
      have hcontent :
          (Layer.mk e.content children :: innerLayers children).countP (·.owns s) = 0 := by
        rw [List.countP_cons_of_neg, content.countP_owns_eq_zero hlt (.inr (by omega))]
        rw [Layer.owns_eq_true_iff]
        show ¬(e.startTag.span.stop ≤ s.start ∧ s.stop ≤ e.contentEnd ∧ _)
        omega
      have := ihrest s hs
      rw [List.countP_cons, hself hstart hstop] at this
      rw [hself (by omega) hstop, hcontent, Nat.zero_add,
        outside_cons_of_le (n := .element e children) nodes hstart, this]

/-! ### The parts of an element -/

/-- The part of an element between its tags, if it may have one. -/
def Element.content? (e : Element) : Option Span :=
  match e.rawText with
  | some raw => some raw
  | none => if e.startTag.HoldsNodes then some e.content else none

/-- The start tag, the content and the end tag, as far as an element has them. -/
def Element.parts (e : Element) : List Span :=
  e.startTag.span :: (e.content?.toList ++ e.endTag.toList)

lemma Element.Faithful.tiles_endTag {e : Element} (h : e.Faithful source) :
    Tiles e.contentEnd e.endTag.toList e.span.stop := by
  cases ht : e.endTag with
  | none => simp [Element.contentEnd, ht, Tiles]
  | some t =>
    obtain ⟨hfits, hstop⟩ := h.endTag t ht
    simp only [Element.contentEnd, ht, Option.elim, Option.toList]
    exact ⟨rfl, hfits.start_le, hstop⟩

lemma Node.Placed.tiles_parts {e : Element} {children : List Node}
    (h : (Node.element e children).Placed source) :
    Tiles e.span.start e.parts e.span.stop := by
  have htag (he : e.Faithful source) {spans : List Span}
      (htiles : Tiles e.startTag.span.stop spans e.span.stop) :
      Tiles e.span.start (e.startTag.span :: spans) e.span.stop :=
    ⟨he.start_eq.symm, he.startTag.fits.start_le, htiles⟩
  rcases h with h | @⟨_, _, _, he, holds, raw, content⟩
  · cases h with
    | unclosed he ending raw endTag span =>
      have hnone : e.content? = none := by simp [Element.content?, raw, StartTag.HoldsNodes, ending]
      rw [Element.parts, hnone, endTag]
      exact htag he (by simp [Tiles, span])
    | childless he ending kind raw contentEnd _ =>
      have hnone : e.content? = none := by
        rcases kind with h | h <;> simp [Element.content?, raw, StartTag.HoldsNodes, h]
      rw [Element.parts, hnone]
      exact htag he (contentEnd ▸ he.tiles_endTag)
    | @rawText _ r he _ _ _ raw fits start_eq contentEnd =>
      have hsome : e.content? = some r := by simp [Element.content?, raw]
      rw [Element.parts, hsome]
      exact htag he ⟨start_eq, fits.start_le, contentEnd ▸ he.tiles_endTag⟩
  · have hsome : e.content? = some e.content := by simp [Element.content?, raw, holds]
    rw [Element.parts, hsome]
    exact htag he ⟨rfl, content.le, he.tiles_endTag⟩

lemma Attribute.InOrder.pairwise {start stop : Nat} {attributes : List Attribute}
    (h : InOrder source start attributes stop) :
    attributes.Pairwise fun a b => a.span.stop ≤ b.span.start := by
  induction attributes generalizing start with
  | nil => exact .nil
  | cons b rest ih =>
    obtain ⟨-, -, hrest⟩ := h
    exact .cons (fun a ha => (hrest.bounds a ha).2.1) (ih hrest)

/-! ### The whole document -/

/-- All parts of a document follow each other without gap or overlap. -/
structure Parsed.Tiled (source : Text) (p : Parsed) : Prop where
  /-- The outermost layer reaches to the end of the source. -/
  body_stop : p.document.bodySpan.stop = source.size
  layers : ∀ l ∈ p.document.layers, l.Tiled (strays p.diagnostics)
  oneLayer : ∀ s ∈ strays p.diagnostics, p.document.layers.countP (·.owns s) = 1
  parts : ∀ e children, Node.element e children ∈ Node.descendants p.document.nodes →
    Tiles e.span.start e.parts e.span.stop
  attributes : ∀ e children, Node.element e children ∈ Node.descendants p.document.nodes →
    (∀ a ∈ e.startTag.attributes, a.span.start < a.span.stop ∧
      e.startTag.name.span.stop ≤ a.span.start ∧ a.span.stop ≤ e.startTag.span.stop) ∧
    e.startTag.attributes.Pairwise fun a b => a.span.stop ≤ b.span.start

/-- **The tree tiles the source**, whatever is malformed in it. -/
theorem parse_tiled (h : source.size ≤ Offset.limit) :
    ∃ p, parse source = .ok p ∧ p.Tiled source := by
  obtain ⟨p, hp⟩ := exists_parse_eq_ok h
  obtain ⟨-, -, hstop, hbody⟩ := parse_faithful hp
  have hlt : ∀ s ∈ strays p.diagnostics, s.start < s.stop :=
    fun s hs => (hbody.span_bounds s hs).2.1
  refine ⟨p, hp, hstop, fun l hl => ?_, hbody.countP_owns_eq_one, fun e children he => ?_,
    fun e children he => ?_⟩
  · obtain ⟨before, own, after, hspans, hown, hbefore, hafter⟩ :
        ∃ before own after, strays p.diagnostics = before ++ own ++ after ∧
          Tiling source l.span.start l.nodes own l.span.stop ∧
          (∀ s ∈ before, s.stop ≤ l.span.start) ∧ ∀ s ∈ after, l.span.stop ≤ s.start := by
      -- the outermost layer owns all of the tiling, each other one a part
      rcases List.mem_cons.mp hl with rfl | hl
      · exact ⟨[], _, [], by simp, hbody, by simp, by simp⟩
      · exact (hbody.innerLayers_local l hl).2.2
    rw [hspans] at hlt
    rw [Layer.Tiled, hspans, Layer.filter_owns hown hlt hbefore hafter]
    exact hown.exists_parts
  · exact (hbody.placed _ he).tiles_parts
  · have htag := (hbody.placed _ he).startTag
    exact ⟨htag.tail.inOrder.bounds, htag.tail.inOrder.pairwise⟩

/-- A closing tag that is stray inside of one element and outside of all. -/
theorem parse_tiled_stray :
    Text.size "<a b>x</c></a></a>y".toList ≤ Offset.limit ∧
      ∃ p, parse "<a b>x</c></a></a>y".toList = .ok p ∧ p.Tiled "<a b>x</c></a></a>y".toList :=
  ⟨by decide, parse_tiled (by decide)⟩

end TsxLowering.Markup
