import TsxLowering.Markup.Document
import TsxLowering.Proofs.Faithful.Event

/-!
The tree of a source fills it.

On every level of the tree the nodes and the stray closing tags follow each other without gap
or overlap. While the tree is built this holds of each open level as far as the source has been
read; a step of the construction moves that place to the end of one more event, and the end of
the source closes all levels.
-/

namespace TsxLowering.Markup

variable {source : Text}

/-- Nodes and stray closing tags that fill the source from one offset to another. The spans are
those of the stray closing tags on all levels, in the order of the source. -/
inductive Tiling (source : Text) : Nat → List Node → List Span → Nat → Prop
  | nil (a : Nat) : Tiling source a [] [] a
  | stray {s : Span} {nodes : List Node} {spans : List Span} {b : Nat} (fits : s.Fits source)
      (lt : s.start < s.stop) (rest : Tiling source s.stop nodes spans b) :
      Tiling source s.start nodes (s :: spans) b
  | leaf {n : Node} {nodes : List Node} {spans : List Span} {b : Nat} (h : n.Leaf source)
      (lt : n.span.start < n.span.stop) (rest : Tiling source n.span.stop nodes spans b) :
      Tiling source n.span.start (n :: nodes) spans b
  | element {e : Element} {children nodes : List Node} {inner spans : List Span} {b : Nat}
      (h : e.Faithful source) (holds : e.startTag.HoldsNodes) (rawText : e.rawText = none)
      (content : Tiling source e.startTag.span.stop children inner e.contentEnd)
      (rest : Tiling source e.span.stop nodes spans b) :
      Tiling source e.span.start (.element e children :: nodes) (inner ++ spans) b

namespace Tiling

variable {a b c : Nat} {nodes nodes' : List Node} {spans spans' : List Span}

lemma append (h : Tiling source a nodes spans b) (h' : Tiling source b nodes' spans' c) :
    Tiling source a (nodes ++ nodes') (spans ++ spans') c := by
  induction h with
  | nil => exact h'
  | stray fits lt _ ih => exact .stray fits lt (ih h')
  | leaf hn lt _ ih => exact .leaf hn lt (ih h')
  | element he holds raw content _ _ ih =>
    rw [List.append_assoc]
    exact .element he holds raw content (ih h')

lemma le (h : Tiling source a nodes spans b) : a ≤ b := by
  induction h with
  | nil => exact Nat.le_refl _
  | stray fits lt _ ih => omega
  | leaf hn lt _ ih => omega
  | element he _ _ _ _ _ ih => exact Nat.le_trans he.fits.start_le ih

lemma span_bounds (h : Tiling source a nodes spans b) :
    ∀ s ∈ spans, a ≤ s.start ∧ s.start < s.stop ∧ s.stop ≤ b := by
  induction h with
  | nil => simp
  | stray fits lt rest ih =>
    intro s hs
    rcases List.mem_cons.mp hs with rfl | hs
    · exact ⟨Nat.le_refl _, lt, rest.le⟩
    · have := ih s hs
      omega
  | leaf hn lt _ ih =>
    intro s hs
    have := ih s hs
    omega
  | element he _ _ content rest ihcontent ihrest =>
    have := he.start_lt
    have := he.contentEnd_le
    have := content.le
    have := rest.le
    intro s hs
    rcases List.mem_append.mp hs with hs | hs
    · have := ihcontent s hs
      omega
    · have := ihrest s hs
      omega

lemma node_bounds (h : Tiling source a nodes spans b) :
    ∀ n ∈ nodes, a ≤ n.span.start ∧ n.span.start < n.span.stop ∧ n.span.stop ≤ b := by
  induction h with
  | nil => simp
  | stray fits lt rest ih =>
    intro n hn
    have := ih n hn
    omega
  | leaf hleaf lt rest ih =>
    intro n hn
    rcases List.mem_cons.mp hn with rfl | hn
    · exact ⟨Nat.le_refl _, lt, rest.le⟩
    · have := ih n hn
      omega
  | element he _ _ content rest _ ih =>
    have := he.start_lt
    have := he.contentEnd_le
    have := content.le
    intro n hn
    rcases List.mem_cons.mp hn with rfl | hn
    · refine ⟨Nat.le_refl _, ?_, rest.le⟩
      simp only [Node.span]
      omega
    · have := ih n hn
      omega

lemma boundary (h : Tiling source a nodes spans b) (ha : source.Boundary a) :
    source.Boundary b := by
  induction h with
  | nil => exact ha
  | stray fits _ _ ih => exact ih fits.stop_boundary
  | leaf hn _ _ ih => exact ih hn.fits.stop_boundary
  | element he _ _ _ _ _ ih => exact ih he.fits.stop_boundary

end Tiling

/-! ### The nodes of a tree -/

namespace Node

/-- The nodes of a tree on all levels, in document order. -/
def descendants (nodes : List Node) : List Node := (walkAll 0 nodes).map Prod.snd

mutual

lemma map_snd_walk (depth : Nat) (n : Node) :
    (walk depth n).map Prod.snd = (walk 0 n).map Prod.snd :=
  match n with
  | .element e children => by
    simp only [walk, List.map_cons]
    rw [map_snd_walkAll (depth + 1) children, map_snd_walkAll (0 + 1) children]
  | .text _ | .expression _ | .comment .. | .doctype _ => rfl

lemma map_snd_walkAll (depth : Nat) (nodes : List Node) :
    (walkAll depth nodes).map Prod.snd = (walkAll 0 nodes).map Prod.snd :=
  match nodes with
  | [] => rfl
  | n :: nodes => by
    simp only [walkAll, List.map_append]
    rw [map_snd_walk depth n, map_snd_walkAll depth nodes]

end

@[simp] lemma descendants_nil : descendants [] = [] := rfl

@[simp] lemma descendants_element (e : Element) (children nodes : List Node) :
    descendants (.element e children :: nodes) =
      .element e children :: (descendants children ++ descendants nodes) := by
  simp only [descendants, walkAll, walk, List.map_append, List.map_cons, List.cons_append]
  rw [map_snd_walkAll (0 + 1) children]

lemma descendants_leaf {n : Node} (h : n.Leaf source) (nodes : List Node) :
    descendants (n :: nodes) = n :: descendants nodes := by
  cases h <;> rfl

/-- What is known of a node in a tree that fills the source. -/
inductive Placed (source : Text) : Node → Prop
  | leaf {n : Node} (h : n.Leaf source) : Placed source n
  | element {e : Element} {children : List Node} {inner : List Span} (h : e.Faithful source)
      (holds : e.startTag.HoldsNodes) (rawText : e.rawText = none)
      (content : Tiling source e.startTag.span.stop children inner e.contentEnd) :
      Placed source (.element e children)

lemma Placed.startTag {e : Element} {children : List Node}
    (h : (Node.element e children).Placed source) : e.startTag.Faithful source := by
  rcases h with h | h
  · cases h with
    | unclosed h => exact h.startTag
    | childless h => exact h.startTag
    | rawText h => exact h.startTag
  · exact h.startTag

lemma Placed.span_eq_of_unclosed {e : Element} {children : List Node}
    (h : (Node.element e children).Placed source) (hending : e.startTag.ending = .unclosed) :
    e.span = e.startTag.span := by
  rcases h with h | @⟨_, _, _, _, holds, _, _⟩
  · cases h with
    | unclosed _ _ _ _ span => exact span
    | childless _ ending => exact absurd hending ending
    | rawText _ ending =>
      rw [hending] at ending
      cases ending
  · have hclosed := holds.1
    rw [hending] at hclosed
    cases hclosed

lemma Placed.rawText_fits {e : Element} {children : List Node} {raw : Span}
    (h : (Node.element e children).Placed source) (hraw : e.rawText = some raw) :
    raw.Fits source := by
  rcases h with h | @⟨_, _, _, _, _, rawText, _⟩
  · cases h with
    | unclosed _ _ rawText => simp [rawText] at hraw
    | childless _ _ _ rawText => simp [rawText] at hraw
    | rawText _ _ _ _ rawText fits =>
      rw [rawText] at hraw
      cases hraw
      exact fits
  · simp [rawText] at hraw

end Node

lemma Tiling.placed {a b : Nat} {nodes : List Node} {spans : List Span}
    (h : Tiling source a nodes spans b) : ∀ n ∈ Node.descendants nodes, n.Placed source := by
  induction h with
  | nil => simp
  | stray _ _ _ ih => exact ih
  | leaf hn _ _ ih =>
    rw [Node.descendants_leaf hn]
    rintro m hm
    rcases List.mem_cons.mp hm with rfl | hm
    · exact .leaf hn
    · exact ih m hm
  | element he holds raw content _ ihcontent ihrest =>
    rw [Node.descendants_element]
    intro m hm
    rcases List.mem_cons.mp hm with rfl | hm
    · exact .element he holds raw content
    · rcases List.mem_append.mp hm with hm | hm
      · exact ihcontent m hm
      · exact ihrest m hm

lemma Node.descendants_append (nodes nodes' : List Node) :
    Node.descendants (nodes ++ nodes') = Node.descendants nodes ++ Node.descendants nodes' := by
  induction nodes with
  | nil => rfl
  | cons n nodes ih =>
    simp only [Node.descendants, List.cons_append, Node.walkAll, List.map_append] at ih ⊢
    rw [ih, List.append_assoc]

/-- Where the last of the nodes ends, or else `start`. -/
def Node.endOf (start : Nat) (nodes : List Node) : Nat :=
  (nodes.getLast?.map (·.span.stop)).getD start

lemma Node.endOf_cons (start : Nat) (n : Node) (nodes : List Node) :
    Node.endOf start (n :: nodes) = Node.endOf n.span.stop nodes := by
  cases nodes <;> simp [endOf, List.getLast?_cons]

lemma Tiling.cons_inv {a b : Nat} {n : Node} {nodes all : List Node} {spans : List Span}
    (h : Tiling source a all spans b) (hall : all = n :: nodes) :
    ∃ first rest, spans = first ++ rest ∧ Tiling source a [n] first n.span.stop ∧
      Tiling source n.span.stop nodes rest b := by
  induction h with
  | nil => cases hall
  | stray fits lt _ ih =>
    obtain ⟨first, rest, rfl, hfirst, hrest⟩ := ih hall
    exact ⟨_, rest, rfl, .stray fits lt hfirst, hrest⟩
  | leaf hleaf lt rest =>
    cases hall
    exact ⟨[], _, rfl, .leaf hleaf lt (.nil _), rest⟩
  | element he holds rawText content rest =>
    cases hall
    exact ⟨_, _, by simp, .element he holds rawText content (.nil _), rest⟩

lemma Tiling.append_inv {a b : Nat} {nodes nodes' : List Node} {spans : List Span}
    (h : Tiling source a (nodes ++ nodes') spans b) :
    ∃ before after, spans = before ++ after ∧ Tiling source a nodes before (Node.endOf a nodes) ∧
      Tiling source (Node.endOf a nodes) nodes' after b := by
  induction nodes generalizing a spans with
  | nil => exact ⟨[], spans, rfl, .nil a, h⟩
  | cons n nodes ih =>
    obtain ⟨first, rest, rfl, hfirst, hrest⟩ := h.cons_inv rfl
    obtain ⟨before, after, rfl, hbefore, hafter⟩ := ih hrest
    rw [Node.endOf_cons]
    exact ⟨_, after, (List.append_assoc ..).symm, hfirst.append hbefore, hafter⟩

/-! ### The tree under construction -/

namespace Nesting

/-- Each level is filled up to the tag that opens the next one, and the innermost up to `pos`. -/
inductive Fills (source : Text) (start : Nat) :
    List Level → List Node → List Span → Nat → Prop
  | top {nodes : List Node} {spans : List Span} {pos : Nat}
      (h : Tiling source start nodes.reverse spans pos) : Fills source start [] nodes spans pos
  | inner {level : Level} {levels : List Level} {nodes : List Node} {outer inner : List Span}
      {pos : Nat} (tag : level.tag.Faithful source) (holds : level.tag.HoldsNodes)
      (around : Fills source start levels level.siblings outer level.tag.span.start)
      (h : Tiling source level.tag.span.stop nodes.reverse inner pos) :
      Fills source start (level :: levels) nodes (outer ++ inner) pos

variable {start pos pos' : Nat} {level : Level} {levels : List Level} {nodes nodes' : List Node}
  {spans spans' : List Span} {tag : StartTag}

lemma Fills.extend (h : Fills source start levels nodes spans pos)
    (h' : Tiling source pos nodes'.reverse spans' pos') :
    Fills source start levels (nodes' ++ nodes) (spans ++ spans') pos' := by
  cases h with
  | top h => exact .top (by rw [List.reverse_append]; exact h.append h')
  | inner htag holds around h =>
    rw [List.append_assoc]
    exact .inner htag holds around (by rw [List.reverse_append]; exact h.append h')

lemma Fills.openLevel (h : Fills source start levels nodes spans tag.span.start)
    (htag : tag.Faithful source) (holds : tag.HoldsNodes) :
    Fills source start (⟨tag, nodes⟩ :: levels) [] spans tag.span.stop := by
  rw [← List.append_nil spans]
  exact .inner htag holds h (.nil _)

lemma Fills.closeLevel {endTag : Option Span}
    (h : Fills source start (level :: levels) nodes spans pos) (hstop : source.Boundary pos')
    (hle : pos ≤ pos') (hpos : endTag.elim pos' Span.start = pos)
    (hend : ∀ t, endTag = some t → t.Fits source ∧ t.stop = pos') :
    Fills source start levels (level.element nodes endTag pos' :: level.siblings) spans pos' := by
  obtain - | @⟨_, _, _, outer, inner, _, htag, holds, around, h⟩ := h
  have hspan : Span.Fits ⟨level.tag.span.start, pos'⟩ source := by
    refine Span.fits_of_boundary htag.fits.start_boundary hstop ?_
    have := htag.fits.start_le
    have := h.le
    omega
  let e : Element := ⟨⟨level.tag.span.start, pos'⟩, level.tag, none, endTag⟩
  have he : e.Faithful source := ⟨hspan, htag, rfl, hend⟩
  -- the content ends where the end tag starts, or where the element ends without one
  have hcontent : Tiling source level.tag.span.stop nodes.reverse inner e.contentEnd := by
    rw [Element.contentEnd, hpos]
    exact h
  have hnode : Tiling source level.tag.span.start [level.element nodes endTag pos'].reverse
      (inner ++ []) pos' := Tiling.element he holds rfl hcontent (.nil _)
  rw [List.append_nil] at hnode
  exact around.extend hnode

/-- The construction stands at `pos`. -/
def At (source : Text) (start pos : Nat) (n : Nesting) : Prop :=
  Fills source start n.levels n.nodes (strays n.diagnostics).reverse pos

lemma closeThrough_at {tag : ClosingTag} (hfits : tag.span.Fits source) (nodes : List Node)
    (diagnostics : List Diagnostic)
    (hopen : levels.any (·.tag.name.text == tag.name) = true)
    (h : Fills source start levels nodes (strays diagnostics).reverse tag.span.start) :
    (closeThrough tag nodes diagnostics levels).At source start tag.span.stop := by
  induction levels generalizing nodes diagnostics with
  | nil => cases hopen
  | cons level levels ih =>
    unfold closeThrough
    dsimp only
    split
    · refine h.closeLevel hfits.stop_boundary hfits.start_le rfl ?_
      rintro t ⟨⟩
      exact ⟨hfits, rfl⟩
    · next hne =>
      refine ih _ _ (by simpa [hne] using hopen) ?_
      exact h.closeLevel hfits.start_boundary (Nat.le_refl _) rfl (by simp)

/-- A step of the construction moves it past one event. -/
lemma add_at {n : Nesting} {e : Event} (he : e.Faithful source) (hfits : e.span.Fits source)
    (hlt : e.span.start < e.span.stop) (h : n.At source start e.span.start) :
    (n.add e).At source start e.span.stop := by
  cases he with
  | @leaf node hn =>
    have hnode : Tiling source node.span.start [node].reverse [] node.span.stop :=
      .leaf hn hlt (.nil _)
    have := h.extend hnode
    rwa [List.append_nil] at this
  | opening htag holds => exact h.openLevel htag holds
  | @closing tag =>
    simp only [add]
    split
    · next hopen => exact closeThrough_at hfits _ _ hopen h
    · -- nothing is added to the tree, but the construction moves on
      have hstray : Tiling source tag.span.start [].reverse [tag.span] tag.span.stop :=
        .stray hfits hlt (.nil _)
      unfold At
      rw [strays_cons, List.reverse_append]
      exact h.extend hstray

lemma addReading_at {n : Nesting} {c : Cursor} {r : Reading Event} (hc : c.In source)
    (hr : Event.ReadAt source c r) (hlt : r.value.span.start < r.value.span.stop)
    (h : n.At source start c.pos) : (n.addReading r).At source start r.next.pos := by
  have hspan := hr.span_eq
  have hquiet : strays (r.diagnostics.reverse ++ n.diagnostics) = strays n.diagnostics := by
    rw [strays_append, strays_reverse, hr.quiet, List.reverse_nil, List.nil_append]
  have hat : At source start c.pos
      { n with diagnostics := r.diagnostics.reverse ++ n.diagnostics } := by
    unfold At
    rwa [hquiet]
  have := add_at hr.faithful (by rw [hspan]; exact hc.fits_spanTo hr.reaches) hlt
    (by rw [hspan]; exact hat)
  rwa [hspan] at this

lemma foldl_stream_at {n : Nesting} {c : Cursor} (hc : c.In source)
    (h : n.At source start c.pos) :
    ((Event.stream c).foldl addReading n).At source start source.size := by
  fun_induction Event.stream c generalizing n with
  | case1 c hrest =>
    rwa [← hc.pos_add_size, hrest]
  | case2 c hrest ih =>
    have hread := Event.read_readAt hc
    exact ih (hc.reaches hread.reaches) (addReading_at hc hread (Event.span_read_lt hc hrest) h)

lemma closeAll_at (nodes : List Node) (diagnostics : List Diagnostic) (levels : List Level)
    (h : Fills source start levels nodes (strays diagnostics).reverse source.size) :
    (closeAll source.size nodes diagnostics levels).levels = [] ∧
      (closeAll source.size nodes diagnostics levels).At source start source.size := by
  induction levels generalizing nodes diagnostics with
  | nil => exact ⟨rfl, h⟩
  | cons level levels ih =>
    exact ih _ _ (h.closeLevel source.boundary_size (Nat.le_refl _) rfl (by simp))

lemma ofEvents_tiling {c : Cursor} (hc : c.In source) :
    Tiling source c.pos (ofEvents (Event.stream c) source.size).nodes.reverse
      (strays (ofEvents (Event.stream c) source.size).diagnostics).reverse source.size := by
  have hempty : Nesting.empty.At source c.pos c.pos := .top (.nil _)
  obtain ⟨hlevels, hat⟩ := closeAll_at _ _ _ (foldl_stream_at hc hempty)
  unfold At at hat
  rw [hlevels] at hat
  cases hat with
  | top h => exact h

end Nesting

/-! ### The document -/

structure Frontmatter.Faithful (source : Text) (f : Frontmatter) : Prop where
  fits : f.span.Fits source
  content : f.content.Faithful source
  start_le : f.span.start ≤ f.content.span.start
  stop_le : f.content.span.stop ≤ f.span.stop

/-- What a reading of the script at the start of a source has come to. -/
structure Frontmatter.ReadFrom (source : Text) (r : Reading (Option Frontmatter)) : Prop where
  inside : r.next.In source
  quiet : strays r.diagnostics = []
  faithful : ∀ f, r.value = some f → f.Faithful source

lemma Frontmatter.read_readFrom (source : Text) : ReadFrom source (read source) := by
  have hstart := Cursor.In.ofText source
  have hfence := hstart.reaches (Cursor.reaches_skipWhile _ isBlank)
  unfold read
  dsimp only
  split
  · next opening hrest =>
    have hopen := hfence.advance 3
    split
    · split
      · next script rest hsplit =>
        -- behind the closing fence, with the rest of its line if that is blank
        generalize hbody : lineLength opening + 1 + script.length = n
        let fence := (Cursor.ofText source).skipWhile isBlank
        let close := (fence.advance 3).advance (n + 3)
        let next :=
          if isBlankLine close.rest then close.advance (lineLength close.rest + 1) else close
        have hnext : close.Reaches next := by
          unfold next
          split
          · exact Cursor.reaches_advance ..
          · exact Cursor.Reaches.refl _
        have hclose : fence.Reaches close :=
          (Cursor.reaches_advance ..).trans (Cursor.reaches_advance ..)
        refine ⟨hfence.reaches (hclose.trans hnext), rfl, ?_⟩
        rintro f ⟨⟩
        refine ⟨hfence.fits_spanTo (hclose.trans hnext), hopen.excerpt _, ?_, ?_⟩
        · exact (Cursor.reaches_advance fence 3).pos_le
        · exact Nat.le_trans (Cursor.reaches_advance_advance (Nat.le_add_right n 3)).pos_le
            hnext.pos_le
      · exact ⟨hstart, rfl, by simp⟩
    · exact ⟨hstart, rfl, by simp⟩
  · exact ⟨hstart, rfl, by simp⟩

/-- The script and the markup of a document are the source, and the markup is tiled by its nodes
and by stray closing tags. -/
structure Document.Faithful (source : Text) (spans : List Span) (d : Document) : Prop where
  frontmatter : ∀ f, d.frontmatter = some f → f.Faithful source
  body_start : source.Boundary d.bodySpan.start
  body_stop : d.bodySpan.stop = source.size
  body : Tiling source d.bodySpan.start d.nodes spans d.bodySpan.stop

lemma parse_eq_ok {p : Parsed} (h : parse source = .ok p) : source.size ≤ Offset.limit := by
  by_contra hlarge
  simp only [parse, hlarge, if_false] at h
  cases h

lemma exists_parse_eq_ok (h : source.size ≤ Offset.limit) : ∃ p, parse source = .ok p := by
  simp only [parse, h, if_true]
  exact ⟨_, rfl⟩

/-- **The tree of a source is faithful to it.** -/
theorem parse_faithful {p : Parsed} (h : parse source = .ok p) :
    p.document.Faithful source (strays p.diagnostics) := by
  have hread := Frontmatter.read_readFrom source
  simp only [parse, parse_eq_ok h, if_true] at h
  cases h
  refine ⟨hread.faithful, hread.inside.boundary, rfl, ?_⟩
  have := Nesting.ofEvents_tiling hread.inside
  rwa [strays_append, hread.quiet, List.nil_append, strays_reverse]

end TsxLowering.Markup
