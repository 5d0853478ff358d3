import TsxLowering.Emission.Document
import TsxLowering.Proofs.Faithful.Tree

/-!
The pieces of a tree, laid out along the text it was read from.

The pieces of nodes that fill a stretch of the text replace that stretch, part by part: the
tags of an element and its content, the nodes and the text between them. A property of such
replacements that is kept when two of them are put together holds of the whole tree as soon as
it holds of the parts that are not just copied. The source that the pieces are made for is the
same text, or another one that the tree is laid over. Main statement: `Piecewise.nodes`, the
induction over a tree that results about generated code share.
-/

namespace TsxLowering.Emission

open Markup (Document Element Node StartTag Tiling)

variable {text source : Text}

/-! ### The pieces of each kind of node -/

lemma nodePieces_unclosed {e : Element} {children : List Node}
    (h : e.startTag.ending = .unclosed) :
    nodePieces source (.element e children) = [.copied e.span] := by
  simp [nodePieces, h]

lemma nodePieces_childless {e : Element} {children : List Node}
    (h : e.startTag.ending ≠ .unclosed)
    (kind : e.startTag.ending = .selfClosing ∨ e.startTag.isVoid = true) :
    nodePieces source (.element e children) = startTagPieces e.startTag := by
  have hkind : (decide (e.startTag.ending = .selfClosing) || e.startTag.isVoid) = true := by
    simpa using kind
  simp [nodePieces, h, hkind]

lemma gap_self (a : Nat) : gap a a = [] := by simp [gap]

lemma nodePieces_rawText {e : Element} {children : List Node} {raw : Span}
    (h : e.startTag.ending = .closed) (void : e.startTag.isVoid = false)
    (rawText : e.rawText = some raw) (contentEnd : e.contentEnd = raw.stop) :
    nodePieces source (.element e children) =
      startTagPieces e.startTag ++ rawTextPieces source raw ++
        (e.endTag.map Piece.copied).toList := by
  have hgap : gap raw.stop (e.endTag.elim e.span.stop Span.start) = [] := by
    rw [← contentEnd]
    exact gap_self _
  simp [nodePieces, h, void, rawText, hgap]

lemma nodePieces_content {e : Element} {children : List Node} (h : e.startTag.HoldsNodes)
    (rawText : e.rawText = none) :
    nodePieces source (.element e children) =
      startTagPieces e.startTag ++
        nodeListPieces source e.startTag.span.stop e.contentEnd children ++
        (e.endTag.map Piece.copied).toList := by
  obtain ⟨hending, hvoid, -⟩ := h
  simp [nodePieces, hending, hvoid, rawText, Element.contentEnd]

lemma nodeListPieces_cons {n : Node} {cursor : Nat} (h : cursor ≤ n.span.stop) (stop : Nat)
    (nodes : List Node) :
    nodeListPieces source cursor stop (n :: nodes) =
      gap cursor n.span.start ++ nodePieces source n ++
        nodeListPieces source n.span.stop stop nodes := by
  rw [nodeListPieces, Nat.max_eq_right h]

/-! ### Properties of replacements -/

/-- A property of pieces that replace the text between two offsets. It holds of a copy, and of
replacements put together. -/
structure Piecewise (text : Text) (P : Nat → Nat → List Piece → Prop) : Prop where
  nil : ∀ {a}, P a a []
  copied : ∀ {a b}, text.Boundary a → text.Boundary b → a ≤ b → P a b [.copied ⟨a, b⟩]
  append : ∀ {a b c xs ys}, text.Boundary a → text.Boundary b → text.Boundary c →
    a ≤ b → b ≤ c → P a b xs → P b c ys → P a c (xs ++ ys)

variable {P : Nat → Nat → List Piece → Prop}

/-- The parts of a node that are not just copied have the property. -/
def Meets (source : Text) (P : Nat → Nat → List Piece → Prop) : Node → Prop
  | .text _ | .expression _ => True
  | .comment span data => P span.start span.stop (commentPieces data)
  | .doctype span => P span.start span.stop []
  | .element e _ => e.startTag.ending ≠ .unclosed →
    P e.startTag.span.start e.startTag.span.stop (startTagPieces e.startTag) ∧
      (∀ raw, e.rawText = some raw → P raw.start raw.stop (rawTextPieces source raw)) ∧
      (e.startTag.isVoid = true → ∀ t, e.endTag = some t → P t.start t.stop [])

namespace Piecewise

lemma span (hP : Piecewise text P) {s : Span} (hs : s.Fits text) :
    P s.start s.stop [.copied s] :=
  hP.copied hs.start_boundary hs.stop_boundary hs.start_le

lemma gap (hP : Piecewise text P) {a b : Nat} (ha : text.Boundary a) (hb : text.Boundary b)
    (hab : a ≤ b) : P a b (gap a b) := by
  unfold Emission.gap
  split
  · exact hP.copied ha hb hab
  · obtain rfl : a = b := by omega
    exact hP.nil

lemma endTag (hP : Piecewise text P) {e : Element} (he : e.Faithful text) :
    P e.contentEnd e.span.stop (e.endTag.map Piece.copied).toList := by
  cases ht : e.endTag with
  | none =>
    rw [Element.contentEnd, ht]
    exact hP.nil
  | some t =>
    obtain ⟨hfits, hstop⟩ := he.endTag t ht
    rw [Element.contentEnd, ht, ← hstop]
    exact hP.span hfits

end Piecewise

lemma Piecewise.element (hP : Piecewise text P) {e : Element} {content : List Piece}
    (he : e.Faithful text) (hle : e.startTag.span.stop ≤ e.contentEnd)
    (htag : P e.startTag.span.start e.startTag.span.stop (startTagPieces e.startTag))
    (hcontent : P e.startTag.span.stop e.contentEnd content) :
    P e.span.start e.span.stop
      (startTagPieces e.startTag ++ content ++ (e.endTag.map Piece.copied).toList) := by
  have hfits := he.startTag.fits
  have hend := he.contentEnd_boundary
  have hopened : P e.startTag.span.start e.contentEnd (startTagPieces e.startTag ++ content) :=
    hP.append hfits.start_boundary hfits.stop_boundary hend hfits.start_le hle htag hcontent
  rw [he.start_eq]
  exact hP.append hfits.start_boundary hend he.fits.stop_boundary
    (Nat.le_trans hfits.start_le hle) he.contentEnd_le hopened (hP.endTag he)

lemma Piecewise.leaf (hP : Piecewise text P) {n : Node} (h : n.Leaf text)
    (hn : Meets source P n) : P n.span.start n.span.stop (nodePieces source n) := by
  cases h with
  | text h => exact hP.span h.fits
  | expression h => exact hP.span h.fits
  | comment => exact hn
  | doctype => exact hn
  | unclosed he ending =>
    rw [nodePieces_unclosed ending]
    exact hP.span he.fits
  | @childless e he ending kind _ contentEnd void =>
    obtain ⟨htag, -, hvoid⟩ := hn ending
    rw [nodePieces_childless ending kind]
    -- an end tag is behind a void element only, and is left out there
    have hrest : P e.startTag.span.stop e.span.stop [] := by
      rw [← contentEnd, Element.contentEnd]
      cases ht : e.endTag with
      | none => exact hP.nil
      | some t =>
        have := hvoid (void (by simp [ht])) t ht
        rwa [(he.endTag t ht).2] at this
    have hfits := he.startTag.fits
    have := hP.append hfits.start_boundary hfits.stop_boundary he.fits.stop_boundary
      hfits.start_le (contentEnd ▸ he.contentEnd_le) htag hrest
    rw [List.append_nil, ← he.start_eq] at this
    exact this
  | @rawText e raw he ending void _ rawText fits start_eq contentEnd =>
    obtain ⟨htag, hraw, -⟩ := hn (by simp [ending])
    rw [nodePieces_rawText ending void rawText contentEnd]
    have hcontent := hraw raw rawText
    rw [start_eq, ← contentEnd] at hcontent
    refine hP.element he ?_ htag hcontent
    rw [contentEnd, ← start_eq]
    exact fits.start_le

/-- **Piece by piece**: what holds of all parts of a tree that are not just copied holds of the
tree, together with the text before it from `c` on. -/
theorem Piecewise.nodes (hP : Piecewise text P) {a b c : Nat} {nodes : List Node}
    {spans : List Span} (h : Tiling text a nodes spans b)
    (hn : ∀ n ∈ Node.descendants nodes, Meets source P n) (ha : text.Boundary a)
    (hc : text.Boundary c) (hca : c ≤ a) : P c b (nodeListPieces source c b nodes) := by
  -- the cursor stays behind at stray closing tags, and nodes move it past their end
  induction h generalizing c with
  | nil a => exact hP.gap hc ha hca
  | stray fits lt rest ih =>
    exact ih hn fits.stop_boundary hc (Nat.le_trans hca fits.start_le)
  | @leaf n nodes spans b hleaf lt rest ih =>
    rw [Node.descendants_leaf hleaf] at hn
    have hstop := hleaf.fits.stop_boundary
    have hcstop := Nat.le_trans hca hleaf.fits.start_le
    rw [nodeListPieces_cons hcstop]
    refine hP.append hc hstop (rest.boundary hstop) hcstop rest.le ?_
      (ih (fun m hm => hn m (by simp [hm])) hstop hstop (Nat.le_refl _))
    exact hP.append hc ha hstop hca hleaf.fits.start_le (hP.gap hc ha hca)
      (hP.leaf hleaf (hn n (by simp)))
  | @element e children nodes inner spans b he holds rawText content rest ihcontent ihrest =>
    rw [Node.descendants_element] at hn
    have hstop := he.fits.stop_boundary
    have htag := (hn (.element e children) (by simp) (by simp [holds.1])).1
    have htagStop := he.startTag.fits.stop_boundary
    have hcontent := ihcontent (fun m hm => hn m (by simp [hm])) htagStop htagStop (Nat.le_refl _)
    have hnode := hP.element he content.le htag hcontent
    rw [← nodePieces_content holds rawText] at hnode
    have hcstop := Nat.le_trans hca he.fits.start_le
    rw [nodeListPieces_cons (n := .element e children) hcstop]
    refine hP.append hc hstop (rest.boundary hstop) hcstop rest.le ?_
      (ihrest (fun m hm => hn m (by simp [hm])) hstop hstop (Nat.le_refl _))
    exact hP.append hc ha hstop hca he.fits.start_le (hP.gap hc ha hca) hnode

lemma nodePieces_isInfix {a b c : Nat} {nodes : List Node} {spans : List Span}
    (h : Tiling text a nodes spans b) (hca : c ≤ a) :
    ∀ n ∈ Node.descendants nodes, nodePieces source n <:+: nodeListPieces source c b nodes := by
  induction h generalizing c with
  | nil => simp
  | stray fits lt rest ih => exact ih (Nat.le_trans hca fits.start_le)
  | @leaf n nodes spans b hleaf lt rest ih =>
    rw [Node.descendants_leaf hleaf, nodeListPieces_cons (Nat.le_trans hca hleaf.fits.start_le)]
    intro m hm
    rcases List.mem_cons.mp hm with rfl | hm
    · exact List.infix_append _ _ _
    · exact (ih (Nat.le_refl _) m hm).trans (List.suffix_append _ _).isInfix
  | @element e children nodes inner spans b he holds rawText content rest ihcontent ihrest =>
    rw [Node.descendants_element,
      nodeListPieces_cons (n := .element e children) (Nat.le_trans hca he.fits.start_le)]
    intro m hm
    rcases List.mem_cons.mp hm with rfl | hm
    · exact List.infix_append _ _ _
    rcases List.mem_append.mp hm with hm | hm
    · -- the pieces of the content stand between those of the two tags
      refine (ihcontent (Nat.le_refl _) m hm).trans (.trans ?_ (List.infix_append _ _ _))
      rw [nodePieces_content holds rawText]
      exact List.infix_append _ _ _
    · exact (ihrest (Nat.le_refl _) m hm).trans (List.suffix_append _ _).isInfix

/-! ### The wrapped part of a document -/

lemma leadingBlank_append (nodes : List Node) :
    leadingBlank nodes ++ nodes.drop (leadingBlank nodes).length = nodes :=
  List.prefix_iff_eq_append.mp (List.takeWhile_prefix _)

lemma isBlankNode_leadingBlank (nodes : List Node) :
    ∀ n ∈ leadingBlank nodes, isBlankNode n = true := List.all_eq_true.mp List.all_takeWhile

lemma descendants_of_blank {nodes : List Node} (h : ∀ n ∈ nodes, isBlankNode n = true) :
    Node.descendants nodes = nodes := by
  induction nodes with
  | nil => rfl
  | cons n nodes ih =>
    have hn := h n (by simp)
    have hnodes := ih fun m hm => h m (by simp [hm])
    cases n with
    | text t => exact congrArg (Node.text t :: ·) hnodes
    | _ => cases hn

lemma tiling_wrapper {d : Document} {spans : List Span} (h : d.Faithful text spans) :
    ∃ before after, spans = before ++ after ∧
      Tiling text d.bodySpan.start (leadingBlank d.nodes) before (wrapperStart d) ∧
      Tiling text (wrapperStart d) (d.nodes.drop (leadingBlank d.nodes).length) after
        d.bodySpan.stop := by
  have hbody := h.body
  rw [← leadingBlank_append d.nodes] at hbody
  exact hbody.append_inv

/-- The source between the script and the wrapper. -/
def leadSpan (d : Document) : Span := ⟨d.bodySpan.start, wrapperStart d⟩

lemma leadSpan_fits {d : Document} {spans : List Span} (h : d.Faithful text spans) :
    (leadSpan d).Fits text := by
  obtain ⟨before, -, -, hbefore, -⟩ := tiling_wrapper h
  exact Span.fits_of_boundary h.body_start (hbefore.boundary h.body_start) hbefore.le

lemma leadSpan_mem (source name : Text) (d : Document) :
    .copied (leadSpan d) ∈ documentPieces source name d := by
  simp [documentPieces, scriptPieces, leadSpan]

lemma bodyPieces_isInfix (source name : Text) (d : Document) :
    bodyPieces source d <:+: documentPieces source name d :=
  ⟨scriptPieces d ++ [wrapperOpen],
    [wrapperClose, .synthetic (Component.exportDeclaration name)], by simp [documentPieces]⟩

lemma nodePieces_isInfix_documentPieces {d : Document} {spans : List Span}
    (h : d.Faithful text spans) (source name : Text) {n : Node} (hn : n ∈ Node.descendants d.nodes)
    (hblank : isBlankNode n = false) : nodePieces source n <:+: documentPieces source name d := by
  obtain ⟨-, after, -, -, hafter⟩ := tiling_wrapper h
  rw [← leadingBlank_append d.nodes, Node.descendants_append] at hn
  rcases List.mem_append.mp hn with hn | hn
  · have hlead := isBlankNode_leadingBlank d.nodes
    rw [descendants_of_blank hlead] at hn
    rw [hlead n hn] at hblank
    cases hblank
  · exact (nodePieces_isInfix hafter (Nat.le_refl _) n hn).trans (bodyPieces_isInfix source name d)

/-- **The markup of a document**, as it stands in the wrapper. -/
theorem Piecewise.body (hP : Piecewise text P) {d : Document} {spans : List Span}
    (h : d.Faithful text spans) (hn : ∀ n ∈ Node.descendants d.nodes, Meets source P n) :
    P (wrapperStart d) d.bodySpan.stop (bodyPieces source d) := by
  obtain ⟨-, after, -, -, hafter⟩ := tiling_wrapper h
  have hstart : text.Boundary (wrapperStart d) := (leadSpan_fits h).stop_boundary
  refine hP.nodes hafter (fun n hn' => hn n ?_) hstart hstart (Nat.le_refl _)
  rw [← leadingBlank_append d.nodes, Node.descendants_append]
  exact List.mem_append_right _ hn'

/-! ### Properties of single pieces -/

/-- All pieces have a property, wherever they stand. -/
def All (Q : Piece → Prop) (_ _ : Nat) (pieces : List Piece) : Prop := ∀ p ∈ pieces, Q p

variable {Q : Piece → Prop}

lemma all_piecewise (hcopied : ∀ s : Span, s.Fits text → Q (.copied s)) :
    Piecewise text (All Q) where
  nil := by simp [All]
  copied ha hb hab := List.forall_mem_singleton.mpr (hcopied _ (Span.fits_of_boundary ha hb hab))
  append _ _ _ _ _ hxs hys := List.forall_mem_append.mpr ⟨hxs, hys⟩

/-- What stands around the markup of a component. -/
def framePieces (name : Text) : List Piece :=
  [separator, wrapperOpen, wrapperClose, .synthetic (Component.exportDeclaration name)]

/-- **All pieces of a document** have a property, if copies have it and the frame of the markup,
and the pieces of each node that are not just copied. -/
theorem forall_mem_documentPieces {d : Document} {spans : List Span} {name : Text}
    (h : d.Faithful text spans) (hcopied : ∀ s : Span, s.Fits text → Q (.copied s))
    (hframe : ∀ p ∈ framePieces name, Q p)
    (hnodes : ∀ n ∈ Node.descendants d.nodes, Meets source (All Q) n) :
    ∀ p ∈ documentPieces source name d, Q p := by
  have hbody : All Q (wrapperStart d) d.bodySpan.stop (bodyPieces source d) :=
    (all_piecewise hcopied).body h hnodes
  intro p hp
  simp only [documentPieces, scriptPieces, List.mem_append, List.mem_cons, List.mem_map,
    Option.mem_toList, List.not_mem_nil, or_false] at hp
  rcases hp with (((⟨f, hf, rfl⟩ | rfl) | hp) | rfl | hp) | rfl | rfl
  · exact hcopied _ (h.frontmatter f hf).content.fits
  · exact hcopied _ (leadSpan_fits h)
  · split at hp
    · obtain rfl := List.mem_singleton.mp hp
      exact hframe _ (by simp [framePieces])
    · cases hp
  · exact hframe _ (by simp [framePieces])
  · exact hbody p hp
  · exact hframe _ (by simp [framePieces])
  · exact hframe _ (by simp [framePieces])

end TsxLowering.Emission
