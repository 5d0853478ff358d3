import TsxLowering.Proofs.Emission.Fits

/-!
No source is lost silently.

Every byte of the script and of the markup is in the source span of an entry of the map, but
for the bytes that are left out on purpose: delimiters of what is written in another way, the
source around what moves elsewhere, and what JSX has no place for.
-/

namespace TsxLowering

open Markup (Attribute Document Element Node StartTag)

variable {source : Text} {x : Nat}

/-! ### What is left out -/

namespace Markup

/-- What is kept of a value whose attribute moves. -/
def Attribute.Value.keptSpan? : Attribute.Value → Option Span
  | .empty => none
  | .expression code => some code.innerSpan
  | .quoted value | .template value => some value.span
  | .unquoted value => some value.span

/-- Whether the byte at `x` is left out with an attribute, where `gap` is the end of the one
before: all of an attribute without a name, with the gap before it; for one that moves, the gap
and all but its name and its value; and for a name that stays in place, what is around it. -/
def Attribute.drops (gap x : Nat) : Attribute → Bool
  | .normal span name value =>
    NameClass.ofName name.text == .needsSpread &&
      (Span.contains ⟨gap, span.start⟩ x ||
        span.contains x && !name.span.contains x && !value.keptSpan?.any (·.contains x))
  | .spread .. => false
  | .shorthand span name =>
    if name.span.isEmpty then Span.contains ⟨gap, span.stop⟩ x
    else
      match NameClass.ofName name.text with
      | .direct => span.contains x && !name.span.contains x
      | .needsSpread =>
        Span.contains ⟨gap, span.start⟩ x || span.contains x && !name.span.contains x

/-- Whether one of the attributes behind `gap` leaves out the byte at `x`. -/
def Attribute.anyDrops (gap x : Nat) : List Attribute → Bool
  | [] => false
  | a :: rest => a.drops gap x || anyDrops a.span.stop x rest

/-- Whether the byte at `x` is left out because the tag of a void element has to close itself. -/
def Element.dropsVoid (x : Nat) (e : Element) : Bool :=
  e.startTag.isVoid &&
    (e.startTag.ending != .selfClosing && x + 1 == e.startTag.span.stop ||
      e.endTag.any (·.contains x))

/-- Whether a node itself, apart from the nodes inside, leaves out the byte at `x`. -/
def Node.drops (x : Nat) : Node → Bool
  | .text _ | .expression _ => false
  | .doctype span => span.contains x
  | .comment span data => span.contains x && !data.span.contains x
  | .element e _ =>
    e.startTag.ending != .unclosed &&
      (e.dropsVoid x || Attribute.anyDrops e.startTag.name.span.stop x e.startTag.attributes)

end Markup

namespace Emission

/-- The byte at `x` is in the source of one of the pieces. -/
def Covers (pieces : List Piece) (x : Nat) : Prop :=
  ∃ p ∈ pieces, ∃ s, p.span? = some s ∧ s.contains x = true

lemma Covers.mono {pieces pieces' : List Piece} (h : Covers pieces x) (hsub : pieces ⊆ pieces') :
    Covers pieces' x := by
  obtain ⟨p, hp, hs⟩ := h
  exact ⟨p, hsub hp, hs⟩

lemma covers_of_mem {pieces : List Piece} {p : Piece} {s : Span} (hp : p ∈ pieces)
    (hs : p.span? = some s) (hstart : s.start ≤ x) (hstop : x < s.stop) : Covers pieces x :=
  ⟨p, hp, s, hs, Span.contains_iff.mpr ⟨hstart, hstop⟩⟩

/-! ### Attributes -/

lemma normalPieces_covers {span : Span} {name : Excerpt} {value : Attribute.Value}
    (h : (Attribute.normal span name value).Faithful source) (hstart : span.start ≤ x)
    (hstop : x < span.stop) : Covers (normalPieces span name value) x := by
  obtain ⟨-, hname, -, hvalue⟩ := h
  cases value with
  | empty =>
    have hend : name.span.stop = span.stop := hvalue
    exact covers_of_mem (.head _) rfl (by omega) (by omega)
  | quoted v => exact covers_of_mem (.head _) rfl hstart hstop
  | expression v => exact covers_of_mem (.head _) rfl hstart hstop
  | unquoted v =>
    obtain ⟨-, -, hend⟩ := hvalue
    by_cases hx : x < v.span.start
    · exact covers_of_mem (.head _) rfl hstart hx
    · exact covers_of_mem (.tail _ (.head _)) rfl (Nat.le_of_not_lt hx) (by omega)
  | template v =>
    obtain ⟨-, -, hend⟩ := hvalue
    by_cases hx : x < v.span.start
    · exact covers_of_mem (.head _) rfl hstart hx
    · exact covers_of_mem (p := .copied v.span) (by simp [normalPieces]) rfl
        (Nat.le_of_not_lt hx) (by omega)

lemma entryValuePieces_covers {value : Attribute.Value}
    (h : value.keptSpan?.any (·.contains x) = true) : Covers (entryValuePieces value) x := by
  cases value with
  | empty => cases h
  | quoted v => exact ⟨_, .head _, v.span, rfl, h⟩
  | unquoted v => exact ⟨_, .head _, v.span, rfl, h⟩
  | expression v => exact ⟨.copied v.innerSpan, by simp [entryValuePieces], _, rfl, h⟩
  | template v =>
    unfold Covers
    simp only [entryValuePieces]
    split
    · exact ⟨_, .head _, v.span, rfl, h⟩
    · exact ⟨_, .head _, v.span, rfl, h⟩

lemma placement_covers {a : Attribute} (h : a.Faithful source) {gap : Nat}
    (hgap : gap ≤ a.span.start) (hx : a.span.contains x = true) :
    Covers (placement a).pieces x ∨ a.drops gap x = true := by
  cases a with
  | normal span name value =>
    simp only [Attribute.span] at hx
    cases hclass : NameClass.ofName name.text with
    | direct =>
      obtain ⟨hstart, hstop⟩ := Span.contains_iff.mp hx
      simp only [placement, hclass, Placement.pieces]
      exact .inl (normalPieces_covers h hstart hstop)
    | needsSpread =>
      simp only [placement, hclass, Placement.pieces]
      -- of an entry the name and the value are kept, and nothing between them
      by_cases hname : name.span.contains x = true
      · exact .inl ⟨keyPiece name, .head _, name.span, rfl, hname⟩
      by_cases hvalue : value.keptSpan?.any (·.contains x) = true
      · exact .inl ((entryValuePieces_covers hvalue).mono fun p hp => by simp [hp])
      · exact .inr (by simp [Attribute.drops, hclass, hx, hname, hvalue])
  | spread span code => exact .inl ⟨_, .head _, span, rfl, hx⟩
  | shorthand span name =>
    simp only [Attribute.span] at hx hgap
    by_cases hname : name.span.contains x = true
    · simp only [placement, h.2.1.isEmpty_text, Span.isEmpty_of_contains hname,
        Bool.false_eq_true, if_false]
      refine .inl ⟨.copied name.span, ?_, name.span, rfl, hname⟩
      split <;> simp [Placement.pieces]
    · refine .inr ?_
      simp only [Attribute.drops]
      split
      · rw [Span.contains_iff] at hx ⊢
        exact ⟨Nat.le_trans hgap hx.1, hx.2⟩
      · split <;> simp [hx, hname]

lemma gap_covers {a : Attribute} (h : a.Faithful source) {gap : Nat}
    (hx : Span.contains ⟨gap, a.span.start⟩ x = true) :
    (∃ pieces, placement a = .inPlace pieces) ∨ a.drops gap x = true := by
  cases a with
  | normal span name value =>
    simp only [Attribute.span] at hx
    cases hclass : NameClass.ofName name.text with
    | direct => exact .inl ⟨normalPieces span name value, by simp only [placement, hclass]⟩
    | needsSpread => exact .inr (by simp [Attribute.drops, hclass, hx])
  | spread span code => exact .inl ⟨_, rfl⟩
  | shorthand span name =>
    simp only [Attribute.span] at hx
    simp only [placement, h.2.1.isEmpty_text, Attribute.drops]
    -- a shorthand without a name is left out together with the gap
    by_cases hempty : name.span.isEmpty = true
    · have hlt := h.start_lt
      rw [Span.contains_iff] at hx
      simp only [Attribute.span] at hlt hx
      exact .inr (by rw [if_pos hempty, Span.contains_iff]; simp only; omega)
    · simp only [hempty, Bool.false_eq_true, if_false]
      cases NameClass.ofName name.text with
      | direct => exact .inl ⟨_, rfl⟩
      | needsSpread => exact .inr (by simp [hx])

/-- Each byte from the end of the name on is kept or left out, up to the last attribute. Entries
stand behind all attributes in place, so both are looked for among the pieces of the tag. -/
lemma attributes_cover {start stop : Nat} {attributes : List Attribute} {pieces : List Piece}
    (h : Attribute.InOrder source start attributes stop)
    (hgaps : inPlacePieces start attributes ⊆ pieces)
    (hplace : ∀ a ∈ attributes, (placement a).pieces ⊆ pieces) (hstart : start ≤ x)
    (hend : x < Attribute.endOf start attributes) :
    Covers pieces x ∨ Attribute.anyDrops start x attributes = true := by
  induction attributes generalizing start with
  | nil =>
    simp only [Attribute.endOf] at hend
    omega
  | cons a rest ih =>
    obtain ⟨hle, ha, hrest⟩ := h
    simp only [Attribute.anyDrops, Bool.or_eq_true]
    by_cases hgap : x < a.span.start
    · -- in the gap before the attribute
      have hx : Span.contains ⟨start, a.span.start⟩ x = true :=
        Span.contains_iff.mpr ⟨hstart, hgap⟩
      rcases gap_covers ha hx with ⟨own, hown⟩ | hdrop
      · refine .inl ⟨.copied ⟨start, a.span.start⟩, hgaps ?_, _, rfl, hx⟩
        simp [inPlacePieces, hown]
      · exact .inr (.inl hdrop)
    by_cases hspan : x < a.span.stop
    · have hx := Span.contains_iff.mpr ⟨Nat.le_of_not_lt hgap, hspan⟩
      rcases placement_covers ha hle hx with hcovers | hdrop
      · exact .inl (hcovers.mono (hplace a (by simp)))
      · exact .inr (.inl hdrop)
    · have hgaps' : inPlacePieces a.span.stop rest ⊆ pieces :=
        fun p hp => hgaps (List.mem_append_right _ hp)
      have := ih hrest hgaps' (fun b hb => hplace b (by simp [hb])) (Nat.le_of_not_lt hspan) hend
      tauto

/-! ### Start tags and nodes -/

lemma startTagPieces_cover {t : StartTag} (h : t.Faithful source) (hx : t.span.contains x = true) :
    Covers (startTagPieces t) x ∨
      (t.isVoid = true ∧ t.ending ≠ .selfClosing ∧ x + 1 = t.span.stop) ∨
      Attribute.anyDrops t.name.span.stop x t.attributes = true := by
  obtain ⟨hstart, hstop⟩ := Span.contains_iff.mp hx
  -- the tag from left to right: its name, its attributes, its end
  by_cases hname : x < t.name.span.stop
  · refine .inl (covers_of_mem (p := .copied ⟨t.span.start, t.name.span.stop⟩) ?_ rfl hstart hname)
    simp [startTagPieces]
  by_cases hattributes : x < t.attributesEnd
  · rw [StartTag.attributesEnd_eq] at hattributes
    have hgaps : inPlacePieces t.name.span.stop t.attributes ⊆ startTagPieces t :=
      fun p hp => by simp [startTagPieces, attributePieces, hp]
    rcases attributes_cover h.tail.inOrder hgaps (fun a ha => placement_subset ha)
      (Nat.le_of_not_lt hname) hattributes with hcovers | hdrops
    · exact .inl hcovers
    · exact .inr (.inr hdrops)
  have htail : t.attributesEnd ≤ x := Nat.le_of_not_lt hattributes
  by_cases hclip : (t.isVoid && t.ending != .selfClosing) = true
  · by_cases hlast : x + 1 = t.span.stop
    · exact .inr (.inl ⟨by simp_all, by simp_all, hlast⟩)
    · refine .inl (covers_of_mem (p := .clipped t.tail) ?_ rfl htail ?_)
      · simp [startTagPieces, hclip]
      · simp only [StartTag.tail]
        omega
  · refine .inl (covers_of_mem (p := .copied t.tail) ?_ rfl htail hstop)
    simp [startTagPieces, hclip]

lemma commentPieces_cover {data : Excerpt} (hx : data.span.contains x = true) :
    Covers (commentPieces data) x := by
  unfold Covers commentPieces
  split
  · exact ⟨_, .tail _ (.head _), data.span, rfl, hx⟩
  · exact ⟨_, .tail _ (.head _), data.span, rfl, hx⟩

lemma rawTextPieces_cover {raw : Span} (hx : raw.contains x = true) :
    Covers (rawTextPieces source raw) x := by
  unfold Covers
  simp only [rawTextPieces, Span.isEmpty_of_contains hx, Bool.false_eq_true, if_false]
  split
  · exact ⟨_, .tail _ (.head _), raw, rfl, hx⟩
  · exact ⟨_, .tail _ (.head _), raw, rfl, hx⟩

/-- Each byte between the offsets is kept by the pieces, or left out on purpose. -/
def Accounts (dropped : Nat → Prop) (a b : Nat) (pieces : List Piece) : Prop :=
  ∀ x, Span.contains ⟨a, b⟩ x = true → Covers pieces x ∨ dropped x

variable {dropped : Nat → Prop}

lemma accounts_piecewise : Piecewise source (Accounts dropped) where
  nil := by
    intro a x hx
    rw [Span.contains_iff] at hx
    simp only at hx
    omega
  copied _ _ _ := fun x hx => .inl ⟨_, .head _, _, rfl, hx⟩
  append := by
    intro a b c xs ys _ _ _ _ _ hxs hys x hx
    obtain ⟨hstart, hstop⟩ := Span.contains_iff.mp hx
    by_cases hb : x < b
    · rcases hxs x (Span.contains_iff.mpr ⟨hstart, hb⟩) with hcovers | hdropped
      · exact .inl (hcovers.mono (List.subset_append_left _ _))
      · exact .inr hdropped
    · rcases hys x (Span.contains_iff.mpr ⟨Nat.le_of_not_lt hb, hstop⟩) with hcovers | hdropped
      · exact .inl (hcovers.mono (List.subset_append_right _ _))
      · exact .inr hdropped

lemma meets_accounts {n : Node} (h : n.Placed source) (hn : ∀ x, n.drops x = true → dropped x) :
    Meets source (Accounts dropped) n := by
  cases n with
  | text => trivial
  | expression => trivial
  | comment span data =>
    intro x hx
    have hspan : span.contains x = true := hx
    by_cases hdata : data.span.contains x = true
    · exact .inl (commentPieces_cover hdata)
    · exact .inr (hn x (by simp [Node.drops, hspan, hdata]))
  | doctype span => exact fun x hx => .inr (hn x hx)
  | element e children =>
    intro hending
    have hdrops (x : Nat) (hx : e.dropsVoid x = true ∨
        Attribute.anyDrops e.startTag.name.span.stop x e.startTag.attributes = true) :
        dropped x := hn x (by simpa [Node.drops, hending] using hx)
    refine ⟨fun x hx => ?_, fun raw _ x hx => .inl (rawTextPieces_cover hx), ?_⟩
    · rcases startTagPieces_cover h.startTag hx with hcovers | ⟨hvoid, hself, hlast⟩ | hattribute
      · exact .inl hcovers
      · exact .inr (hdrops x (.inl (by simp [Element.dropsVoid, hvoid, hself, hlast])))
      · exact .inr (hdrops x (.inr hattribute))
    · intro hvoid t ht x hx
      refine .inr (hdrops x (.inl ?_))
      have htag : t.contains x = true := hx
      simp [Element.dropsVoid, hvoid, ht, htag]

/-! ### Documents -/

lemma documentPieces_cover {d : Document} {spans : List Span} (h : d.Faithful source spans)
    (name : Text) (hx : d.bodySpan.contains x = true) :
    Covers (documentPieces source name d) x ∨
      ∃ n ∈ Node.descendants d.nodes, n.drops x = true := by
  obtain ⟨hstart, hstop⟩ := Span.contains_iff.mp hx
  by_cases hlead : x < wrapperStart d
  · exact .inl (covers_of_mem (leadSpan_mem source name d) rfl hstart hlead)
  · let dropped (x : Nat) : Prop := ∃ n ∈ Node.descendants d.nodes, n.drops x = true
    have hbody : Accounts dropped (wrapperStart d) d.bodySpan.stop (bodyPieces source d) :=
      accounts_piecewise.body h fun n hn =>
        meets_accounts (h.body.placed n hn) fun x hx => ⟨n, hn, hx⟩
    rcases hbody x (Span.contains_iff.mpr ⟨Nat.le_of_not_lt hlead, hstop⟩) with hcovers | hdropped
    · exact .inl (hcovers.mono (bodyPieces_isInfix source name d).subset)
    · exact .inr hdropped

end Emission

/-- **No source is lost silently**: all of the script, and each byte of the markup that no node
leaves out on purpose, is in the source span of an entry of the map. -/
theorem convert_accounts_for_source {options : Options} {parsed : Markup.Parsed}
    (hmode : options.mapMode = .external) (hparse : Markup.parse source = .ok parsed)
    (hsize : (componentCode source options parsed.document).size ≤ Offset.limit) :
    ∃ map encoded,
      convert source options =
        .ok ⟨componentCode source options parsed.document, some ⟨map, encoded⟩⟩ ∧
      (∀ x, parsed.document.bodySpan.contains x = true →
        (∃ e ∈ map.mappings, e.source.contains x = true) ∨
          ∃ n ∈ Node.descendants parsed.document.nodes, n.drops x = true) ∧
      (∀ f, parsed.document.frontmatter = some f → ∀ x, f.content.span.contains x = true →
        ∃ e ∈ map.mappings, e.source.contains x = true) := by
  obtain ⟨encoded, hconvert⟩ := convert_external hmode hparse hsize
  have hfits := componentPieces_fits hparse options
  refine ⟨_, encoded, hconvert, fun x hx => ?_, fun f hf x hx => ?_⟩
  · rcases Emission.documentPieces_cover (Markup.parse_faithful hparse) _ hx with hcovers | hdrops
    · obtain ⟨p, hp, s, hs, hx⟩ := hcovers
      exact .inl (exists_mem_pieceMap hp (hfits p hp) hs hx)
    · exact .inr hdrops
  · have hp : .copied f.content.span ∈ componentPieces source options parsed.document := by
      simp [componentPieces, Emission.documentPieces, Emission.scriptPieces, hf]
    exact exists_mem_pieceMap hp (hfits _ hp) rfl hx

/-- A void element that does not close itself, with an attribute that moves, a name that stands for
its own value and one that is missing, before a comment. -/
def rewritten : Text := "---\nf\n---\n<br :a=\x7bb\x7d \x7bc\x7d \x7b\x7d></br><!--d-->".toList

theorem convert_accounts_for_rewritten :
    ∃ parsed, Markup.parse rewritten = .ok parsed ∧
      (componentCode rewritten ⟨none, .external⟩ parsed.document).size ≤ Offset.limit ∧
      (List.range' 10 31).filter
          (fun x => (Node.descendants parsed.document.nodes).any (·.drops x)) =
        [13, 16, 17, 19, 21] ++ List.range' 23 14 ++ [38, 39, 40] ∧
      ∃ map encoded, convert rewritten ⟨none, .external⟩ =
          .ok ⟨componentCode rewritten ⟨none, .external⟩ parsed.document, some ⟨map, encoded⟩⟩ ∧
        (∀ x, parsed.document.bodySpan.contains x = true →
          (∃ e ∈ map.mappings, e.source.contains x = true) ∨
            ∃ n ∈ Node.descendants parsed.document.nodes, n.drops x = true) ∧
        (∀ f, parsed.document.frontmatter = some f → ∀ x, f.content.span.contains x = true →
          ∃ e ∈ map.mappings, e.source.contains x = true) := by
  let br : StartTag := ⟨⟨10, 28⟩, ⟨⟨11, 13⟩, ['b', 'r']⟩,
    [.normal ⟨14, 20⟩ ⟨⟨14, 16⟩, [':', 'a']⟩ (.expression ⟨⟨17, 20⟩, ['b'], true⟩),
      .shorthand ⟨21, 24⟩ ⟨⟨22, 23⟩, ['c']⟩, .shorthand ⟨25, 27⟩ ⟨⟨26, 26⟩, []⟩], .closed⟩
  let document : Document := ⟨⟨0, 41⟩, some ⟨⟨0, 10⟩, ⟨⟨3, 6⟩, ['\n', 'f', '\n']⟩⟩, ⟨10, 41⟩,
    [.element ⟨⟨10, 33⟩, br, none, some ⟨28, 33⟩⟩ [], .comment ⟨33, 41⟩ ⟨⟨37, 38⟩, ['d']⟩]⟩
  have hparse : Markup.parse rewritten = .ok ⟨document, []⟩ := by decide +kernel
  have hsize : (componentCode rewritten ⟨none, .external⟩ document).size ≤ Offset.limit := by
    decide +kernel
  exact ⟨_, hparse, hsize, by decide +kernel, convert_accounts_for_source rfl hparse hsize⟩

end TsxLowering
