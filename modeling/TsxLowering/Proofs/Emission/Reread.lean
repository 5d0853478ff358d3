import TsxLowering.Proofs.Emission.Rewriting
import TsxLowering.Proofs.RoundTrip.Document
import TsxLowering.Proofs.RoundTrip.Spelling

/-!
Rewritten start tags, read again.

A rewritten start tag holds the attributes that stay, and one that spreads those that move. It is
read as such exactly when it starts as a tag does and no name in it has another one right behind
it. Gaps may be empty, and the gap of an attribute that moves or goes is lost with it, so names that
were apart in the source need not be so in the code.
-/

namespace TsxLowering

open Markup (Attribute AttributeOutline Node Parsed Slot StartTag)

variable {source : Text}

namespace Markup

namespace Attribute

/-- The attribute holds no code but an identifier. -/
def isSimple : Attribute → Bool
  | .normal _ _ value => value.isTextual
  | .spread _ code => isIdentifier code.text.trim
  | .shorthand _ name => name.text.isEmpty || NameClass.ofName name.text == .direct

/-- What an attribute that stays is read as, once it is rewritten. -/
inductive Survives : Attribute → AttributeOutline → Prop
  | bare {span : Span} {name : Excerpt} : Survives (.normal span name .empty) (.bare name.text)
  | quoted {span : Span} {name : Excerpt} {value : Enclosed} :
      Survives (.normal span name (.quoted value)) (.quoted name.text value.text)
  | unquoted {span : Span} {name value : Excerpt} :
      Survives (.normal span name (.unquoted value)) (.quoted name.text value.text)
  | string {span : Span} {name value : Excerpt} {code : Text}
      (spells : Emission.Spells code value.text) :
      Survives (.normal span name (.unquoted value)) (.code name.text code)
  | shorthand {span : Span} {name : Excerpt} :
      Survives (.shorthand span name) (.code name.text name.text)
  | spread {span : Span} {code : Excerpt} : Survives (.spread span code) (.spread code.text)

def isBare : Attribute → Bool
  | .normal _ _ .empty => true
  | _ => false

def isSpread : Attribute → Bool
  | .spread .. => true
  | _ => false

/-- No name goes on with the next one. Right before the first gap there may be a name that would. -/
def apart : Bool → List (Span × Attribute) → Bool
  | _, [] => true
  | runsOn, (gap, a) :: rest =>
    !(runsOn && gap.isEmpty && !a.isSpread) && apart a.isBare rest

end Attribute

namespace StartTag

/-- The attributes hold no code but identifiers, and there are only blanks between them and before
the end of the tag. -/
structure Simple (source : Text) (tag : StartTag) : Prop where
  attributes : ∀ a ∈ tag.attributes, a.isSimple = true
  gaps : ∀ p ∈ Attribute.withGaps tag.name.span.stop tag.attributes,
    ∀ x ∈ p.1.slice source, isBlank x = true
  tail : Stops tag.ending (tag.tail.slice source) []

/-- A rewritten tag is read as one of the same name, with the attributes that stay, and with one
that spreads the others, if there are any. -/
structure SurvivesAs (tag new : StartTag) : Prop where
  name : new.name.text = tag.name.text
  ending : new.ending ≠ .unclosed
  attributes : ∃ kept moved, new.attributes.mapM Attribute.outline? = some (kept ++ moved) ∧
    List.Forall₂ (fun p outline => p.2.Survives outline) tag.kept kept ∧
    (tag.moved = [] → moved = []) ∧ (tag.moved ≠ [] → ∃ code, moved = [.spread code])

end StartTag

end Markup

/-! ### Names and code -/

namespace Markup

lemma isNameChar_of_isIdentifierPart {x : Char}
    (h : (NameClass.isIdentifierStart x || NameClass.isIdentifierPart x) = true) :
    isNameChar x = true := by
  have hsolid := isSolid_of_isIdentifierPart h
  have hends : x ≠ '=' ∧ x ≠ '>' := by
    constructor <;> rintro rfl <;> exact absurd h (by decide +kernel)
  simp_all [isSolid, Code.isPlain, isNameChar]

lemma jsxIdentifier_chars {name : Text} (h : NameClass.isJsxIdentifier name = true) :
    name ≠ [] ∧ ∀ x ∈ name, isNameChar x = true ∧ isSolid x = true := by
  cases name with
  | nil => cases h
  | cons x s =>
    rw [NameClass.isJsxIdentifier, Bool.and_eq_true, List.all_eq_true] at h
    obtain ⟨hx, hs⟩ := h
    have hstart : (NameClass.isIdentifierStart x || NameClass.isIdentifierPart x) = true := by
      simp [hx]
    refine ⟨List.cons_ne_nil _ _, List.forall_mem_cons.mpr
      ⟨⟨isNameChar_of_isIdentifierPart hstart, isSolid_of_isIdentifierPart hstart⟩, fun y hy => ?_⟩⟩
    rcases Bool.or_eq_true _ _ ▸ hs y hy with hpart | hhyphen
    · have hpart : (NameClass.isIdentifierStart y || NameClass.isIdentifierPart y) = true := by
        simp [hpart]
      exact ⟨isNameChar_of_isIdentifierPart hpart, isSolid_of_isIdentifierPart hpart⟩
    · obtain rfl : y = '-' := by simpa using hhyphen
      decide

lemma direct_chars {name : Text} (h : NameClass.ofName name = .direct) :
    IsName name ∧ ∀ x ∈ name, isSolid x = true := by
  have hchars : name ≠ [] ∧ ∀ x ∈ name, isNameChar x = true ∧ isSolid x = true := by
    unfold NameClass.ofName at h
    dsimp only at h
    split at h
    · next space rest hsplit =>
      -- two identifiers with a colon between them
      have fits : (NameClass.isJsxIdentifier space && NameClass.isJsxIdentifier rest) = true := by
        simpa using h
      obtain ⟨hspace, hrest⟩ := Bool.and_eq_true _ _ ▸ fits
      have hname := Text.append_of_splitOnce hsplit
      have hcolon : isNameChar ':' = true ∧ isSolid ':' = true := by decide
      refine ⟨by simp [hname], fun x hx => ?_⟩
      rw [hname, List.mem_append, List.mem_append, List.mem_singleton] at hx
      rcases hx with hx | rfl | hx
      · exact (jsxIdentifier_chars hspace).2 x hx
      · exact hcolon
      · exact (jsxIdentifier_chars hrest).2 x hx
    · exact jsxIdentifier_chars (by simpa using h)
  exact ⟨⟨hchars.1, fun x hx => (hchars.2 x hx).1⟩, fun x hx => (hchars.2 x hx).2⟩

lemma mem_trim_or_isBlank {s : Text} {x : Char} (h : x ∈ s) : x ∈ s.trim ∨ isBlank x = true := by
  obtain ⟨trail, hblank, htrail⟩ := Text.exists_trim_append s
  rw [← List.takeWhile_append_dropWhile (p := isBlank) (l := s), htrail, List.mem_append,
    List.mem_append] at h
  rcases h with hx | hx | hx
  · exact .inr (List.all_eq_true.mp List.all_takeWhile x hx)
  · exact .inl hx
  · exact .inr (List.all_eq_true.mp hblank x hx)

lemma balanced_of_spread {inner code : Text} (htrim : inner.trim = '.' :: '.' :: '.' :: code)
    (h : isIdentifier code.trim = true) : Code.Balanced .code inner := by
  have hcode : ∀ x ∈ code, Code.isPlain x = true := by
    intro x hx
    rcases mem_trim_or_isBlank hx with hx | hx
    · exact (Bool.and_eq_true _ _ ▸ (isIdentifier_solid h).1 x hx).1
    · exact Code.isPlain_of_isBlank hx
  refine balanced_of_plain fun x hx => ?_
  rcases mem_trim_or_isBlank hx with hx | hx
  · rw [htrim] at hx
    simp only [List.mem_cons] at hx
    rcases hx with rfl | rfl | rfl | hx
    iterate 3 rfl
    exact hcode x hx
  · exact Code.isPlain_of_isBlank hx

lemma trim_of_ends {x y : Char} (hx : isBlank x = false) (hy : isBlank y = false) (s : Text) :
    Text.trim (x :: s ++ [y]) = x :: s ++ [y] := by
  rw [Text.trim, Text.trimStart, Text.trimEnd, List.cons_append,
    List.dropWhile_cons_of_neg (by simp [hx]), ← List.cons_append, List.reverse_append,
    List.reverse_singleton, List.singleton_append, List.dropWhile_cons_of_neg (by simp [hy]),
    List.reverse_cons, List.reverse_reverse]

end Markup

namespace Emission

open Markup

/-! ### The row of a rewritten tag -/

/-- What an attribute that stays is read as. -/
def survivor : Attribute → AttributeOutline
  | .normal _ name .empty => .bare name.text
  | .normal _ name (.quoted value) => .quoted name.text value.text
  | .normal _ name (.unquoted value) =>
    if value.text.contains '"' && value.text.contains '\'' then
      .code name.text (JsonString.encode value.text)
    else .quoted name.text value.text
  | .normal _ name (.expression code) => .code name.text code.text
  | .normal _ name (.template literal) => .code name.text ('`' :: literal.text ++ ['`'])
  | .spread _ code => .spread code.text
  | .shorthand _ name => .code name.text name.text

lemma survives_survivor {a : Attribute} (h : a.isSimple = true) : a.Survives (survivor a) := by
  cases a with
  | normal span name value =>
    cases value with
    | empty => exact .bare
    | quoted v => exact .quoted
    | unquoted v =>
      simp only [survivor]
      split
      · exact .string (spells_encode v.text)
      · exact .unquoted
    | expression v => cases h
    | template v => cases h
  | spread span code => exact .spread
  | shorthand span name => exact .shorthand

lemma startsWithName_survivor (a : Attribute) : (survivor a).startsWithName = !a.isSpread := by
  cases a with
  | normal span name value =>
    cases value with
    | unquoted v =>
      simp only [survivor]
      split <;> rfl
    | _ => rfl
  | _ => rfl

lemma isBare_survivor (a : Attribute) : (survivor a).isBare = a.isBare := by
  cases a with
  | normal span name value =>
    cases value with
    | unquoted v =>
      simp only [survivor]
      split <;> rfl
    | _ => rfl
  | _ => rfl

lemma eq_survivor_of_isBare {a : Attribute} {outline : AttributeOutline} (h : a.Survives outline)
    (hbare : a.isBare = true) : outline = survivor a := by
  cases h with
  | bare => rfl
  | quoted => cases hbare
  | unquoted => cases hbare
  | string => cases hbare
  | shorthand => cases hbare
  | spread => cases hbare

lemma slice_before_value {span : Span} {name : Excerpt} {value : Attribute.Value} {v : Nat}
    {link : Text} (h : (Attribute.normal span name value).Faithful source)
    (hlink : source.slice? name.span.stop v = some link) :
    source.slice? span.start v = some (name.text ++ link) := by
  obtain ⟨hname, hstart, -, -⟩ := h
  rw [Excerpt.Faithful, hstart] at hname
  exact Text.slice?_trans hname hlink

lemma spelled_jsxString {name : Excerpt} {link : Text} (span : Span) (v : Excerpt)
    (isName : IsName name.text) (hlink : IsLink link) :
    (survivor (.normal span name (.unquoted v))).Spelled
      (name.text ++ (link ++ jsxString v.text)) := by
  rw [survivor, jsxString]
  cases hdouble : v.text.contains '"' with
  | false =>
    simpa using AttributeOutline.Spelled.quoted isName hlink (.inl rfl) (by simpa using hdouble)
  | true =>
    cases hsingle : v.text.contains '\'' with
    | false =>
      simpa using AttributeOutline.Spelled.quoted isName hlink (.inr rfl) (by simpa using hsingle)
    | true => simpa using AttributeOutline.Spelled.code isName hlink (balanced_encode v.text)

lemma survivor_spelled {a : Attribute} (h : Whole source a) (hspelled : a.Spelled source)
    (hsimple : a.isSimple = true) (hkept : a.isKept = true) :
    (survivor a).Spelled (attributeCode source a) := by
  cases a with
  | normal span name value =>
    have hdirect : NameClass.ofName name.text = .direct := by
      cases hclass : NameClass.ofName name.text <;> simp_all [Attribute.isKept, Attribute.isMoved]
    have isName := (direct_chars hdirect).1
    cases value with
    | empty =>
      have hcode : attributeCode source (.normal span name .empty) = name.text := by
        simp [attributeCode, placement, hdirect, Placement.pieces, normalPieces, Piece.text,
          h.faithful.1.slice_eq]
      rw [hcode]
      exact .bare isName
    | quoted v =>
      obtain ⟨link, quote, hlink, hquote, hfree, hbefore, hvalue⟩ := hspelled h.closed
      have hcode : attributeCode source (.normal span name (.quoted v)) =
          name.text ++ (link ++ quote :: (v.text ++ [quote])) := by
        have hslice := Text.slice?_trans (slice_before_value h.faithful hbefore) hvalue
        rw [h.faithful.2.2.2.2.2] at hslice
        simp [attributeCode, placement, hdirect, Placement.pieces, normalPieces, Piece.text,
          Span.slice, hslice]
      rw [hcode]
      exact .quoted isName hlink hquote hfree
    | unquoted v =>
      obtain ⟨link, hlink, hbefore⟩ := hspelled
      have hcode : attributeCode source (.normal span name (.unquoted v)) =
          name.text ++ (link ++ jsxString v.text) := by
        simp [attributeCode, placement, hdirect, Placement.pieces, normalPieces, Piece.text,
          Span.slice, slice_before_value h.faithful hbefore]
      rw [hcode]
      exact spelled_jsxString span v isName hlink
    | expression v => cases hsimple
    | template v => cases hsimple
  | spread span code =>
    obtain ⟨inner, htrim, hslice⟩ := hspelled
    have hcode : attributeCode source (.spread span code) = '\x7b' :: (inner ++ ['\x7d']) := by
      simp [attributeCode, placement, Placement.pieces, Piece.text, Span.slice, hslice]
    rw [hcode]
    exact .spread (balanced_of_spread htrim hsimple) htrim
  | shorthand span name =>
    have hname : name.text.isEmpty = false ∧ NameClass.ofName name.text = .direct := by
      cases hempty : name.text.isEmpty <;> cases hclass : NameClass.ofName name.text <;>
        simp_all [Attribute.isKept, Attribute.isMoved, Attribute.isVacant]
    obtain ⟨isName, hsolid⟩ := direct_chars hname.2
    have hlink : IsLink ['='] := ⟨[], [], rfl, by simp, by simp⟩
    -- a shorthand is written out as a name that has itself for its code
    have hcode : attributeCode source (.shorthand span name) =
        name.text ++ (['='] ++ '\x7b' :: (name.text ++ ['\x7d'])) := by
      simp [attributeCode, placement, hname.1, hname.2, Placement.pieces, Piece.text, synthetic,
        h.faithful.2.1.slice_eq]
    rw [hcode]
    exact .code isName hlink (balanced_of_solid hsolid)

/-- An attribute that stays, in the row of the rewritten tag. -/
def keptSlot (source : Text) (p : Span × Attribute) : Slot :=
  ⟨p.1.slice source, attributeCode source p.2, survivor p.2⟩

/-- The clause as an attribute in the row, behind its space. -/
def clauseSlots : List Text → List Slot
  | [] => []
  | entries => [⟨[' '], (clause entries).tail,
      .spread ('\x7b' :: [','].intercalate entries ++ ['\x7d'])⟩]

def rewrittenRow (source : Text) (tag : StartTag) : List Slot :=
  tag.kept.map (keptSlot source) ++ clauseSlots (tag.moved.map (attributeCode source))

lemma print_clauseSlots (entries : List Text) :
    (clauseSlots entries).flatMap Slot.print = clause entries := by
  cases entries with
  | nil => rfl
  | cons e rest => simp [clauseSlots, Slot.print, clause]

lemma clauseSlots_wellFormed {entries : List Text} (h : ∀ e ∈ entries, Code.Balanced .code e) :
    ∀ s ∈ clauseSlots entries, s.WellFormed := by
  cases entries with
  | nil => simp [clauseSlots]
  | cons e rest =>
    refine List.forall_mem_singleton.mpr ⟨by simp [isBlank], ?_⟩
    have hobject : Code.Balanced .code ('\x7b' :: [','].intercalate (e :: rest) ++ '\x7d' :: []) :=
      .brackets (by decide) (balanced_intercalate h) .nil
    have htext : (clause (e :: rest)).tail =
        '\x7b' :: (('.' :: '.' :: '.' :: '\x7b' :: [','].intercalate (e :: rest) ++ ['\x7d']) ++
          ['\x7d']) := by
      simp [clause]
    rw [htext]
    exact .spread (.plain rfl (.plain rfl (.plain rfl hobject))) (trim_of_ends rfl rfl _)

lemma apart_clauseSlots (runsOn : Bool) (entries : List Text) :
    Slot.apart runsOn (clauseSlots entries) = true := by
  refine Slot.apart_of_gaps (fun s hs => ?_) runsOn
  cases entries with
  | nil => simp [clauseSlots] at hs
  | cons e rest =>
    obtain rfl := List.mem_singleton.mp hs
    exact List.cons_ne_nil _ _

lemma apart_rewrittenRow {kept : List (Span × Attribute)} (h : ∀ p ∈ kept, p.1.Fits source)
    (runsOn : Bool) (entries : List Text) :
    Slot.apart runsOn (kept.map (keptSlot source) ++ clauseSlots entries) =
      Attribute.apart runsOn kept := by
  induction kept generalizing runsOn with
  | nil => exact apart_clauseSlots runsOn entries
  | cons p rest ih =>
    obtain ⟨hp, hrest⟩ := List.forall_mem_cons.mp h
    have hgap : (p.1.slice source).isEmpty = p.1.isEmpty :=
      Excerpt.Faithful.isEmpty_text (e := ⟨p.1, p.1.slice source⟩) hp.slice?_eq
    simp only [List.map_cons, List.cons_append, Slot.apart, Slot.startsWithName, Attribute.apart,
      keptSlot, hgap, startsWithName_survivor, isBare_survivor, ih hrest, Bool.and_assoc]

variable {tag : StartTag}

lemma rewrittenRow_wellFormed (hread : tag.ReadIn source)
    (hwhole : ∀ a ∈ tag.attributes, Whole source a)
    (hsimple : tag.Simple source) : ∀ s ∈ rewrittenRow source tag, s.WellFormed := by
  refine List.forall_mem_append.mpr ⟨List.forall_mem_map.mpr fun p hp => ?_, ?_⟩
  · obtain ⟨hp, hkept⟩ := List.mem_filter.mp hp
    have ha := (withGaps_fits hread.faithful.tail.inOrder hread.faithful.name.fits.stop_boundary
      p hp).2
    exact ⟨hsimple.gaps p hp, survivor_spelled (hwhole _ ha) (hread.spelled _ ha)
      (hsimple.attributes _ ha) hkept⟩
  · refine clauseSlots_wellFormed (List.forall_mem_map.mpr fun a ha => ?_)
    obtain ⟨ha, hmoved⟩ := List.mem_filter.mp ha
    refine balanced_attributeCode hmoved ?_
    have hsimple := hsimple.attributes a ha
    cases a with
    | normal span name value => exact hsimple
    | spread span code => cases hmoved
    | shorthand span name =>
      simp_all [Attribute.isMoved, Attribute.isSimple]

lemma generatedCode_startTag (hread : tag.ReadIn source) (tail : List Piece) :
    generatedCode source
        (.copied ⟨tag.span.start, tag.name.span.stop⟩ :: attributePieces tag ++ tail) =
      '<' :: (tag.name.text ++
        ((rewrittenRow source tag).flatMap Slot.print ++ generatedCode source tail)) := by
  have hopening :
      Span.slice ⟨tag.span.start, tag.name.span.stop⟩ source = '<' :: tag.name.text := by
    obtain ⟨c, s, hc, hrest, -, rfl⟩ := hread
    have hname : source.slice? (c.advance 1).pos (StartTag.read c).value.name.span.stop =
        some (StartTag.read c).value.name.text := (hc.advance 1).excerpt _
    have hstart := Text.slice?_trans (hc.slice?_advance (s := ['<']) hrest) hname
    have hspan : (StartTag.read c).value.span.start = c.pos := rfl
    rw [Span.slice, hspan, hstart]
    rfl
  have hrow : (rewrittenRow source tag).flatMap Slot.print =
      generatedCode source (attributePieces tag) := by
    rw [generatedCode_attributePieces, rewrittenRow, List.flatMap_append, print_clauseSlots,
      List.flatMap_map, List.flatMap_def]
    rfl
  rw [List.cons_append, generatedCode_cons, generatedCode_append, hrow]
  simp [Piece.text, hopening]

lemma stops_copied (hsimple : tag.Simple source) :
    StartTag.Stops tag.ending (generatedCode source [.copied tag.tail]) [] := by
  simpa [Piece.text] using hsimple.tail

lemma stops_startTagPieces (hread : tag.ReadIn source) (hsimple : tag.Simple source) :
    ∃ ending tail, startTagPieces tag =
        .copied ⟨tag.span.start, tag.name.span.stop⟩ :: attributePieces tag ++ tail ∧
      StartTag.Stops ending (generatedCode source tail) [] := by
  unfold startTagPieces
  dsimp only
  split
  · next hvoid =>
    refine ⟨.selfClosing, _, rfl, ?_⟩
    have hending : tag.ending ≠ .selfClosing := by
      rintro h
      simp [h] at hvoid
    have htail : tag.tail.Fits source := Span.fits_of_boundary
      hread.faithful.attributesEnd_boundary hread.faithful.fits.stop_boundary
      hread.faithful.attributesEnd_between.le
    have hslice := htail.slice?_eq
    have hstops := hsimple.tail
    generalize tag.tail.slice source = stop at hslice hstops
    generalize tag.ending = ending at hending hstops
    cases hstops with
    | selfClosing => exact absurd rfl hending
    | closed blanks blank =>
      obtain ⟨u, v, hsource, hstart, hstop⟩ := Text.slice?_eq_some_iff.mp hslice
      -- the `>` is cut off, the blanks before it stay
      have hclipped : source.slice? tag.tail.start (tag.tail.stop - 1) = some blanks := by
        refine Text.slice?_eq_some_iff.mpr ⟨u, '>' :: v, by simp [hsource], hstart, ?_⟩
        have hone : ('>' : Char).utf8Size = 1 := rfl
        simp only [Text.size_append, Text.size_cons, Text.size_nil, hone] at hstop
        omega
      have hcode : generatedCode source [.clipped tag.tail, synthetic "/>"] =
          blanks ++ '/' :: '>' :: [] := by
        simp [Piece.text, synthetic, Span.slice, hclipped]
      rw [hcode]
      exact .selfClosing blanks blank []
  · exact ⟨_, _, rfl, stops_copied hsimple⟩

end Emission

/-! ### Reading it -/

namespace Markup

lemma Event.readElement_rest_nil {c : Cursor} (h : (StartTag.read c).next.rest = []) :
    (readElement c).next.rest = [] := by
  simp only [readElement]
  split
  · exact h
  · split
    · unfold readVoidEnd
      rw [h]
      exact h
    · split
      · unfold readRawText
        rw [h]
        simp [rawTextLength, Cursor.atEnd]
      · exact h

lemma parse_of_startTag {out s : Text} (hout : out = '<' :: s) (hstarts : startsTagName s = true)
    (hsize : out.size ≤ Offset.limit) (hrest : (StartTag.read (.ofText out)).next.rest = []) :
    ∃ parsed e, parse out = .ok parsed ∧ parsed.document.nodes = [.element e []] ∧
      e.startTag = (StartTag.read (.ofText out)).value := by
  have hscript : Frontmatter.read out = ⟨none, [], Cursor.ofText out⟩ := by
    rw [hout, Frontmatter.read_of_tag]
  have hread : Event.read (.ofText out) = Event.readElement (.ofText out) :=
    Event.read_tag hstarts hout
  have hne : (Cursor.ofText out).rest ≠ [] := by simp [Cursor.ofText, hout]
  -- the tag is the only event, as nothing is left behind it
  have hstream : Event.stream (.ofText out) = [Event.readElement (.ofText out)] := by
    rw [Event.stream, dif_neg hne, hread, Event.stream,
      dif_pos (Event.readElement_rest_nil hrest)]
  obtain ⟨ds, -, hbecomes⟩ := Event.readElement_becomes (Cursor.In.ofText out)
  have hnodes : ∃ e : Element, e.startTag = (StartTag.read (.ofText out)).value ∧
      (Nesting.ofEvents [Event.readElement (.ofText out)] out.size).nodes = [.element e []] := by
    simp only [Nesting.ofEvents, List.foldl_cons, List.foldl_nil, Nesting.addReading]
    generalize (Event.readElement (.ofText out)).value = event at hbecomes ⊢
    cases hbecomes <;> exact ⟨_, rfl, rfl⟩
  obtain ⟨e, htag, hnodes⟩ := hnodes
  refine ⟨_, e, if_pos hsize, ?_, htag⟩
  simp only [hscript, hstream, hnodes]
  rfl

lemma StartTag.ReadIn.eq_read_ofText {out : Text} {tag : StartTag} (h : tag.ReadIn out)
    (hstart : tag.span.start = 0) :
    ∃ s, out = '<' :: s ∧ startsTagName s = true ∧ tag = (StartTag.read (.ofText out)).value := by
  obtain ⟨c, s, ⟨before, hout, hpos⟩, hrest, hstarts, rfl⟩ := h
  have hc : c.pos = 0 := hstart
  obtain rfl : before = [] := Text.eq_nil_of_size_eq_zero (by omega)
  have hcursor : c = .ofText out := by
    cases c
    simp_all [Cursor.ofText]
  subst hcursor
  exact ⟨s, hrest, hstarts, rfl⟩

lemma StartTag.ReadIn.name_chars {tag : StartTag} (h : tag.ReadIn source) :
    (∀ x ∈ tag.name.text, isNameChar x = true) ∧
      ∀ t, tag.name.text ≠ [] → startsTagName (tag.name.text ++ t) = true := by
  obtain ⟨c, s, hc, hrest, hstarts, rfl⟩ := h
  rw [StartTag.text_name_read hrest]
  refine ⟨List.all_eq_true.mp List.all_takeWhile, fun t hne => ?_⟩
  obtain ⟨x, name, hname⟩ := List.exists_cons_of_ne_nil hne
  have hs : s = x :: (name ++ s.dropWhile isNameChar) := by
    rw [← List.cons_append, ← hname, List.takeWhile_append_dropWhile]
  rw [hs] at hstarts
  rw [hname]
  exact hstarts

lemma StartTag.Stops.ending_ne {ending : StartTag.Ending} {stop tail : Text}
    (h : StartTag.Stops ending stop tail) : ending ≠ .unclosed := by
  cases h <;> exact StartTag.Ending.noConfusion

/-- Reading a text gives one element, whose start tag is all of the text and holds what survives of
another one. -/
def StartTag.Reread (tag : StartTag) (out : Text) : Prop :=
  ∃ parsed e, parse out = .ok parsed ∧ parsed.document.nodes = [.element e []] ∧
    e.startTag.span = ⟨0, out.size⟩ ∧ tag.SurvivesAs e.startTag

lemma StartTag.Reread.read {tag : StartTag} {out : Text} (h : tag.Reread out) :
    out.size ≤ Offset.limit ∧ ∃ s, out = '<' :: s ∧ startsTagName s = true ∧
      tag.SurvivesAs (StartTag.read (.ofText out)).value := by
  obtain ⟨parsed, e, hparse, hnodes, hspan, hsurvives⟩ := h
  have he : .element e [] ∈ Node.descendants parsed.document.nodes := by
    rw [hnodes]
    simp
  obtain ⟨s, hs, hstarts, htag⟩ := (parse_startTag_read hparse he).eq_read_ofText (by rw [hspan])
  exact ⟨parse_eq_ok hparse, s, hs, hstarts, htag ▸ hsurvives⟩

end Markup

namespace Emission

open Markup

variable {tag : StartTag} {ending : StartTag.Ending} {tail : List Piece} {out : Text}

/-- What the attributes of the row are read as agrees with what survives, as far as names without
values go. -/
lemma forall₂_rewrittenRow {kept moved : List AttributeOutline}
    (hkept : List.Forall₂ (fun p outline => p.2.Survives outline) tag.kept kept)
    (hnone : tag.moved = [] → moved = [])
    (hsome : tag.moved ≠ [] → ∃ code, moved = [.spread code]) :
    List.Forall₂ (fun s o => s.outline.isBare = true → o = s.outline)
      (rewrittenRow source tag) (kept ++ moved) := by
  refine List.rel_append (List.forall₂_map_left_iff.mpr (hkept.imp fun p o h hbare => ?_)) ?_
  · exact eq_survivor_of_isBare h ((isBare_survivor p.2).symm.trans hbare)
  · cases hmoved : tag.moved with
    | nil =>
      rw [hnone hmoved]
      exact .nil
    | cons a rest =>
      obtain ⟨code, rfl⟩ := hsome (by simp [hmoved])
      exact .cons (fun hbare => nomatch hbare) .nil

lemma fits_kept (hread : tag.ReadIn source) {p : Span × Attribute} (hp : p ∈ tag.kept) :
    p.1.Fits source ∧ p.2 ∈ tag.attributes :=
  withGaps_fits hread.faithful.tail.inOrder hread.faithful.name.fits.stop_boundary p
    (List.mem_filter.mp hp).1

lemma survivesAs_of_row (hread : tag.ReadIn source) (hsimple : tag.Simple source) {new : StartTag}
    (hname : new.name.text = tag.name.text) (hending : new.ending ≠ .unclosed)
    (hview : new.attributes.mapM Attribute.outline? =
      some ((rewrittenRow source tag).map Slot.outline)) : tag.SurvivesAs new := by
  refine ⟨hname, hending, tag.kept.map (survivor ·.2),
    (clauseSlots (tag.moved.map (attributeCode source))).map Slot.outline, ?_, ?_, ?_, ?_⟩
  · rw [hview, rewrittenRow, List.map_append, List.map_map]
    rfl
  · rw [List.forall₂_map_right_iff, List.forall₂_same]
    exact fun p hp => survives_survivor (hsimple.attributes _ (fits_kept hread hp).2)
  · intro hmoved
    rw [hmoved]
    rfl
  · intro hmoved
    obtain ⟨a, rest, hmoved⟩ := List.exists_cons_of_ne_nil hmoved
    rw [hmoved]
    exact ⟨_, rfl⟩

lemma reread_iff_of_stops (hread : tag.ReadIn source)
    (hwhole : ∀ a ∈ tag.attributes, Whole source a) (hsimple : tag.Simple source)
    (hstop : StartTag.Stops ending (generatedCode source tail) [])
    (hout : out = generatedCode source
      (.copied ⟨tag.span.start, tag.name.span.stop⟩ :: attributePieces tag ++ tail)) :
    tag.Reread out ↔ out.size ≤ Offset.limit ∧
      (tag.name.text = [] → startsTagName (out.drop 1) = true) ∧
      Attribute.apart true tag.kept = true := by
  have hcode := hout.trans (generatedCode_startTag hread tail)
  have hrow := rewrittenRow_wellFormed hread hwhole hsimple
  obtain ⟨hname, hstarts⟩ := hread.name_chars
  rw [← apart_rewrittenRow (fun p hp => (fits_kept hread hp).1) true
    (tag.moved.map (attributeCode source))]
  constructor
  · intro h
    obtain ⟨hsize, s, hs, hstarts, hname', -, kept, moved, hmap, hkept, hnone, hsome⟩ := h.read
    refine ⟨hsize, fun _ => by rw [hs]; exact hstarts, ?_⟩
    exact StartTag.apart_of_read hname hrow hstop hcode hname' hmap
      (forall₂_rewrittenRow hkept hnone hsome)
  · rintro ⟨hsize, hempty, hapart⟩
    -- names that stand apart are read as they are written
    obtain ⟨hgives, htext, hending⟩ :=
      StartTag.read_row (c := .ofText out) hname hrow hstop hapart hcode
    have hstarts : startsTagName (tag.name.text ++
        ((rewrittenRow source tag).flatMap Slot.print ++ generatedCode source tail)) = true := by
      by_cases hnil : tag.name.text = []
      · rw [hcode] at hempty
        exact hempty hnil
      · exact hstarts _ hnil
    obtain ⟨parsed, e, hparse, hnodes, htag⟩ := parse_of_startTag hcode hstarts hsize hgives.rest
    refine ⟨parsed, e, hparse, hnodes, ?_, ?_⟩
    · have hend := ((Cursor.In.ofText out).reaches
        (StartTag.read_reaches (Cursor.In.ofText out))).pos_add_size
      rw [hgives.rest, Text.size_nil, Nat.add_zero] at hend
      rw [htag, StartTag.span_read, Cursor.spanTo, hend]
      rfl
    · rw [htag]
      exact survivesAs_of_row hread hsimple htext (hending ▸ hstop.ending_ne) hgives.view_eq

end Emission

/-- **A rewritten start tag is read again** as what survives exactly when it starts as a tag does
and no name in it has another one right behind it. -/
theorem startTag_reread_iff {parsed : Parsed} (hparse : Markup.parse source = .ok parsed)
    {e : Markup.Element} {children : List Node}
    (he : .element e children ∈ Node.descendants parsed.document.nodes)
    (hsimple : e.startTag.Simple source) {out : Text}
    (hout : out = generatedCode source (Emission.startTagPieces e.startTag) ∨
      out = generatedCode source (.copied ⟨e.startTag.span.start, e.startTag.name.span.stop⟩ ::
        Emission.attributePieces e.startTag ++ [.copied e.startTag.tail])) :
    e.startTag.Reread out ↔ out.size ≤ Offset.limit ∧
      (e.startTag.name.text = [] → Markup.startsTagName (out.drop 1) = true) ∧
      Attribute.apart true e.startTag.kept = true := by
  have hread := Markup.parse_startTag_read hparse he
  have hending := hsimple.tail.ending_ne
  have hwhole := Emission.whole_of_parse hparse he hending
  rcases hout with hout | hout
  · obtain ⟨ending, tail, hpieces, hstop⟩ := Emission.stops_startTagPieces hread hsimple
    rw [hpieces] at hout
    exact Emission.reread_iff_of_stops hread hwhole hsimple hstop hout
  · exact Emission.reread_iff_of_stops hread hwhole hsimple (Emission.stops_copied hsimple) hout

/-- Attributes of every form, some with no gap before them, one that moves and one that goes. -/
def crowded : Text := "<p a='é' @c=d \x7bx\x7d\x7b...y\x7d e=f g \x7b\x7d h/>".toList

theorem startTag_reread_crowded :
    ∃ parsed e, Markup.parse crowded = .ok parsed ∧
      .element e [] ∈ Node.descendants parsed.document.nodes ∧ e.startTag.Simple crowded ∧
      e.startTag.kept.length = 6 ∧ e.startTag.moved.length = 1 ∧
      e.startTag.Reread (generatedCode crowded (Emission.startTagPieces e.startTag)) := by
  let tag : StartTag := ⟨⟨0, 37⟩, ⟨⟨1, 2⟩, ['p']⟩,
    [.normal ⟨3, 9⟩ ⟨⟨3, 4⟩, ['a']⟩ (.quoted ⟨⟨5, 9⟩, ['é'], true⟩),
      .normal ⟨10, 14⟩ ⟨⟨10, 12⟩, ['@', 'c']⟩ (.unquoted ⟨⟨13, 14⟩, ['d']⟩),
      .shorthand ⟨15, 18⟩ ⟨⟨16, 17⟩, ['x']⟩, .spread ⟨18, 24⟩ ⟨⟨22, 23⟩, ['y']⟩,
      .normal ⟨25, 28⟩ ⟨⟨25, 26⟩, ['e']⟩ (.unquoted ⟨⟨27, 28⟩, ['f']⟩),
      .normal ⟨29, 30⟩ ⟨⟨29, 30⟩, ['g']⟩ .empty, .shorthand ⟨31, 33⟩ ⟨⟨32, 32⟩, []⟩,
      .normal ⟨34, 35⟩ ⟨⟨34, 35⟩, ['h']⟩ .empty], .selfClosing⟩
  have hparse : Markup.parse crowded = .ok ⟨⟨⟨0, 37⟩, none, ⟨0, 37⟩,
      [.element ⟨⟨0, 37⟩, tag, none, none⟩ []]⟩, []⟩ := by
    decide +kernel
  have he : Node.element ⟨⟨0, 37⟩, tag, none, none⟩ [] ∈
      Node.descendants [Node.element ⟨⟨0, 37⟩, tag, none, none⟩ []] := by simp
  have hgaps : (Attribute.withGaps tag.name.span.stop tag.attributes).all
      (fun p => (p.1.slice crowded).all isBlank) = true := by decide +kernel
  have htail : tag.tail.slice crowded = [] ++ ['/', '>'] := by decide +kernel
  have hsimple : tag.Simple crowded :=
    ⟨by decide +kernel, fun p hp => List.all_eq_true.mp (List.all_eq_true.mp hgaps p hp),
      htail ▸ .selfClosing [] (by simp) []⟩
  exact ⟨_, _, hparse, he, hsimple, by decide +kernel, by decide +kernel,
    (startTag_reread_iff hparse he hsimple (.inl rfl)).mpr
      ⟨by decide +kernel, by decide, by decide +kernel⟩⟩

/-- A shorthand with no gap between it and the name of the tag. -/
def joined : Text := "<p\x7btitle\x7d>".toList

/-- In the code the two names are one. -/
theorem startTag_reread_joined :
    ∃ parsed e, Markup.parse joined = .ok parsed ∧
      .element e [] ∈ Node.descendants parsed.document.nodes ∧ e.startTag.Simple joined ∧
      ¬ e.startTag.Reread (generatedCode joined (Emission.startTagPieces e.startTag)) := by
  let tag : StartTag := ⟨⟨0, 10⟩, ⟨⟨1, 2⟩, ['p']⟩,
    [.shorthand ⟨2, 9⟩ ⟨⟨3, 8⟩, ['t', 'i', 't', 'l', 'e']⟩], .closed⟩
  have hparse : Markup.parse joined = .ok ⟨⟨⟨0, 10⟩, none, ⟨0, 10⟩,
      [.element ⟨⟨0, 10⟩, tag, none, none⟩ []]⟩, [⟨.unclosedTag ['p'], ⟨0, 10⟩⟩]⟩ := by
    decide +kernel
  have hgaps : (Attribute.withGaps tag.name.span.stop tag.attributes).all
      (fun p => (p.1.slice joined).all isBlank) = true := by decide +kernel
  have htail : tag.tail.slice joined = [] ++ ['>'] := by decide +kernel
  have hsimple : tag.Simple joined :=
    ⟨by decide +kernel, fun p hp => List.all_eq_true.mp (List.all_eq_true.mp hgaps p hp),
      htail ▸ .closed [] (by simp) []⟩
  refine ⟨_, ⟨⟨0, 10⟩, tag, none, none⟩, hparse, by simp, hsimple, fun h => ?_⟩
  obtain ⟨-, -, -, -, hname, -⟩ := h.read
  exact absurd hname (by decide +kernel)

end TsxLowering
