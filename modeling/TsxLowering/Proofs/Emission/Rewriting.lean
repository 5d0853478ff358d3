import TsxLowering.Proofs.Decoding.Json
import TsxLowering.Proofs.Emission.Passthrough
import TsxLowering.Proofs.RoundTrip.Code
import TsxLowering.Proofs.Spans

/-!
How the attributes of a start tag are rewritten.

An attribute stays, moves or, where it is a pair of braces with nothing in them, goes. The code of
the attributes is that of those that stay, each behind the source before it, and then one clause
with an entry for each of those that move. Both keep their order. The names in the clause, and the
values that are text, are JSON strings, whatever characters they have. So where there is no code
among the values, the end of the clause is found from its start.
-/

namespace TsxLowering

open Markup (Attribute Node StartTag)

variable {source : Text}

/-! ### What becomes of an attribute -/

namespace Markup.Attribute

/-- The name of the attribute cannot stand in JSX. -/
def isMoved : Attribute → Bool
  | .normal _ name _ => NameClass.ofName name.text == .needsSpread
  | .spread .. => false
  | .shorthand _ name => !name.text.isEmpty && NameClass.ofName name.text == .needsSpread

/-- The attribute is a pair of braces with nothing in them. -/
def isVacant : Attribute → Bool
  | .shorthand _ name => name.text.isEmpty
  | .normal .. | .spread .. => false

def isKept (a : Attribute) : Bool := !a.isMoved && !a.isVacant

/-- The value is text, or there is none. -/
def Value.isTextual : Value → Bool
  | .empty | .quoted _ | .unquoted _ => true
  | .expression _ | .template _ => false

def isTextual : Attribute → Bool
  | .normal _ _ value => value.isTextual
  | .spread .. | .shorthand .. => false

/-- The attributes, each with the span between it and what stands before it. -/
def withGaps (start : Nat) : List Attribute → List (Span × Attribute)
  | [] => []
  | a :: rest => (⟨start, a.span.start⟩, a) :: withGaps a.span.stop rest

end Markup.Attribute

/-- The attributes that stay in their place, with their gaps. -/
def Markup.StartTag.kept (tag : StartTag) : List (Span × Attribute) :=
  (Attribute.withGaps tag.name.span.stop tag.attributes).filter (·.2.isKept)

def Markup.StartTag.moved (tag : StartTag) : List Attribute :=
  tag.attributes.filter Attribute.isMoved

namespace Emission

/-- A JSON string that stands for the text. -/
structure Spells (written text : Text) : Prop where
  quoted : ∃ body, written = '"' :: body ++ ['"']
  read : Json.read? written = some (.string text)

/-- A value in quotes, or, where both kinds of quote are in it, as a JSON string in braces. -/
inductive JsxQuoted (value : Text) : Text → Prop
  | double (free : '"' ∉ value) : JsxQuoted value ('"' :: value ++ ['"'])
  | single (free : '\'' ∉ value) : JsxQuoted value ('\'' :: value ++ ['\''])
  | code {written : Text} (spells : Spells written value) :
      JsxQuoted value ('\x7b' :: written ++ ['\x7d'])

/-- The form of an attribute that stays in its place. -/
inductive Form (source : Text) : Attribute → Text → Prop
  | asWritten {a : Attribute} {written : Text} (plain : a.isPlain = true)
      (copied : source.slice? a.span.start a.span.stop = some written) : Form source a written
  | unquoted {span : Span} {name value : Excerpt} {before written : Text}
      (copied : source.slice? span.start value.span.start = some before)
      (quoted : JsxQuoted value.text written) :
      Form source (.normal span name (.unquoted value)) (before ++ written)
  | template {span : Span} {name : Excerpt} {literal : Markup.Enclosed} {before : Text}
      (copied : source.slice? span.start literal.span.start = some before) :
      Form source (.normal span name (.template literal))
        (before ++ '\x7b' :: '`' :: literal.text ++ ['`', '\x7d'])
  | shorthand {span : Span} {name : Excerpt} :
      Form source (.shorthand span name) (name.text ++ '=' :: '\x7b' :: name.text ++ ['\x7d'])

/-- The value of an entry. A template literal is one already. -/
inductive EntryValue : Attribute.Value → Text → Prop
  | empty : EntryValue .empty "true".toList
  | quoted {value : Markup.Enclosed} {written : Text} (spells : Spells written value.text) :
      EntryValue (.quoted value) written
  | unquoted {value : Excerpt} {written : Text} (spells : Spells written value.text) :
      EntryValue (.unquoted value) written
  | template {literal : Markup.Enclosed} (closed : literal.closed = true) :
      EntryValue (.template literal) ('`' :: literal.text ++ ['`'])
  | expression (code : Markup.Enclosed) : EntryValue (.expression code) ('(' :: code.text ++ [')'])

/-- The entry of an attribute that moves: its name as a JSON string, and its value. -/
inductive Entry : Attribute → Text → Prop
  | normal {span : Span} {name : Excerpt} {value : Attribute.Value} {key written : Text}
      (spells : Spells key name.text) (entryValue : EntryValue value written) :
      Entry (.normal span name value) (key ++ ':' :: written)
  | shorthand {span : Span} {name : Excerpt} {key : Text} (spells : Spells key name.text) :
      Entry (.shorthand span name) (key ++ ':' :: '(' :: name.text ++ [')'])

/-- The clause that holds the entries, if there are any. -/
def clause : List Text → Text
  | [] => []
  | entries => " \x7b...\x7b".toList ++ [','].intercalate entries ++ "\x7d\x7d".toList

/-- The code of the attributes of a tag, made of the forms and the entries of its attributes. -/
structure Rewritten (source : Text) (tag : StartTag) (forms entries : List Text) : Prop where
  code : generatedCode source (attributePieces tag) = forms.flatten ++ clause entries
  kept : List.Forall₂ (fun (gap, a) form => ∃ before written,
    source.slice? gap.start gap.stop = some before ∧ Form source a written ∧
      form = before ++ written) tag.kept forms
  moved : List.Forall₂ Entry tag.moved entries
  closes : tag.moved ≠ [] → (∀ a ∈ tag.moved, a.isTextual = true) → ∃ body,
    clause entries = ' ' :: '\x7b' :: body ++ ['\x7d'] ∧
      ∀ rest, Code.split '\x7d' (body ++ '\x7d' :: rest) = some (body, rest)

/-! ### Strings -/

lemma spells_encode (s : Text) : Spells (JsonString.encode s) s where
  quoted := ⟨_, rfl⟩
  read := by
    unfold Json.read?
    rw [Json.run_encode]

lemma jsxQuoted_jsxString (value : Text) : JsxQuoted value (jsxString value) := by
  unfold jsxString
  split
  · next h => exact .double (by simpa using h)
  · split
    · next h => exact .single (by simpa using h)
    · exact .code (spells_encode value)

lemma hexDigit_ne {n : Nat} (h : n < 16) :
    JsonString.hexDigit n ≠ '"' ∧ JsonString.hexDigit n ≠ '\\' ∧ JsonString.hexDigit n ≠ '\n' := by
  revert n
  decide

lemma stringBody_escapes (s : Text) : Code.StringBody '"' (s.flatMap JsonString.escape) := by
  induction s with
  | nil => exact .nil
  | cons c s ih =>
    rw [List.flatMap_cons]
    rcases Json.escape_cases c with ⟨hquote, hbackslash, hcontrol, h⟩ | ⟨e, -, -, h⟩ | ⟨hcontrol, h⟩
    · rw [h]
      refine .char hquote hbackslash ?_ ih
      rintro rfl
      exact hcontrol (by decide)
    · rw [h]
      exact .escape ih
    · -- a code unit in four digits, the first two of which are zeros
      obtain ⟨hquote, hbackslash, hnewline⟩ := hexDigit_ne (n := c.toNat / 16) (by omega)
      obtain ⟨hquote', hbackslash', hnewline'⟩ := hexDigit_ne (n := c.toNat % 16) (by omega)
      have hdigits := Code.StringBody.char hquote hbackslash hnewline
        (.char hquote' hbackslash' hnewline' ih)
      rw [h]
      exact .escape (.char (by decide) (by decide) (by decide)
        (.char (by decide) (by decide) (by decide) hdigits))

lemma balanced_encode (s : Text) : Code.Balanced .code (JsonString.encode s) :=
  .string (.inl rfl) (stringBody_escapes s) .nil

/-! ### Forms and entries -/

/-- The code of an attribute, wherever it is put. -/
def attributeCode (source : Text) (a : Attribute) : Text :=
  generatedCode source (placement a).pieces

lemma placement_eq (a : Attribute) :
    placement a = if a.isVacant then .dropped else if a.isMoved then .entry (placement a).pieces
      else .inPlace (placement a).pieces := by
  cases a with
  | normal span name value =>
    cases h : NameClass.ofName name.text <;>
      simp [placement, Attribute.isVacant, Attribute.isMoved, h, Placement.pieces]
  | spread span code => rfl
  | shorthand span name =>
    cases hempty : name.text.isEmpty <;> cases h : NameClass.ofName name.text <;>
      simp [placement, Attribute.isVacant, Attribute.isMoved, h, hempty, Placement.pieces]

lemma placement_of_isKept {a : Attribute} (h : a.isKept = true) :
    placement a = .inPlace (placement a).pieces := by
  simp only [Attribute.isKept, Bool.and_eq_true, Bool.not_eq_true'] at h
  rw [placement_eq, h.1, h.2]
  rfl

lemma isVacant_of_isMoved {a : Attribute} (h : a.isMoved = true) : a.isVacant = false := by
  cases a with
  | shorthand span name => simp_all [Attribute.isMoved, Attribute.isVacant]
  | _ => rfl

lemma placement_of_isMoved {a : Attribute} (h : a.isMoved = true) :
    placement a = .entry (placement a).pieces := by
  rw [placement_eq, isVacant_of_isMoved h, h]
  rfl

/-- An attribute as it is read in a start tag that ends. -/
structure Whole (source : Text) (a : Attribute) : Prop where
  faithful : a.Faithful source
  delimited : a.Delimited source
  closed : a.isClosed = true

lemma slice_of_within {opening closing : Char} {e : Markup.Enclosed}
    (h : e.Within source opening closing) (hclosed : e.closed = true) :
    e.span.slice source = opening :: e.text ++ [closing] := by
  simp [Span.slice, h.written, hclosed]

lemma form_attributeCode {a : Attribute} (h : Whole source a) (hkept : a.isKept = true) :
    Form source a (attributeCode source a) := by
  by_cases hplain : a.isPlain = true
  · obtain ⟨pieces, hplace, hpieces⟩ := placement_of_plain h.faithful hplain
    rw [attributeCode, hplace, Placement.pieces, hpieces]
    exact .asWritten hplain h.faithful.fits.slice?_eq
  obtain ⟨hfaithful, hdelimited, hclosed⟩ := h
  cases a with
  | normal span name value =>
    have hdirect : NameClass.ofName name.text = .direct := by
      cases hclass : NameClass.ofName name.text <;>
        simp_all [Attribute.isKept, Attribute.isMoved]
    have hspan := hfaithful.fits
    obtain ⟨-, hstart, hlt, hvalue⟩ := hfaithful
    -- the part of the attribute before its value
    have hleft {s : Span} (hs : s.Fits source) (hle : name.span.stop ≤ s.start) :
        Span.Fits ⟨span.start, s.start⟩ source :=
      Span.fits_of_boundary hspan.start_boundary hs.start_boundary (by omega)
    cases value with
    | unquoted v =>
      have hcode : attributeCode source (.normal span name (.unquoted v)) =
          Span.slice ⟨span.start, v.span.start⟩ source ++ jsxString v.text := by
        simp [attributeCode, placement, hdirect, Placement.pieces, normalPieces, Piece.text]
      rw [hcode]
      exact .unquoted (hleft hvalue.1.fits hvalue.2.1).slice?_eq (jsxQuoted_jsxString v.text)
    | template v =>
      have hcode : attributeCode source (.normal span name (.template v)) =
          Span.slice ⟨span.start, v.span.start⟩ source ++
            '\x7b' :: '`' :: v.text ++ ['`', '\x7d'] := by
        simp [attributeCode, placement, hdirect, Placement.pieces, normalPieces, Piece.text,
          synthetic, slice_of_within hdelimited hclosed]
      rw [hcode]
      exact .template (hleft hvalue.1.fits hvalue.2.1).slice?_eq
    | empty => simp [Attribute.isPlain, Attribute.Value.isPlain, hdirect] at hplain
    | quoted v => simp [Attribute.isPlain, Attribute.Value.isPlain, hdirect] at hplain
    | expression v => simp [Attribute.isPlain, Attribute.Value.isPlain, hdirect] at hplain
  | spread span code => exact absurd rfl hplain
  | shorthand span name =>
    have hcode : attributeCode source (.shorthand span name) =
        name.text ++ '=' :: '\x7b' :: name.text ++ ['\x7d'] := by
      rw [attributeCode, placement]
      cases hempty : name.text.isEmpty <;> cases hclass : NameClass.ofName name.text <;>
        simp_all [Attribute.isKept, Attribute.isMoved, Attribute.isVacant, Placement.pieces,
          Piece.text, synthetic, hfaithful.2.1.slice_eq]
    rw [hcode]
    exact .shorthand

lemma entryValue_pieces {value : Attribute.Value} {start stop : Nat}
    (h : value.Faithful source start stop) (hdelimited : value.Delimited source)
    (hclosed : value.isClosed = true) :
    EntryValue value (generatedCode source (entryValuePieces value)) := by
  cases value with
  | empty => exact .empty
  | quoted v => simpa [entryValuePieces, Piece.text] using EntryValue.quoted (spells_encode v.text)
  | unquoted v =>
    simpa [entryValuePieces, Piece.text] using EntryValue.unquoted (spells_encode v.text)
  | expression v =>
    have hinner : v.innerSpan.slice source = v.text := by simp [Span.slice, h.1.text]
    simpa [entryValuePieces, Piece.text, synthetic, hinner] using EntryValue.expression v
  | template v =>
    have hv : v.closed = true := hclosed
    simpa [entryValuePieces, hv, Piece.text, slice_of_within hdelimited hv] using
      EntryValue.template hv

lemma attributeCode_needsSpread {name : Excerpt}
    (h : NameClass.ofName name.text = .needsSpread) (span : Span) (value : Attribute.Value) :
    attributeCode source (.normal span name value) =
      JsonString.encode name.text ++ ':' :: generatedCode source (entryValuePieces value) := by
  simp [attributeCode, placement, h, Placement.pieces, keyPiece, Piece.text, synthetic]

lemma attributeCode_shorthand {name : Excerpt} (hname : name.Faithful source)
    (hne : name.text ≠ []) (h : NameClass.ofName name.text = .needsSpread) (span : Span) :
    attributeCode source (.shorthand span name) =
      JsonString.encode name.text ++ ':' :: '(' :: name.text ++ [')'] := by
  simp [attributeCode, placement, hne, h, Placement.pieces, keyPiece, Piece.text, synthetic,
    hname.slice_eq]

lemma entry_attributeCode {a : Attribute} (h : Whole source a) (hmoved : a.isMoved = true) :
    Entry a (attributeCode source a) := by
  obtain ⟨hfaithful, hdelimited, hclosed⟩ := h
  cases a with
  | normal span name value =>
    rw [attributeCode_needsSpread (by simpa [Attribute.isMoved] using hmoved)]
    exact .normal (spells_encode _) (entryValue_pieces hfaithful.2.2.2 hdelimited hclosed)
  | spread span code => cases hmoved
  | shorthand span name =>
    simp only [Attribute.isMoved, Bool.and_eq_true, Bool.not_eq_true', List.isEmpty_eq_false_iff,
      beq_iff_eq] at hmoved
    rw [attributeCode_shorthand hfaithful.2.1 hmoved.1 hmoved.2]
    exact .shorthand (spells_encode _)

/-! ### The attributes of a tag -/

lemma generatedCode_inPlacePieces (source : Text) (start : Nat) (attributes : List Attribute) :
    generatedCode source (inPlacePieces start attributes) =
      (((Attribute.withGaps start attributes).filter (·.2.isKept)).map fun (gap, a) =>
        gap.slice source ++ attributeCode source a).flatten := by
  induction attributes generalizing start with
  | nil => rfl
  | cons a rest ih =>
    simp only [inPlacePieces, Attribute.withGaps, generatedCode_append, ih]
    cases hkept : a.isKept with
    | true =>
      rw [placement_of_isKept hkept]
      simp [hkept, attributeCode, Piece.text]
    | false =>
      -- what is left out or moved takes its gap along
      have hpieces : ∀ pieces, placement a ≠ .inPlace pieces := by
        intro pieces hplace
        rw [placement_eq] at hplace
        simp only [Attribute.isKept, Bool.and_eq_false_iff, Bool.not_eq_false'] at hkept
        split at hplace
        · cases hplace
        · simp_all
      split
      · next hplace => exact absurd hplace (hpieces _)
      · simp [hkept]

lemma spreadEntries_eq (attributes : List Attribute) :
    spreadEntries attributes =
      (attributes.filter Attribute.isMoved).map fun a => (placement a).pieces := by
  induction attributes with
  | nil => rfl
  | cons a rest ih =>
    rw [spreadEntries] at ih ⊢
    rw [List.filterMap_cons, ih]
    cases hmoved : a.isMoved with
    | true =>
      rw [placement_of_isMoved hmoved, List.filter_cons_of_pos hmoved]
      rfl
    | false =>
      rw [placement_eq, List.filter_cons_of_neg (by simp [hmoved]), hmoved]
      cases a.isVacant <;> rfl

lemma generatedCode_intersperse (source : Text) (entries : List (List Piece)) :
    generatedCode source (entries.intersperse [synthetic ","]).flatten =
      [','].intercalate (entries.map (generatedCode source)) := by
  fun_induction List.intersperse [synthetic ","] entries with
  | case1 => rfl
  | case2 pieces => simp [List.intercalate]
  | case3 pieces rest hne ih =>
    rw [List.flatten_cons, List.flatten_cons, generatedCode_append, generatedCode_append, ih]
    obtain ⟨next, rest, rfl⟩ := List.exists_cons_of_ne_nil hne
    simp [List.intercalate, Piece.text, synthetic]

lemma generatedCode_spreadPieces (source : Text) (attributes : List Attribute) :
    generatedCode source (spreadPieces attributes) =
      clause ((attributes.filter Attribute.isMoved).map (attributeCode source)) := by
  unfold spreadPieces
  split
  · next hnil =>
    rw [spreadEntries_eq, List.map_eq_nil_iff] at hnil
    rw [hnil]
    rfl
  · next hne =>
    rw [generatedCode_append, generatedCode_cons, generatedCode_intersperse, spreadEntries_eq,
      List.map_map]
    rw [spreadEntries_eq] at hne
    cases hmoved : attributes.filter Attribute.isMoved with
    | nil => exact absurd (by rw [hmoved]; rfl) hne
    | cons a rest => rfl

lemma generatedCode_attributePieces (source : Text) (tag : StartTag) :
    generatedCode source (attributePieces tag) =
      (tag.kept.map fun (gap, a) => gap.slice source ++ attributeCode source a).flatten ++
        clause (tag.moved.map (attributeCode source)) := by
  rw [attributePieces, generatedCode_append, generatedCode_inPlacePieces,
    generatedCode_spreadPieces]
  rfl

lemma withGaps_fits {start stop : Nat} {attributes : List Attribute}
    (h : Attribute.InOrder source start attributes stop) (hstart : source.Boundary start) :
    ∀ p ∈ Attribute.withGaps start attributes, p.1.Fits source ∧ p.2 ∈ attributes := by
  induction attributes generalizing start with
  | nil => simp [Attribute.withGaps]
  | cons a rest ih =>
    obtain ⟨hle, ha, hrest⟩ := h
    intro p hp
    rcases List.mem_cons.mp hp with rfl | hp
    · exact ⟨Span.fits_of_boundary hstart ha.fits.start_boundary hle, List.mem_cons_self⟩
    · obtain ⟨hfits, hmem⟩ := ih hrest ha.fits.stop_boundary p hp
      exact ⟨hfits, List.mem_cons_of_mem _ hmem⟩

lemma balanced_entryValue {value : Attribute.Value} (h : value.isTextual = true) :
    Code.Balanced .code (generatedCode source (entryValuePieces value)) := by
  cases value with
  | empty => exact .plain rfl (.plain rfl (.plain rfl (.plain rfl .nil)))
  | quoted v => simpa [entryValuePieces, Piece.text] using balanced_encode v.text
  | unquoted v => simpa [entryValuePieces, Piece.text] using balanced_encode v.text
  | expression v => cases h
  | template v => cases h

lemma balanced_attributeCode {a : Attribute} (hmoved : a.isMoved = true)
    (htextual : a.isTextual = true) : Code.Balanced .code (attributeCode source a) := by
  cases a with
  | normal span name value =>
    rw [attributeCode_needsSpread (by simpa [Attribute.isMoved] using hmoved)]
    exact (balanced_encode _).append rfl (.plain rfl (balanced_entryValue htextual))
  | spread span code => cases htextual
  | shorthand span name => cases htextual

lemma balanced_intercalate {entries : List Text} (h : ∀ e ∈ entries, Code.Balanced .code e) :
    Code.Balanced .code ([','].intercalate entries) := by
  induction entries with
  | nil => exact .nil
  | cons e rest ih =>
    obtain ⟨he, hrest⟩ := List.forall_mem_cons.mp h
    cases rest with
    | nil => simpa [List.intercalate] using he
    | cons e' rest =>
      have hmore := he.append rfl (.plain (c := ',') rfl (ih hrest))
      simpa [List.intercalate] using hmore

lemma clause_closes {entries : List Text} (hne : entries ≠ [])
    (h : ∀ e ∈ entries, Code.Balanced .code e) :
    ∃ body, clause entries = ' ' :: '\x7b' :: body ++ ['\x7d'] ∧
      ∀ rest, Code.split '\x7d' (body ++ '\x7d' :: rest) = some (body, rest) := by
  obtain ⟨e, rest, rfl⟩ := List.exists_cons_of_ne_nil hne
  refine ⟨"...".toList ++ ('\x7b' :: [','].intercalate (e :: rest) ++ '\x7d' :: []), ?_, ?_⟩
  · simp [clause]
  · have hobject : Code.Balanced .code ('\x7b' :: [','].intercalate (e :: rest) ++ '\x7d' :: []) :=
      .brackets (by decide) (balanced_intercalate h) .nil
    exact Code.split_balanced (.plain rfl (.plain rfl (.plain rfl hobject)))

lemma whole_of_parse {parsed : Markup.Parsed} (hparse : Markup.parse source = .ok parsed)
    {e : Markup.Element} {children : List Node}
    (he : .element e children ∈ Node.descendants parsed.document.nodes)
    (hending : e.startTag.ending ≠ .unclosed) : ∀ a ∈ e.startTag.attributes, Whole source a := by
  have htag := ((Markup.parse_faithful hparse).body.placed _ he).startTag
  exact fun a ha => ⟨htag.tail.inOrder.faithful a ha, (Markup.parse_delimited hparse _ he a ha).1,
    htag.tail.closed hending a ha⟩

end Emission

/-- **Attributes are rewritten** one by one: each that stays follows its gap, and each that moves
is an entry of the one clause behind them, which is closed where it ends. -/
theorem parse_attributes_rewritten {parsed : Markup.Parsed}
    (hparse : Markup.parse source = .ok parsed) {e : Markup.Element} {children : List Node}
    (he : .element e children ∈ Node.descendants parsed.document.nodes)
    (hending : e.startTag.ending ≠ .unclosed) :
    ∃ forms entries, Emission.Rewritten source e.startTag forms entries := by
  have htag := ((Markup.parse_faithful hparse).body.placed _ he).startTag
  have hwhole := Emission.whole_of_parse hparse he hending
  refine ⟨_, _, Emission.generatedCode_attributePieces source e.startTag, ?_, ?_, ?_⟩
  · rw [List.forall₂_map_right_iff, List.forall₂_same]
    intro p hp
    obtain ⟨hp, hkept⟩ := List.mem_filter.mp hp
    obtain ⟨hgap, ha⟩ :=
      Emission.withGaps_fits htag.tail.inOrder htag.name.fits.stop_boundary p hp
    exact ⟨_, _, hgap.slice?_eq, Emission.form_attributeCode (hwhole _ ha) hkept, rfl⟩
  · rw [List.forall₂_map_right_iff, List.forall₂_same]
    intro a ha
    obtain ⟨ha, hmoved⟩ := List.mem_filter.mp ha
    exact Emission.entry_attributeCode (hwhole a ha) hmoved
  · intro hne htextual
    refine Emission.clause_closes (by simpa using hne) (List.forall_mem_map.mpr fun a ha => ?_)
    exact Emission.balanced_attributeCode (List.mem_filter.mp ha).2 (htextual a ha)

/-- A quote, a line break and a closing brace in a value that moves, braces with nothing in them,
and attributes that stay and change. -/
def scattered : Text := "<p @a='\"\n\x7d' b=c \x7b\x7d \x7bd\x7d :e=f>".toList

theorem parse_attributes_scattered :
    ∃ parsed e, Markup.parse scattered = .ok parsed ∧
      .element e [] ∈ Node.descendants parsed.document.nodes ∧ e.startTag.ending ≠ .unclosed ∧
      e.startTag.moved.length = 2 ∧ (∀ a ∈ e.startTag.moved, a.isTextual = true) ∧
      ∃ forms entries, Emission.Rewritten scattered e.startTag forms entries := by
  let tag : StartTag := ⟨⟨0, 28⟩, ⟨⟨1, 2⟩, ['p']⟩,
    [.normal ⟨3, 11⟩ ⟨⟨3, 5⟩, ['@', 'a']⟩ (.quoted ⟨⟨6, 11⟩, ['"', '\n', '\x7d'], true⟩),
      .normal ⟨12, 15⟩ ⟨⟨12, 13⟩, ['b']⟩ (.unquoted ⟨⟨14, 15⟩, ['c']⟩),
      .shorthand ⟨16, 18⟩ ⟨⟨17, 17⟩, []⟩, .shorthand ⟨19, 22⟩ ⟨⟨20, 21⟩, ['d']⟩,
      .normal ⟨23, 27⟩ ⟨⟨23, 25⟩, [':', 'e']⟩ (.unquoted ⟨⟨26, 27⟩, ['f']⟩)], .closed⟩
  have hparse : Markup.parse scattered = .ok ⟨⟨⟨0, 28⟩, none, ⟨0, 28⟩,
      [.element ⟨⟨0, 28⟩, tag, none, none⟩ []]⟩, [⟨.unclosedTag ['p'], ⟨0, 28⟩⟩]⟩ := by
    decide +kernel
  have he : Node.element ⟨⟨0, 28⟩, tag, none, none⟩ [] ∈
      Node.descendants [Node.element ⟨⟨0, 28⟩, tag, none, none⟩ []] := by simp
  exact ⟨_, _, hparse, he, by decide, by decide +kernel, by decide +kernel,
    parse_attributes_rewritten hparse he (by decide)⟩

end TsxLowering
