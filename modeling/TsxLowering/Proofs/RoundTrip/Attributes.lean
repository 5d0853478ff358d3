import TsxLowering.Markup.Event
import TsxLowering.Proofs.CodePoints
import TsxLowering.Proofs.Cursor
import TsxLowering.Proofs.RoundTrip.Outline

/-!
Attributes, read back from each of the ways to write them.

Blanks may stand around the `=`, either quote may enclose a value, and blanks may stand inside
braces. However it is written, an attribute is read as itself, whatever follows it; only a name
without a value needs something behind it that neither goes on with the name nor gives it a value.
-/

namespace TsxLowering

namespace Cursor

variable {c : Cursor}

lemma rest_skipWhile (c : Cursor) (p : Char → Bool) :
    (c.skipWhile p).rest = c.rest.dropWhile p := by
  have hsplit := List.takeWhile_append_dropWhile (p := p) (l := c.rest)
  calc c.rest.drop (c.rest.takeWhile p).length
      = (c.rest.takeWhile p ++ c.rest.dropWhile p).drop (c.rest.takeWhile p).length := by
        rw [hsplit]
    _ = c.rest.dropWhile p := List.drop_left

lemma skipWhile_of_rest {p : Char → Bool} {x : Char} {s : Text} (h : c.rest = x :: s)
    (hx : p x = false) : c.skipWhile p = c := by
  simp [skipWhile, h, hx]

lemma rest_advance_of_rest {s t : Text} {n : Nat} (h : c.rest = s ++ t) (hn : n = s.length) :
    (c.advance n).rest = t := by
  rw [rest_advance, h, hn, List.drop_left]

lemma text_excerpt_of_rest {s t : Text} {n : Nat} (h : c.rest = s ++ t) (hn : n = s.length) :
    (c.excerpt n).text = s := by
  rw [excerpt, h, hn, List.take_left]

end Cursor

namespace Markup

/-- What was read shows as `b`, nothing is to be reported, and `tail` is left. -/
structure Reading.Gives {α β : Type} (view : α → Option β) (r : Reading α) (b : β) (tail : Text) :
    Prop where
  view_eq : view r.value = some b
  diagnostics : r.diagnostics = []
  rest : r.next.rest = tail

variable {c : Cursor} {name inner tail : Text}

/-! ### Names -/

namespace IsName

lemma exists_cons (h : IsName name) : ∃ x s, name = x :: s ∧ isNameChar x = true := by
  obtain ⟨hne, hchars⟩ := h
  obtain ⟨x, s, rfl⟩ := List.exists_cons_of_ne_nil hne
  exact ⟨x, s, rfl, hchars x List.mem_cons_self⟩

lemma takeWhile_append (h : IsName name) (htail : tail.takeWhile isNameChar = []) :
    (name ++ tail).takeWhile isNameChar = name := by
  rw [List.takeWhile_append_of_pos h.chars, htail, List.append_nil]

end IsName

lemma IsTagName.isName (h : IsTagName name) : IsName name where
  ne_nil := by
    obtain ⟨x, hx, -⟩ := h.letter
    rintro rfl
    cases hx
  chars := h.chars

namespace Token

lemma isSkipped_of_isNameChar {x : Char} (h : isNameChar x = true) : isSkipped x = false := by
  cases hx : isSkipped x with
  | false => rfl
  | true =>
    simp only [isSkipped, Bool.or_eq_true, beq_iff_eq] at hx
    rcases hx with ((rfl | rfl) | rfl) | rfl <;> exact absurd h (by decide)

lemma lexeme_cons {x : Char} (h : isNameChar x = true) (s : Text) :
    lexeme (x :: s) = (.name, (s.takeWhile isNameChar).length + 1) := by
  unfold lexeme
  split
  all_goals rename_i heq; cases heq
  all_goals first | exact absurd h (by decide) | exact if_pos h

lemma lexeme_name (h : IsName name) (htail : tail.takeWhile isNameChar = []) :
    lexeme (name ++ tail) = (.name, name.length) := by
  have htake := h.takeWhile_append htail
  obtain ⟨x, s, rfl, hx⟩ := h.exists_cons
  rw [List.cons_append, List.takeWhile_cons_of_pos hx] at htake
  rw [List.cons_append, lexeme_cons hx, (List.cons.inj htake).2, List.length_cons]

lemma dropWhile_name (h : IsName name) (tail : Text) :
    (name ++ tail).dropWhile isSkipped = name ++ tail := by
  obtain ⟨x, s, rfl, hx⟩ := h.exists_cons
  simp [isSkipped_of_isNameChar hx]

lemma next_of_lexeme {k : Kind} {t : Text} (hskip : c.rest.dropWhile isSkipped = t ++ tail)
    (hlexeme : lexeme (t ++ tail) = (k, t.length)) :
    (next c).1.kind = k ∧ (next c).1.text = t ∧ (next c).2.rest = tail := by
  have hrest : (c.skipWhile isSkipped).rest = t ++ tail := by rw [Cursor.rest_skipWhile, hskip]
  simp only [next, hrest, hlexeme]
  exact ⟨trivial, Cursor.text_excerpt_of_rest hrest rfl, Cursor.rest_advance_of_rest hrest rfl⟩

end Token

/-! ### Identifiers -/

/-- The code points of all blank characters. -/
def blankCodes : List Nat :=
  [0x9, 0xA, 0xB, 0xC, 0xD, 0x20, 0x85, 0xA0, 0x1680, 0x2000, 0x2001, 0x2002, 0x2003, 0x2004,
    0x2005, 0x2006, 0x2007, 0x2008, 0x2009, 0x200A, 0x2028, 0x2029, 0x202F, 0x205F, 0x3000]

lemma mem_blankCodes {x : Char} (h : isBlank x = true) : x.toNat ∈ blankCodes := by
  simp only [isBlank, Bool.or_eq_true, Bool.and_eq_true, decide_eq_true_eq, beq_iff_eq] at h
  simp only [blankCodes, List.mem_cons, List.not_mem_nil, or_false]
  omega

lemma isBlank_eq_false {p : Char → Bool}
    (hp : (blankCodes.any fun n => p (Char.ofNat n)) = false) {x : Char} (h : p x = true) :
    isBlank x = false := by
  by_contra hx
  have hmem := mem_blankCodes (Bool.not_eq_false _ ▸ hx)
  rw [← Char.ofNat_toNat x] at h
  exact Bool.false_ne_true (hp.symm.trans (List.any_eq_true.mpr ⟨_, hmem, h⟩))

lemma eq_false_of_isBlank {p : Char → Bool}
    (hp : (blankCodes.any fun n => p (Char.ofNat n)) = false) {x : Char} (h : isBlank x = true) :
    p x = false := by
  by_contra hx
  cases (isBlank_eq_false hp (Bool.not_eq_false _ ▸ hx)).symm.trans h

lemma isNameChar_of_isAlphanum {x : Char} (h : x.isAlphanum = true) : isNameChar x = true := by
  have hblank : isBlank x = false := isBlank_eq_false (by decide) h
  by_contra hx
  simp only [isNameChar, hblank, Bool.false_or, Bool.not_eq_true', Bool.not_eq_false,
    Bool.or_eq_true, beq_iff_eq] at hx
  rcases hx with (((((((rfl | rfl) | rfl) | rfl) | rfl) | rfl) | rfl) | rfl) | rfl
  all_goals exact absurd h (by decide)

/-- A character that is not blank and has no meaning of its own in code. -/
def isSolid (x : Char) : Bool := Code.isPlain x && !isBlank x

lemma isSolid_of_isIdentifierPart {x : Char}
    (h : (NameClass.isIdentifierStart x || NameClass.isIdentifierPart x) = true) :
    isSolid x = true := by
  -- one look at the table for each of the few, since it is too long to go through
  have hspecial : (['(', ')', '[', ']', '\x7b', '\x7d', '"', '\'', '`', '/', '<'].all fun x =>
      Unicode.identifierContinueRanges.isApart x.toNat x.toNat) = true := by decide +kernel
  have hblank : (blankCodes.all fun n => Unicode.identifierContinueRanges.isApart n n) = true := by
    decide +kernel
  have hpart : NameClass.isIdentifierPart x = true :=
    (Bool.or_eq_true _ _ ▸ h).elim Unicode.isIdentifierPart_of_isIdentifierStart id
  simp only [NameClass.isIdentifierPart, Bool.or_eq_true, beq_iff_eq] at hpart
  rcases hpart with ((hcontinue | rfl) | rfl) | rfl
  · have hheld : ¬ Unicode.identifierContinueRanges.isApart x.toNat x.toNat = true := fun hapart =>
      Unicode.Ranges.not_contains_of_isApart hapart (Nat.le_refl _) (Nat.le_refl _) hcontinue
    rw [isSolid, Bool.and_eq_true, Bool.not_eq_true']
    constructor
    · by_contra hplain
      rw [Code.isPlain, Bool.not_eq_true, Bool.not_eq_false', List.contains_iff_mem] at hplain
      exact hheld (List.all_eq_true.mp hspecial x hplain)
    · by_contra hx
      exact hheld (List.all_eq_true.mp hblank _ (mem_blankCodes (Bool.not_eq_false _ ▸ hx)))
  · decide
  · decide
  · decide

lemma isIdentifier_solid (h : isIdentifier name = true) :
    (∀ x ∈ name, isSolid x = true) ∧ ∃ x s, name = x :: s ∧ x ≠ '.' := by
  cases name with
  | nil => cases h
  | cons x s =>
    rw [isIdentifier, Bool.and_eq_true, List.all_eq_true] at h
    obtain ⟨hx, hs⟩ := h
    refine ⟨List.forall_mem_cons.mpr ⟨isSolid_of_isIdentifierPart (by simp [hx]), fun y hy => ?_⟩,
      x, s, rfl, ?_⟩
    · exact isSolid_of_isIdentifierPart (by simp [hs y hy])
    · rintro rfl
      exact absurd hx (by decide +kernel)

lemma balanced_of_plain (h : ∀ x ∈ inner, Code.isPlain x = true) : Code.Balanced .code inner := by
  induction inner with
  | nil => exact .nil
  | cons x s ih =>
    obtain ⟨hx, hs⟩ := List.forall_mem_cons.mp h
    exact .plain hx (ih hs)

lemma balanced_of_solid (h : ∀ x ∈ inner, isSolid x = true) : Code.Balanced .code inner :=
  balanced_of_plain fun x hx => (Bool.and_eq_true _ _ ▸ h x hx).1

lemma dropWhile_isBlank_of_solid (h : ∀ x ∈ inner, isSolid x = true) :
    inner.dropWhile isBlank = inner := by
  cases inner with
  | nil => rfl
  | cons x s =>
    have hx := (List.forall_mem_cons.mp h).1
    rw [isSolid, Bool.and_eq_true, Bool.not_eq_true'] at hx
    exact List.dropWhile_cons_of_neg (by simp [hx.2])

lemma trim_of_solid (h : ∀ x ∈ inner, isSolid x = true) : Text.trim inner = inner := by
  have hreverse : ∀ x ∈ inner.reverse, isSolid x = true := fun x hx => h x (List.mem_reverse.mp hx)
  rw [Text.trim, Text.trimStart, Text.trimEnd, dropWhile_isBlank_of_solid h,
    dropWhile_isBlank_of_solid hreverse, List.reverse_reverse]

/-! ### Values -/

lemma rest_advance_enclosed {opening closing : Char}
    (h : c.rest = opening :: (inner ++ closing :: tail)) :
    (c.advance (inner.length + 2)).rest = tail :=
  Cursor.rest_advance_of_rest (s := opening :: inner ++ [closing]) (by simpa using h) (by simp)

lemma rest_advance_closing {closing : Char} (h : c.rest = inner ++ closing :: tail) :
    (c.advance (inner.length + 1)).rest = tail :=
  Cursor.rest_advance_of_rest (s := inner ++ [closing]) (by simpa using h) (by simp)

lemma Enclosed.readCode_eq (h : c.rest = '\x7b' :: (inner ++ '\x7d' :: tail))
    (hinner : Code.Balanced .code inner) :
    Enclosed.readCode c = ⟨⟨c.spanTo (c.advance (inner.length + 2)), inner, true⟩, [],
      c.advance (inner.length + 2)⟩ := by
  have hsplit : Code.split '\x7d' (c.rest.drop 1) = some (inner, tail) := by
    rw [h]
    exact Code.split_balanced hinner tail
  simp only [Enclosed.readCode, hsplit, Enclosed.read, ↓reduceIte]

/-! ### Ways to write an attribute -/

/-- What stands between the name of an attribute and its value. -/
def IsLink (link : Text) : Prop :=
  ∃ before after, link = before ++ '=' :: after ∧ (∀ x ∈ before, Token.isSkipped x = true) ∧
    ∀ x ∈ after, isAsciiBlank x = true

namespace AttributeOutline

/-- The ways to write an attribute. -/
inductive Spelled : AttributeOutline → Text → Prop
  | bare {name : Text} (isName : IsName name) : Spelled (.bare name) name
  | quoted {name link value : Text} {quote : Char} (isName : IsName name) (isLink : IsLink link)
      (quote_eq : quote = '"' ∨ quote = '\'') (free : quote ∉ value) :
      Spelled (.quoted name value) (name ++ (link ++ quote :: (value ++ [quote])))
  | code {name link inner : Text} (isName : IsName name) (isLink : IsLink link)
      (balanced : Code.Balanced .code inner) :
      Spelled (.code name inner) (name ++ (link ++ '\x7b' :: (inner ++ ['\x7d'])))
  | spread {code inner : Text} (balanced : Code.Balanced .code inner)
      (trim : inner.trim = '.' :: '.' :: '.' :: code) :
      Spelled (.spread code) ('\x7b' :: (inner ++ ['\x7d']))
  | shorthand {name inner : Text} (balanced : Code.Balanced .code inner) (trim : inner.trim = name)
      (not_spread : ¬ ['.', '.', '.'] <+: name) :
      Spelled (.shorthand name) ('\x7b' :: (inner ++ ['\x7d']))

/-- Nothing follows the name. -/
def isBare : AttributeOutline → Bool
  | .bare _ => true
  | _ => false

def startsWithName : AttributeOutline → Bool
  | .bare _ | .quoted .. | .code .. => true
  | .spread _ | .shorthand _ => false

end AttributeOutline

lemma IsLink.takeWhile_append {link : Text} (h : IsLink link) (tail : Text) :
    (link ++ tail).takeWhile isNameChar = [] := by
  obtain ⟨before, after, rfl, hbefore, -⟩ := h
  cases before with
  | nil => rfl
  | cons x before =>
    have hx := hbefore x List.mem_cons_self
    refine List.takeWhile_cons_of_neg fun hname => ?_
    rw [Token.isSkipped_of_isNameChar hname] at hx
    cases hx

namespace Attribute

/-- What may follow an attribute: it does not go on with its name and does not give it a value. -/
structure EndsBefore (tail : Text) : Prop where
  name : tail.takeWhile isNameChar = []
  kind_ne : (Token.lexeme (tail.dropWhile Token.isSkipped)).1 ≠ .equals

lemma readNamed_bare (name : Excerpt) (h : EndsBefore c.rest) :
    (readNamed name c).Gives outline? (.bare name.text) c.rest := by
  have hkind : (Token.next c).1.kind ≠ .equals := by
    simpa only [Token.next, Cursor.rest_skipWhile] using h.kind_ne
  unfold readNamed
  dsimp only
  split
  · contradiction
  · exact ⟨rfl, rfl, rfl⟩

lemma readNamed_value {link : Text} (name : Excerpt) (hlink : IsLink link) {x : Char}
    (h : c.rest = link ++ x :: tail) (hx : isAsciiBlank x = false) :
    ∃ d e : Cursor, d.skipWhile isAsciiBlank = e ∧ e.rest = x :: tail ∧ (readNamed name c).value =
        .normal ⟨name.span.start, (Value.read d).next.pos⟩ name (Value.read d).value ∧
      (readNamed name c).diagnostics = (Value.read d).diagnostics ∧
      (readNamed name c).next = (Value.read d).next := by
  obtain ⟨before, after, rfl, hbefore, hafter⟩ := hlink
  have hskip : c.rest.dropWhile Token.isSkipped = ['='] ++ (after ++ x :: tail) := by
    rw [h, List.append_assoc, List.dropWhile_append_of_pos hbefore]
    rfl
  obtain ⟨hkind, -, hrest⟩ := Token.next_of_lexeme (k := .equals) hskip rfl
  refine ⟨(Token.next c).2, _, rfl, ?_, ?_⟩
  · rw [Cursor.rest_skipWhile, hrest, List.dropWhile_append_of_pos hafter,
      List.dropWhile_cons_of_neg (by simp [hx])]
  · simp [readNamed, hkind]

lemma readNamed_quoted {link : Text} {quote : Char} (name : Excerpt) (hlink : IsLink link)
    (hquote : quote = '"' ∨ quote = '\'') (h : c.rest = link ++ quote :: (inner ++ quote :: tail))
    (hinner : quote ∉ inner) :
    (readNamed name c).Gives outline? (.quoted name.text inner) tail := by
  have hblank : isAsciiBlank quote = false := by rcases hquote with rfl | rfl <;> rfl
  obtain ⟨d, e, hd, he, hvalue, hdiagnostics, hnext⟩ := readNamed_value name hlink h hblank
  have hsplit : Text.splitOnce (inner ++ quote :: tail) [quote] = some (inner, tail) :=
    Text.splitOnce_append (p := []) List.not_mem_nil fun h => hinner (h.subset (by simp))
  have hread : Value.read d = ⟨.quoted ⟨e.spanTo (e.advance (inner.length + 2)), inner, true⟩, [],
      e.advance (inner.length + 2)⟩ := by
    rcases hquote with rfl | rfl <;> simp only [Value.read, hd, he, hsplit, Enclosed.read]
  rw [hread] at hvalue hdiagnostics hnext
  exact ⟨by rw [hvalue]; rfl, hdiagnostics, by rw [hnext, rest_advance_enclosed he]⟩

lemma readNamed_code {link : Text} (name : Excerpt) (hlink : IsLink link)
    (h : c.rest = link ++ '\x7b' :: (inner ++ '\x7d' :: tail))
    (hinner : Code.Balanced .code inner) :
    (readNamed name c).Gives outline? (.code name.text inner) tail := by
  obtain ⟨d, e, hd, he, hvalue, hdiagnostics, hnext⟩ := readNamed_value name hlink h rfl
  have hread : Value.read d = ⟨.expression ⟨e.spanTo (e.advance (inner.length + 2)), inner, true⟩,
      [], e.advance (inner.length + 2)⟩ := by
    simp only [Value.read, hd, he, Enclosed.readCode_eq he hinner]
  rw [hread] at hvalue hdiagnostics hnext
  exact ⟨by rw [hvalue]; rfl, hdiagnostics, by rw [hnext, rest_advance_enclosed he]⟩

lemma dropWhile_append_of_neg {p : Char → Bool} {x : Char} (h : p x = false) (s t : Text) :
    (s ++ x :: t).dropWhile p = s.dropWhile p ++ x :: t := by
  induction s with
  | nil => simp [h]
  | cons y s ih => cases hy : p y <;> simp [hy, ih]

lemma rest_skipWhile_of_trim {s : Text} (h : c.rest = inner ++ '\x7d' :: tail)
    (htrim : inner.trim = s) : ∃ t, (c.skipWhile isBlank).rest = s ++ t := by
  obtain ⟨u, -, hu⟩ := Text.exists_trim_append inner
  refine ⟨u ++ '\x7d' :: tail, ?_⟩
  rw [Cursor.rest_skipWhile, h, dropWhile_append_of_neg rfl, hu, htrim, List.append_assoc]

lemma outline?_ofBraces_spread (start : Nat) (h : c.rest = inner ++ '\x7d' :: tail)
    (htrim : inner.trim = '.' :: '.' :: '.' :: name) :
    (ofBraces start c inner).outline? = some (.spread name) := by
  obtain ⟨t, ht⟩ := rest_skipWhile_of_trim h htrim
  have hrest : ((c.skipWhile isBlank).advance 3).rest = name ++ t := by
    rw [Cursor.rest_advance, ht]
    rfl
  simp only [ofBraces, htrim, outline?, Cursor.text_excerpt_of_rest hrest rfl]

lemma outline?_ofBraces_shorthand (start : Nat) (h : c.rest = inner ++ '\x7d' :: tail)
    (htrim : inner.trim = name) (hname : ¬ ['.', '.', '.'] <+: name) :
    (ofBraces start c inner).outline? = some (.shorthand name) := by
  obtain ⟨t, ht⟩ := rest_skipWhile_of_trim h htrim
  simp only [ofBraces, htrim]
  split
  · next heq => exact absurd ⟨_, rfl⟩ hname
  · rw [outline?, Cursor.text_excerpt_of_rest ht rfl]

end Attribute

/-! ### Reading them -/

namespace StartTag

open Attribute (EndsBefore)

lemma Item.read_name (h : c.rest.dropWhile Token.isSkipped = name ++ tail) (hname : IsName name)
    (htail : tail.takeWhile isNameChar = []) :
    ∃ span d, Item.read c = .attribute (Attribute.readNamed ⟨span, name⟩ d) ∧ d.rest = tail := by
  obtain ⟨hkind, htext, hrest⟩ := Token.next_of_lexeme h (Token.lexeme_name hname htail)
  refine ⟨(Token.next c).1.span, (Token.next c).2, ?_, hrest⟩
  simp [Item.read, hkind, htext]

lemma Item.read_braces
    (h : c.rest.dropWhile Token.isSkipped = '\x7b' :: (inner ++ '\x7d' :: tail))
    (hinner : Code.Balanced .code inner) :
    ∃ start d, Item.read c =
        .attribute ⟨.ofBraces start d inner, [], d.advance (inner.length + 1)⟩ ∧
      d.rest = inner ++ '\x7d' :: tail := by
  obtain ⟨hkind, -, hrest⟩ :=
    Token.next_of_lexeme (c := c) (t := ['\x7b']) (k := .braceOpen) h rfl
  refine ⟨(Token.next c).1.span.start, (Token.next c).2, ?_, hrest⟩
  have hsplit : Code.split '\x7d' (Token.next c).2.rest = some (inner, tail) := by
    rw [hrest]
    exact Code.split_balanced hinner tail
  simp [Item.read, hkind, hsplit]

/-- **An attribute** is read as itself, however it is written. -/
theorem Item.read_spelled {a : AttributeOutline} {s : Text} (hs : a.Spelled s)
    (h : c.rest.dropWhile Token.isSkipped = s ++ tail)
    (htail : a.isBare = true → EndsBefore tail) :
    ∃ r, Item.read c = .attribute r ∧ r.Gives Attribute.outline? a tail := by
  cases hs with
  | bare isName =>
    have hends := htail rfl
    obtain ⟨span, d, hread, rfl⟩ := Item.read_name h isName hends.name
    exact ⟨_, hread, Attribute.readNamed_bare ⟨span, _⟩ hends⟩
  | @quoted name link value quote isName isLink quote_eq free =>
    have hrest : c.rest.dropWhile Token.isSkipped =
        name ++ (link ++ quote :: (value ++ quote :: tail)) := by simpa using h
    obtain ⟨span, d, hread, hd⟩ := Item.read_name hrest isName (isLink.takeWhile_append _)
    exact ⟨_, hread, Attribute.readNamed_quoted ⟨span, name⟩ isLink quote_eq hd free⟩
  | @code name link inner isName isLink balanced =>
    have hrest : c.rest.dropWhile Token.isSkipped =
        name ++ (link ++ '\x7b' :: (inner ++ '\x7d' :: tail)) := by simpa using h
    obtain ⟨span, d, hread, hd⟩ := Item.read_name hrest isName (isLink.takeWhile_append _)
    exact ⟨_, hread, Attribute.readNamed_code ⟨span, name⟩ isLink hd balanced⟩
  | @spread code inner balanced trim =>
    obtain ⟨start, d, hread, hd⟩ := Item.read_braces (by simpa using h) balanced
    exact ⟨_, hread, Attribute.outline?_ofBraces_spread start hd trim, rfl,
      rest_advance_closing hd⟩
  | @shorthand name inner balanced trim not_spread =>
    obtain ⟨start, d, hread, hd⟩ := Item.read_braces (by simpa using h) balanced
    exact ⟨_, hread, Attribute.outline?_ofBraces_shorthand start hd trim not_spread, rfl,
      rest_advance_closing hd⟩

end StartTag

end Markup

end TsxLowering
