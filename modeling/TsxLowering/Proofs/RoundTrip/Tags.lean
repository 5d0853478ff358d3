import TsxLowering.Proofs.RoundTrip.Attributes

/-!
Tags, read back.

The attributes of a start tag are a row: each stands behind blanks, or behind nothing, in one of the
ways to write it. Such a row is read as the attributes in it exactly when no name in it, and not
that of the tag either, has another name right behind it that it goes on with. Printed attributes
are set off by a space each, so a printed start tag is read as itself, and so is a closing tag.
-/

namespace TsxLowering.Markup

variable {c : Cursor} {name tail : Text}

/-! ### Rows -/

/-- An attribute as it stands in a tag: the blanks before it, and one of the ways to write it. -/
structure Slot where
  gap : Text
  text : Text
  outline : AttributeOutline

namespace Slot

structure WellFormed (s : Slot) : Prop where
  gap : ∀ x ∈ s.gap, isBlank x = true
  spelled : s.outline.Spelled s.text

def print (s : Slot) : Text := s.gap ++ s.text

/-- The row starts with a name. -/
def startsWithName : List Slot → Bool
  | [] => false
  | s :: _ => s.gap.isEmpty && s.outline.startsWithName

/-- No name goes on with the next one. Right before the row there may be a name that would. -/
def apart : Bool → List Slot → Bool
  | _, [] => true
  | runsOn, s :: rest =>
    !(runsOn && startsWithName (s :: rest)) && apart s.outline.isBare rest

lemma apart_eq (runsOn : Bool) (slots : List Slot) :
    apart runsOn slots = (!(runsOn && startsWithName slots) && apart false slots) := by
  cases slots with
  | nil => simp [apart, startsWithName]
  | cons s rest => simp [apart]

lemma apart_of_gaps {slots : List Slot} (h : ∀ s ∈ slots, s.gap ≠ []) (runsOn : Bool) :
    apart runsOn slots = true := by
  induction slots generalizing runsOn with
  | nil => rfl
  | cons s rest ih =>
    obtain ⟨hs, hrest⟩ := List.forall_mem_cons.mp h
    simp [apart, startsWithName, hs, ih hrest]

end Slot

lemma AttributeOutline.Spelled.cases_head {a : AttributeOutline} {s : Text} (h : a.Spelled s) :
    (a.startsWithName = true ∧ ∃ x t, s = x :: t ∧ isNameChar x = true) ∨
      (a.startsWithName = false ∧ ∃ t, s = '\x7b' :: t) := by
  have hname {name : Text} (h : IsName name) (t : Text) :
      ∃ x u, name ++ t = x :: u ∧ isNameChar x = true := by
    obtain ⟨x, s, rfl, hx⟩ := h.exists_cons
    exact ⟨x, s ++ t, rfl, hx⟩
  cases h with
  | bare isName => exact .inl ⟨rfl, isName.exists_cons⟩
  | quoted isName => exact .inl ⟨rfl, hname isName _⟩
  | code isName => exact .inl ⟨rfl, hname isName _⟩
  | spread => exact .inr ⟨rfl, _, rfl⟩
  | shorthand => exact .inr ⟨rfl, _, rfl⟩

lemma AttributeOutline.Spelled.of_isBare {a : AttributeOutline} {s : Text} (h : a.Spelled s)
    (hbare : a.isBare = true) : a = .bare s ∧ IsName s := by
  cases h with
  | bare isName => exact ⟨rfl, isName⟩
  | quoted => cases hbare
  | code => cases hbare
  | spread => cases hbare
  | shorthand => cases hbare

lemma AttributeOutline.Spelled.dropWhile_append {a : AttributeOutline} {s : Text} (h : a.Spelled s)
    (tail : Text) : (s ++ tail).dropWhile Token.isSkipped = s ++ tail := by
  rcases h.cases_head with ⟨-, x, t, rfl, hx⟩ | ⟨-, t, rfl⟩
  · exact List.dropWhile_cons_of_neg (by simp [Token.isSkipped_of_isNameChar hx])
  · rfl

namespace StartTag

open Attribute (EndsBefore)

/-- How the last part of a start tag ends it, and what is left then. -/
inductive Stops : Ending → Text → Text → Prop
  | closed (blanks : Text) (blank : ∀ x ∈ blanks, isBlank x = true) (tail : Text) :
      Stops .closed (blanks ++ '>' :: tail) tail
  | selfClosing (blanks : Text) (blank : ∀ x ∈ blanks, isBlank x = true) (tail : Text) :
      Stops .selfClosing (blanks ++ '/' :: '>' :: tail) tail

variable {ending : Ending} {stop : Text} {slots : List Slot}

/-! ### What follows an attribute -/

lemma isNameChar_of_isBlank {x : Char} (h : isBlank x = true) : isNameChar x = false := by
  simp [isNameChar, h]

lemma lexeme_ne_equals {x : Char} (h : x ≠ '=') (s : Text) :
    (Token.lexeme (x :: s)).1 ≠ .equals := by
  unfold Token.lexeme
  split
  all_goals first | exact Token.Kind.noConfusion | skip
  · next heq => exact absurd (List.cons.inj heq).1 h
  · split <;> exact Token.Kind.noConfusion

lemma kind_ne_of_blanks {blanks t : Text} {x : Char} (hblanks : ∀ x ∈ blanks, isBlank x = true)
    (hx : x ≠ '=') (hskip : Token.isSkipped x = false) :
    (Token.lexeme ((blanks ++ x :: t).dropWhile Token.isSkipped)).1 ≠ .equals := by
  induction blanks with
  | nil =>
    rw [List.nil_append, List.dropWhile_cons_of_neg (by simp [hskip])]
    exact lexeme_ne_equals hx t
  | cons y blanks ih =>
    obtain ⟨hy, hblanks⟩ := List.forall_mem_cons.mp hblanks
    cases hyskip : Token.isSkipped y with
    | true =>
      rw [List.cons_append, List.dropWhile_cons_of_pos hyskip]
      exact ih hblanks
    | false =>
      rw [List.cons_append, List.dropWhile_cons_of_neg (by simp [hyskip])]
      refine lexeme_ne_equals ?_ _
      rintro rfl
      exact absurd hy (by decide)

lemma takeWhile_blanks {blanks t : Text} (hblanks : ∀ x ∈ blanks, isBlank x = true)
    (hne : blanks ≠ []) : (blanks ++ t).takeWhile isNameChar = [] := by
  obtain ⟨x, blanks, rfl⟩ := List.exists_cons_of_ne_nil hne
  exact List.takeWhile_cons_of_neg (by simp [isNameChar_of_isBlank (hblanks x (by simp))])

lemma endsBefore_of_blanks {blanks t : Text} {x : Char} (hblanks : ∀ x ∈ blanks, isBlank x = true)
    (hx : x ≠ '=') (hskip : Token.isSkipped x = false)
    (hname : blanks = [] → isNameChar x = false) : EndsBefore (blanks ++ x :: t) where
  name := by
    by_cases hnil : blanks = []
    · rw [hnil]
      exact List.takeWhile_cons_of_neg (by simp [hname hnil])
    · exact takeWhile_blanks hblanks hnil
  kind_ne := kind_ne_of_blanks hblanks hx hskip

lemma Stops.endsBefore (h : Stops ending stop tail) : EndsBefore stop := by
  cases h with
  | closed blanks blank => exact endsBefore_of_blanks blank (by decide) rfl fun _ => rfl
  | selfClosing blanks blank => exact endsBefore_of_blanks blank (by decide) rfl fun _ => rfl

lemma endsBefore_row (hs : ∀ s ∈ slots, s.WellFormed) (hstop : Stops ending stop tail)
    (h : Slot.startsWithName slots = false) : EndsBefore (slots.flatMap Slot.print ++ stop) := by
  cases slots with
  | nil => exact hstop.endsBefore
  | cons s rest =>
    obtain ⟨hgap, hspelled⟩ := hs s List.mem_cons_self
    rw [List.flatMap_cons, Slot.print, List.append_assoc, List.append_assoc]
    rcases hspelled.cases_head with ⟨hname, x, t, htext, hx⟩ | ⟨-, t, htext⟩
    · have hne : s.gap ≠ [] := by
        rintro hnil
        simp [Slot.startsWithName, hnil, hname] at h
      rw [htext]
      refine endsBefore_of_blanks hgap ?_ (Token.isSkipped_of_isNameChar hx) fun hnil =>
        absurd hnil hne
      rintro rfl
      exact absurd hx (by decide)
    · rw [htext]
      exact endsBefore_of_blanks hgap (by decide) rfl fun _ => rfl

lemma exists_nameChar_row (hs : ∀ s ∈ slots, s.WellFormed)
    (h : Slot.startsWithName slots = true) (stop : Text) :
    ∃ x t, slots.flatMap Slot.print ++ stop = x :: t ∧ isNameChar x = true := by
  cases slots with
  | nil => cases h
  | cons s rest =>
    obtain ⟨hgap, hname⟩ : s.gap = [] ∧ s.outline.startsWithName = true := by
      simpa [Slot.startsWithName] using h
    rcases (hs s List.mem_cons_self).spelled.cases_head with ⟨-, x, t, htext, hx⟩ | ⟨hbrace, -⟩
    · exact ⟨x, t ++ (rest.flatMap Slot.print ++ stop), by simp [Slot.print, hgap, htext], hx⟩
    · rw [hname] at hbrace
      cases hbrace

/-! ### Reading a row -/

lemma Tail.read_eq (last c : Cursor) :
    Tail.read last c =
      match Item.read c with
      | .attribute a => Tail.cons a (Tail.read a.next a.next)
      | .stray next => Tail.read last next
      | .tagEnd ending next => ⟨⟨[], ending⟩, [], next⟩
      | .missing diagnostics => ⟨⟨[], .unclosed⟩, diagnostics, last⟩ := by
  rw [Tail.read]
  split <;> rename_i heq <;> rw [heq]

lemma Item.read_skipped {x : Char} {s : Text} (h : c.rest = x :: s)
    (hx : Token.isSkipped x = true) : Item.read c = Item.read (c.advance 1) := by
  have hrest : (c.advance 1).rest = s := by rw [Cursor.rest_advance, h]; rfl
  have hskip : c.skipWhile Token.isSkipped = (c.advance 1).skipWhile Token.isSkipped := by
    rw [Cursor.skipWhile, Cursor.skipWhile, Cursor.advance_advance, hrest, h,
      List.takeWhile_cons_of_pos hx, List.length_cons, Nat.add_comm]
  have hend : c.atEnd = (c.advance 1).atEnd := by
    rw [Cursor.atEnd, Cursor.atEnd, Cursor.advance_advance, hrest, h, List.length_cons,
      Nat.add_comm]
  have hnext : Token.next c = Token.next (c.advance 1) := by
    simp only [Token.next, hskip]
  simp only [Item.read, hnext, hend]

lemma Item.read_blank {x : Char} {s : Text} (h : c.rest = x :: s) (hblank : isBlank x = true)
    (hx : Token.isSkipped x = false) : Item.read c = .stray (c.advance 1) := by
  have hskip : c.skipWhile Token.isSkipped = c := Cursor.skipWhile_of_rest h hx
  have hlexeme :
      Token.lexeme (x :: s) = (.lineBreak, 1) ∨ Token.lexeme (x :: s) = (.invalid, 1) := by
    unfold Token.lexeme
    split
    all_goals rename_i heq; cases heq
    all_goals first | exact absurd hblank (by decide) | skip
    · exact .inl rfl
    · exact .inr (if_neg (by simp [isNameChar_of_isBlank hblank]))
  rcases hlexeme with hlexeme | hlexeme <;>
    simp only [Item.read, Token.next, hskip, h, hlexeme]

lemma Tail.read_blanks {blanks s : Text} (last : Cursor) (h : c.rest = blanks ++ s)
    (hblanks : ∀ x ∈ blanks, isBlank x = true) :
    ∃ d : Cursor, d.rest = s ∧ Tail.read last c = Tail.read last d := by
  induction blanks generalizing c with
  | nil => exact ⟨c, h, rfl⟩
  | cons x blanks ih =>
    obtain ⟨hx, hblanks⟩ := List.forall_mem_cons.mp hblanks
    have hrest : (c.advance 1).rest = blanks ++ s := by rw [Cursor.rest_advance, h]; rfl
    obtain ⟨d, hd, hread⟩ := ih hrest hblanks
    refine ⟨d, hd, Eq.trans ?_ hread⟩
    cases hskip : Token.isSkipped x with
    | true => rw [Tail.read_eq, Item.read_skipped h hskip, ← Tail.read_eq]
    | false => rw [Tail.read_eq, Item.read_blank h hx hskip]

lemma Stops.read (h : Stops ending stop tail) (last : Cursor) (hc : c.rest = stop) :
    ∃ next, Tail.read last c = ⟨⟨[], ending⟩, [], next⟩ ∧ next.rest = tail := by
  cases h with
  | closed blanks blank =>
    obtain ⟨d, hd, hread⟩ := Tail.read_blanks last hc blank
    obtain ⟨hkind, -, hrest⟩ :=
      Token.next_of_lexeme (c := d) (t := ['>']) (k := .tagEnd) (by rw [hd]; rfl) rfl
    have hitem : Item.read d = .tagEnd .closed (Token.next d).2 := by simp [Item.read, hkind]
    exact ⟨_, by rw [hread, Tail.read_eq, hitem], hrest⟩
  | selfClosing blanks blank =>
    obtain ⟨d, hd, hread⟩ := Tail.read_blanks last hc blank
    obtain ⟨hkind, -, hrest⟩ :=
      Token.next_of_lexeme (c := d) (t := ['/', '>']) (k := .selfClosingEnd) (by rw [hd]; rfl) rfl
    have hitem : Item.read d = .tagEnd .selfClosing (Token.next d).2 := by simp [Item.read, hkind]
    exact ⟨_, by rw [hread, Tail.read_eq, hitem], hrest⟩

lemma Tail.read_slot {s : Slot} {rest : List Slot} (hs : ∀ t ∈ s :: rest, t.WellFormed)
    (hstop : Stops ending stop tail) (last : Cursor)
    (h : c.rest = (s :: rest).flatMap Slot.print ++ stop)
    (hapart : (s.outline.isBare && Slot.startsWithName rest) = false) :
    ∃ r, Tail.read last c = Tail.cons r (Tail.read r.next r.next) ∧
      r.Gives Attribute.outline? s.outline (rest.flatMap Slot.print ++ stop) := by
  obtain ⟨⟨hgap, hspelled⟩, hrest⟩ := List.forall_mem_cons.mp hs
  rw [List.flatMap_cons, Slot.print, List.append_assoc, List.append_assoc] at h
  obtain ⟨d, hd, hread⟩ := Tail.read_blanks last h hgap
  have htail : s.outline.isBare = true → EndsBefore (rest.flatMap Slot.print ++ stop) := by
    intro hbare
    rw [hbare, Bool.true_and] at hapart
    exact endsBefore_row hrest hstop hapart
  obtain ⟨r, hitem, hr⟩ := Item.read_spelled hspelled (by rw [hd, hspelled.dropWhile_append]) htail
  exact ⟨r, by rw [hread, Tail.read_eq, hitem], hr⟩

/-- **The attributes of a row** are read up to the end of the tag. -/
theorem Tail.read_row (hs : ∀ s ∈ slots, s.WellFormed) (hstop : Stops ending stop tail)
    (hapart : Slot.apart false slots = true) (last : Cursor)
    (h : c.rest = slots.flatMap Slot.print ++ stop) :
    (Tail.read last c).Gives (·.attributes.mapM Attribute.outline?) (slots.map Slot.outline) tail ∧
      (Tail.read last c).value.ending = ending := by
  induction slots generalizing c last with
  | nil =>
    obtain ⟨next, hread, hrest⟩ := hstop.read last h
    rw [hread]
    exact ⟨⟨rfl, rfl, hrest⟩, rfl⟩
  | cons s rest ih =>
    simp only [Slot.apart, Bool.false_and, Bool.not_false, Bool.true_and] at hapart
    rw [Slot.apart_eq, Bool.and_eq_true, Bool.not_eq_true'] at hapart
    obtain ⟨r, hread, hr⟩ := Tail.read_slot hs hstop last h hapart.1
    obtain ⟨hgives, hending⟩ := ih (List.forall_mem_cons.mp hs).2 hapart.2 r.next hr.rest
    rw [hread]
    refine ⟨⟨?_, ?_, hgives.rest⟩, hending⟩
    · simp [Tail.cons, hr.view_eq, hgives.view_eq]
    · simp [Tail.cons, hr.diagnostics, hgives.diagnostics]

lemma takeWhile_dropWhile (p : Char → Bool) (s : Text) : (s.dropWhile p).takeWhile p = [] := by
  induction s with
  | nil => rfl
  | cons x s ih => cases hx : p x <;> simp [hx, ih]

lemma Tail.read_joined (hname : IsName name) {x : Char} {t : Text} (hx : isNameChar x = true)
    (last : Cursor) (h : c.rest = name ++ x :: t) :
    ∃ r, Tail.read last c = Tail.cons r (Tail.read r.next r.next) ∧
      r.value.outline? ≠ some (.bare name) := by
  have hlonger : IsName (name ++ (x :: t).takeWhile isNameChar) :=
    ⟨by simp [hname.ne_nil],
      List.forall_mem_append.mpr ⟨hname.chars, List.all_eq_true.mp List.all_takeWhile⟩⟩
  have hrest : c.rest.dropWhile Token.isSkipped =
      name ++ (x :: t).takeWhile isNameChar ++ (x :: t).dropWhile isNameChar := by
    rw [List.append_assoc, List.takeWhile_append_dropWhile, h, Token.dropWhile_name hname]
  obtain ⟨span, d, hitem, -⟩ := Item.read_name hrest hlonger (takeWhile_dropWhile _ _)
  refine ⟨_, by rw [Tail.read_eq, hitem], fun hbare => ?_⟩
  -- the name goes on at least with `x`
  have hne : name ++ (x :: t).takeWhile isNameChar ≠ name := by
    rw [List.takeWhile_cons_of_pos hx]
    simp
  unfold Attribute.readNamed at hbare
  dsimp only at hbare
  split at hbare
  · cases hv : (Attribute.Value.read (Token.next d).2).value <;>
      simp_all [Attribute.outline?]
  · simp_all [Attribute.outline?]

/-- **Names that run together** are not read as those of the row. What else the attributes are read
as does not matter. -/
theorem Tail.apart_of_read (hs : ∀ s ∈ slots, s.WellFormed) (hstop : Stops ending stop tail)
    (last : Cursor) (h : c.rest = slots.flatMap Slot.print ++ stop)
    {outlines : List AttributeOutline}
    (hread : (Tail.read last c).value.attributes.mapM Attribute.outline? = some outlines)
    (hbare : List.Forall₂ (fun s o => s.outline.isBare = true → o = s.outline) slots outlines) :
    Slot.apart false slots = true := by
  induction slots generalizing c last outlines with
  | nil => rfl
  | cons s rest ih =>
    have hrest := (List.forall_mem_cons.mp hs).2
    cases hbare with
    | @cons _ o _ os ho hos =>
    simp only [Slot.apart, Bool.false_and, Bool.not_false, Bool.true_and]
    rw [Slot.apart_eq]
    cases hjoined : s.outline.isBare && Slot.startsWithName rest with
    | false =>
      obtain ⟨r, htail, hr⟩ := Tail.read_slot hs hstop last h hjoined
      rw [htail] at hread
      simp only [Tail.cons, List.mapM_cons, hr.view_eq, Option.pure_def, Option.bind_eq_bind,
        Option.bind_some, Option.bind_eq_some_iff] at hread
      obtain ⟨os', hos', heq⟩ := hread
      obtain ⟨rfl, rfl⟩ := List.cons.inj (Option.some.inj heq)
      exact ih hrest r.next hr.rest hos' hos
    | true =>
      obtain ⟨hname, hstarts⟩ := Bool.and_eq_true .. ▸ hjoined
      obtain ⟨x, t, ht, hx⟩ := exists_nameChar_row hrest hstarts stop
      obtain ⟨hgap, hspelled⟩ := hs s List.mem_cons_self
      rw [List.flatMap_cons, Slot.print, List.append_assoc, List.append_assoc, ht] at h
      -- the two names are read as one, which is longer than the one in the row
      obtain ⟨d, hd, hblanks⟩ := Tail.read_blanks last h hgap
      obtain ⟨houtline, isName⟩ := hspelled.of_isBare hname
      obtain ⟨r, htail, hr⟩ := Tail.read_joined isName hx last hd
      rw [hblanks, htail] at hread
      simp only [Tail.cons, List.mapM_cons, Option.pure_def, Option.bind_eq_bind,
        Option.bind_eq_some_iff] at hread
      obtain ⟨o', ho', os', -, heq⟩ := hread
      rw [(List.cons.inj (Option.some.inj heq)).1, ho hname, houtline] at ho'
      exact absurd ho' hr

/-! ### Start tags -/

lemma text_name_read {s : Text} (h : c.rest = '<' :: s) :
    (StartTag.read c).value.name.text = s.takeWhile isNameChar := by
  have hrest : (c.advance 1).rest = s := by rw [Cursor.rest_advance, h]; rfl
  have hsplit : (c.advance 1).rest = s.takeWhile isNameChar ++ s.dropWhile isNameChar := by
    rw [hrest, List.takeWhile_append_dropWhile]
  simp only [StartTag.read]
  exact Cursor.text_excerpt_of_rest hsplit (by rw [hrest])

/-- **A start tag** is read with its name, its attributes and its end. -/
theorem read_row (hname : ∀ x ∈ name, isNameChar x = true) (hs : ∀ s ∈ slots, s.WellFormed)
    (hstop : Stops ending stop tail) (hapart : Slot.apart true slots = true)
    (h : c.rest = '<' :: (name ++ (slots.flatMap Slot.print ++ stop))) :
    (StartTag.read c).Gives (·.attributes.mapM Attribute.outline?) (slots.map Slot.outline) tail ∧
      (StartTag.read c).value.name.text = name ∧ (StartTag.read c).value.ending = ending := by
  rw [Slot.apart_eq, Bool.true_and, Bool.and_eq_true, Bool.not_eq_true'] at hapart
  have hafter : (c.advance 1).rest = name ++ (slots.flatMap Slot.print ++ stop) := by
    rw [Cursor.rest_advance, h]
    rfl
  have htake : (c.advance 1).rest.takeWhile isNameChar = name := by
    rw [hafter, List.takeWhile_append_of_pos hname, (endsBefore_row hs hstop hapart.1).name,
      List.append_nil]
  have htext := Cursor.text_excerpt_of_rest hafter rfl
  obtain ⟨hgives, hending⟩ := Tail.read_row hs hstop hapart.2 ((c.advance 1).advance name.length)
    (Cursor.rest_advance_of_rest hafter rfl)
  simp only [StartTag.read, htake, htext, hending]
  refine ⟨⟨hgives.view_eq, ?_, hgives.rest⟩, trivial, trivial⟩
  -- only a tag without an end is reported
  cases hstop <;> simp [hgives.diagnostics]

/-- **Names that run together**, with the name of the tag or with each other, are read otherwise. -/
theorem apart_of_read (hname : ∀ x ∈ name, isNameChar x = true)
    (hs : ∀ s ∈ slots, s.WellFormed) (hstop : Stops ending stop tail)
    (h : c.rest = '<' :: (name ++ (slots.flatMap Slot.print ++ stop)))
    (htext : (StartTag.read c).value.name.text = name) {outlines : List AttributeOutline}
    (hread : (StartTag.read c).value.attributes.mapM Attribute.outline? = some outlines)
    (hbare : List.Forall₂ (fun s o => s.outline.isBare = true → o = s.outline) slots outlines) :
    Slot.apart true slots = true := by
  rw [text_name_read h, List.takeWhile_append_of_pos hname] at htext
  -- else the name of the tag would be longer
  have hstarts : Slot.startsWithName slots = false := by
    by_contra hstarts
    obtain ⟨x, t, ht, hx⟩ := exists_nameChar_row hs (by simpa using hstarts) stop
    rw [ht, List.takeWhile_cons_of_pos hx] at htext
    simp at htext
  have hafter : (c.advance 1).rest = name ++ (slots.flatMap Slot.print ++ stop) := by
    rw [Cursor.rest_advance, h]
    rfl
  have htake : (c.advance 1).rest.takeWhile isNameChar = name := by
    rw [hafter, List.takeWhile_append_of_pos hname, (endsBefore_row hs hstop hstarts).name,
      List.append_nil]
  simp only [StartTag.read, htake] at hread
  rw [Slot.apart_eq, hstarts, Bool.and_false, Bool.not_false, Bool.true_and]
  exact Tail.apart_of_read hs hstop _ (Cursor.rest_advance_of_rest hafter rfl) hread hbare

/-! ### Printed start tags -/

variable {attributes : List AttributeOutline}

/-- A printed attribute is one in a row, behind a space. -/
def printed (a : AttributeOutline) : Slot := ⟨[' '], a.print.tail, a⟩

lemma print_printed (a : AttributeOutline) : (printed a).print = a.print := by
  cases a <;> rfl

lemma printed_wellFormed {a : AttributeOutline} (h : a.WellFormed) : (printed a).WellFormed where
  gap := by simp [printed, isBlank]
  spelled := by
    have hlink : IsLink ['='] := ⟨[], [], rfl, by simp, by simp⟩
    cases a with
    | bare name => exact .bare h
    | quoted name value => simpa [printed, AttributeOutline.print] using
        AttributeOutline.Spelled.quoted h.1 hlink (.inl rfl) h.2
    | code name inner => simpa [printed, AttributeOutline.print] using
        AttributeOutline.Spelled.code h.1 hlink h.2
    | spread name =>
      have hsolid : ∀ x ∈ '.' :: '.' :: '.' :: name, isSolid x = true := by
        simpa [show isSolid '.' = true by decide] using (isIdentifier_solid h).1
      exact .spread (balanced_of_solid hsolid) (trim_of_solid hsolid)
    | shorthand name =>
      obtain ⟨hsolid, x, s, rfl, hx⟩ := isIdentifier_solid h
      refine .shorthand (balanced_of_solid hsolid) (trim_of_solid hsolid) fun hdots => hx ?_
      exact (List.cons_prefix_cons.mp hdots).1.symm

/-- **A printed start tag** is read with its name, its attributes and its end. -/
theorem read_print (hname : IsName name) (ha : ∀ a ∈ attributes, a.WellFormed)
    (hstop : Stops ending stop tail)
    (h : c.rest = '<' :: (name ++ (attributes.flatMap AttributeOutline.print ++ stop))) :
    (StartTag.read c).Gives (·.attributes.mapM Attribute.outline?) attributes tail ∧
      (StartTag.read c).value.name.text = name ∧ (StartTag.read c).value.ending = ending := by
  have hprint : attributes.flatMap AttributeOutline.print =
      (attributes.map printed).flatMap Slot.print := by
    simp only [List.flatMap_map, print_printed]
  have hs : ∀ s ∈ attributes.map printed, s.WellFormed :=
    List.forall_mem_map.mpr fun a h => printed_wellFormed (ha a h)
  have hapart : Slot.apart true (attributes.map printed) = true :=
    Slot.apart_of_gaps (List.forall_mem_map.mpr fun a _ => List.cons_ne_nil _ _) true
  rw [hprint] at h
  have hread := read_row hname.chars hs hstop hapart h
  rwa [List.map_map, show Slot.outline ∘ printed = id from rfl, List.map_id] at hread

end StartTag

/-! ### Tags without attributes -/

lemma Token.next_tagEnd (h : c.rest = '>' :: tail) :
    (Token.next c).1.kind = .tagEnd ∧ (Token.next c).2 = ⟨c.pos + 1, tail⟩ := by
  have hskip : c.skipWhile Token.isSkipped = c := by simp [Cursor.skipWhile, h, Token.isSkipped]
  simp only [Token.next, hskip, h]
  exact ⟨rfl, Cursor.advance_one_of_rest h⟩

/-- **A start tag without attributes** is read up to its end. -/
theorem StartTag.read_name (hname : IsName name) (h : c.rest = '<' :: (name ++ '>' :: tail)) :
    StartTag.read c =
      ⟨⟨⟨c.pos, c.pos + (name.size + 2)⟩, ⟨⟨c.pos + 1, c.pos + (name.size + 1)⟩, name⟩, [],
        .closed⟩, [], ⟨c.pos + (name.size + 2), tail⟩⟩ := by
  have hopen : c.advance 1 = ⟨c.pos + 1, name ++ '>' :: tail⟩ := Cursor.advance_one_of_rest h
  have hafter : Cursor.advance ⟨c.pos + 1, name ++ '>' :: tail⟩ name.length =
      ⟨c.pos + (name.size + 1), '>' :: tail⟩ := by
    rw [Cursor.advance_eq_of_rest rfl, Nat.add_assoc, Nat.add_comm 1]
  obtain ⟨hkind, hnext⟩ := Token.next_tagEnd (c := ⟨c.pos + (name.size + 1), '>' :: tail⟩) rfl
  have hitem : Item.read ⟨c.pos + (name.size + 1), '>' :: tail⟩ =
      .tagEnd .closed ⟨c.pos + (name.size + 2), tail⟩ := by
    simp [Item.read, hkind, hnext, Nat.add_assoc]
  have hread (last : Cursor) : Tail.read last ⟨c.pos + (name.size + 1), '>' :: tail⟩ =
      ⟨⟨[], .closed⟩, [], ⟨c.pos + (name.size + 2), tail⟩⟩ := by
    rw [Tail.read_eq, hitem]
  have htake : (name ++ '>' :: tail).takeWhile isNameChar = name := hname.takeWhile_append rfl
  simp only [StartTag.read, hopen, htake, hafter, hread, Cursor.excerpt, Cursor.spanTo,
    List.take_left, List.append_nil]

/-- **A closing tag** is read up to its end. -/
theorem ClosingTag.read_name (hname : IsName name)
    (h : c.rest = '<' :: '/' :: (name ++ '>' :: tail)) :
    ClosingTag.read c =
      (⟨name, ⟨c.pos, c.pos + (name.size + 3)⟩⟩, ⟨c.pos + (name.size + 3), tail⟩) := by
  have hopen : c.advance 2 = ⟨c.pos + 2, name ++ '>' :: tail⟩ :=
    Cursor.advance_eq_of_rest (t := ['<', '/']) h
  have hafter : Cursor.advance ⟨c.pos + 2, name ++ '>' :: tail⟩ name.length =
      ⟨c.pos + (name.size + 2), '>' :: tail⟩ := by
    rw [Cursor.advance_eq_of_rest rfl, Nat.add_assoc, Nat.add_comm 2]
  obtain ⟨hkind, hnext⟩ := Token.next_tagEnd (c := ⟨c.pos + (name.size + 2), '>' :: tail⟩) rfl
  have htake : (name ++ '>' :: tail).takeWhile isNameChar = name := hname.takeWhile_append rfl
  simp only [ClosingTag.read, hopen, htake, hafter, hkind, hnext, Cursor.spanTo, Nat.add_assoc,
    Nat.reduceAdd]

end TsxLowering.Markup
