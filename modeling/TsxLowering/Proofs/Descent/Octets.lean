import TsxLowering.Proofs.ClosingTags
import TsxLowering.Proofs.Descent.Literals
import TsxLowering.Proofs.LineBytes

/-!
Literals, names and tags in the bytes of a text.

A byte string is a text of characters below 256. All characters that mean something to a scan of
code are in ASCII, where a character is one byte, and the bytes of all others are outside of ASCII.
So what a scan looks for begins and ends in the bytes where it does in the text.
-/

namespace TsxLowering

namespace Text

/-- A byte string as a text, with a character for each byte. -/
def ofBytes (bytes : List UInt8) : Text := bytes.map Char.ofUInt8

/-- The UTF-8 form, with a character for each byte. -/
def octets (s : Text) : Text := ofBytes s.bytes

/-- The offset in bytes of the character `n`. -/
def byteOffset (s : Text) (n : Nat) : Nat := size (s.take n)

lemma byteOffset_cons (c : Char) (s : Text) (n : Nat) :
    byteOffset (c :: s) (n + 1) = c.utf8Size + byteOffset s n := by
  rw [byteOffset, List.take_succ_cons, size_cons, byteOffset]

lemma byteOffset_takeWhile (p : Char → Bool) (s : Text) :
    byteOffset s (s.takeWhile p).length = size (s.takeWhile p) := by
  rw [byteOffset, ← List.prefix_iff_eq_take.mp (List.takeWhile_prefix p)]

end Text

namespace Code

open Text (octets byteOffset)
open Markup (startsTagName isVoidName)

variable {s : Text} {c : Char}

/-! ### Characters outside of ASCII -/

def isHigh (c : Char) : Bool := 0x80 ≤ c.toNat

lemma ne_of_isHigh {x y : Char} (hx : isHigh x = true) (hy : isHigh y = false) : x ≠ y := by
  rintro rfl
  cases hx.symm.trans hy

lemma isAlphanum_of_isHigh {x : Char} (h : isHigh x = true) : x.isAlphanum = false := by
  have hx : 0x80 ≤ x.val.toNat := of_decide_eq_true h
  have hnot {y : Char} (hy : y.val.toNat < 0x80) : ¬ x.val ≤ y.val := by
    rw [UInt32.le_iff_toNat_le]
    omega
  refine Bool.eq_false_iff.mpr fun hword => ?_
  change (decide (x.val ≥ 'A'.val ∧ x.val ≤ 'Z'.val) ||
    (decide (x.val ≥ 'a'.val) && decide (x.val ≤ 'z'.val)) ||
    (decide (x.val ≥ '0'.val) && decide (x.val ≤ '9'.val))) = true at hword
  simp only [Bool.or_eq_true, Bool.and_eq_true, decide_eq_true_eq] at hword
  rcases hword with (⟨-, h⟩ | ⟨-, h⟩) | ⟨-, h⟩
  all_goals exact hnot (by decide) h

lemma isAlpha_of_isHigh {x : Char} (h : isHigh x = true) : x.isAlpha = false :=
  (Bool.or_eq_false_iff.mp (isAlphanum_of_isHigh h)).1

lemma isAsciiBlank_of_isHigh {x : Char} (h : isHigh x = true) : isAsciiBlank x = false := by
  by_contra hblank
  simp only [isAsciiBlank, Bool.not_eq_false, Bool.or_eq_true, beq_iff_eq] at hblank
  rcases hblank with (((rfl | rfl) | rfl) | rfl) | rfl
  all_goals cases h

lemma isPrefixOf?_cons_of_isHigh {x y : Char} (hx : isHigh x = true) (hy : isHigh y = false)
    (pattern s : Text) : (y :: pattern).isPrefixOf? (x :: s) = none :=
  if_neg (ne_true_of_eq_false (beq_false_of_ne (ne_of_isHigh hx hy).symm))

/-- Each character is spelled by itself if it is in ASCII, and otherwise by others outside of it. -/
structure Spells (f : Char → Text) : Prop where
  ascii : ∀ {c}, isHigh c = false → f c = [c]
  high : ∀ {c}, isHigh c = true → (f c).all isHigh = true
  ne_nil : ∀ c, f c ≠ []

section spells

variable {f : Char → Text}

lemma Spells.reverse (hf : Spells f) : Spells fun c => (f c).reverse where
  ascii hc := by rw [hf.ascii hc, List.reverse_singleton]
  high hc := by rw [List.all_reverse, hf.high hc]
  ne_nil c := by simpa using hf.ne_nil c

lemma Spells.exists_cons (hf : Spells f) (hc : isHigh c = true) :
    ∃ x l, f c = x :: l ∧ isHigh x = true := by
  obtain ⟨x, l, hspelled⟩ := List.exists_cons_of_ne_nil (hf.ne_nil c)
  have hall := hf.high hc
  rw [hspelled, List.all_cons, Bool.and_eq_true] at hall
  exact ⟨x, l, hspelled, hall.1⟩

lemma Spells.takeWhile (hf : Spells f) {p : Char → Bool} {b : Bool}
    (hp : ∀ x, isHigh x = true → p x = b) (s : Text) :
    (s.flatMap f).takeWhile p = (s.takeWhile p).flatMap f := by
  induction s with
  | nil => rfl
  | cons c s ih =>
    rw [List.flatMap_cons, List.takeWhile_cons]
    cases hc : isHigh c with
    | false =>
      rw [hf.ascii hc, List.singleton_append, List.takeWhile_cons, ih]
      split
      · rw [List.flatMap_cons, hf.ascii hc, List.singleton_append]
      · rfl
    | true =>
      -- `p` takes all bytes of the character, or stops before the first
      rw [hp c hc]
      cases b with
      | true =>
        rw [List.takeWhile_append_of_pos fun y hy => hp y (List.all_eq_true.mp (hf.high hc) y hy),
          ih, if_pos rfl, List.flatMap_cons]
      | false =>
        obtain ⟨x, l, hspelled, hx⟩ := hf.exists_cons hc
        rw [hspelled, List.cons_append, List.takeWhile_cons, hp x hx]
        rfl

lemma Spells.dropWhile (hf : Spells f) {p : Char → Bool} (hp : ∀ x, isHigh x = true → p x = false)
    (s : Text) : (s.flatMap f).dropWhile p = (s.dropWhile p).flatMap f := by
  induction s with
  | nil => rfl
  | cons c s ih =>
    rw [List.flatMap_cons, List.dropWhile_cons]
    cases hc : isHigh c with
    | false =>
      rw [hf.ascii hc, List.singleton_append, List.dropWhile_cons, ih]
      split
      · rfl
      · rw [List.flatMap_cons, hf.ascii hc, List.singleton_append]
    | true =>
      obtain ⟨x, l, hspelled, hx⟩ := hf.exists_cons hc
      rw [hp c hc, hspelled, List.cons_append, List.dropWhile_cons, hp x hx]
      simp [hspelled]

lemma Spells.isPrefixOf? (hf : Spells f) {pattern : Text} (hp : pattern.all (!isHigh ·) = true)
    (s : Text) : pattern.isPrefixOf? (s.flatMap f) = (pattern.isPrefixOf? s).map (·.flatMap f) := by
  induction pattern generalizing s with
  | nil => rfl
  | cons y pattern ih =>
    rw [List.all_cons, Bool.and_eq_true, Bool.not_eq_true'] at hp
    cases s with
    | nil => rfl
    | cons c s =>
      rw [List.flatMap_cons]
      cases hc : isHigh c with
      | false =>
        rw [hf.ascii hc, List.singleton_append]
        change (if y == c then pattern.isPrefixOf? (s.flatMap f) else none) =
          (if y == c then pattern.isPrefixOf? s else none).map (·.flatMap f)
        rw [ih hp.2]
        split <;> rfl
      | true =>
        -- a pattern in ASCII begins neither with the character nor with its first byte
        obtain ⟨x, l, hspelled, hx⟩ := hf.exists_cons hc
        rw [hspelled, List.cons_append, isPrefixOf?_cons_of_isHigh hx hp.1,
          isPrefixOf?_cons_of_isHigh hc hp.1]
        rfl

end spells

/-! ### Bytes -/

lemma octets_eq (s : Text) : octets s = s.flatMap fun c => octets [c] := by
  simp [octets, Text.ofBytes, Text.bytes, List.map_flatMap]

lemma octets_append (s t : Text) : octets (s ++ t) = octets s ++ octets t := by
  rw [octets_eq, List.flatMap_append, ← octets_eq, ← octets_eq]

lemma octets_cons (c : Char) (s : Text) : octets (c :: s) = octets [c] ++ octets s :=
  octets_append [c] s

lemma length_octets (s : Text) : (octets s).length = s.size := by
  rw [octets, Text.ofBytes, List.length_map, Text.length_bytes]

lemma octets_singleton (h : isHigh c = false) : octets [c] = [c] := by
  have hc : c.val.toNat < 0x80 := by simpa [isHigh] using h
  have hsize : c.utf8Size = 1 := by
    rw [Char.utf8Size_eq_one_iff, UInt32.le_iff_toNat_le]
    exact Nat.le_of_lt_succ hc
  have hbytes : Text.bytes [c] = [c.val.toUInt8] := by
    rw [Text.bytes, List.flatMap_singleton, String.utf8EncodeChar_eq_singleton hsize]
  rw [octets, hbytes, Text.ofBytes, List.map_singleton, List.cons.injEq, Char.ext_iff]
  refine ⟨UInt32.toNat_inj.mp ?_, rfl⟩
  change c.val.toNat % 256 = c.val.toNat
  omega

lemma all_isHigh_octets (h : isHigh c = true) : (octets [c]).all isHigh = true := by
  have hc : ¬ c.val.toNat < 0x80 := by simpa [isHigh] using h
  have hbyte {n : Nat} (hn : 0x80 ≤ n % 256) : isHigh (Char.ofUInt8 (UInt8.ofNat n)) = true :=
    decide_eq_true hn
  rw [octets, Text.ofBytes, Text.bytes, List.flatMap_singleton, List.all_map]
  unfold String.utf8EncodeChar
  dsimp only
  split
  · omega
  split
  · simp only [List.all_cons, Function.comp_apply, List.all_nil, Bool.and_true, Bool.and_eq_true]
    exact ⟨hbyte (by omega), hbyte (by omega)⟩
  split
  · simp only [List.all_cons, Function.comp_apply, List.all_nil, Bool.and_true, Bool.and_eq_true]
    exact ⟨hbyte (by omega), hbyte (by omega), hbyte (by omega)⟩
  · simp only [List.all_cons, Function.comp_apply, List.all_nil, Bool.and_true, Bool.and_eq_true]
    exact ⟨hbyte (by omega), hbyte (by omega), hbyte (by omega), hbyte (by omega)⟩

lemma octets_ne_nil (c : Char) : octets [c] ≠ [] := by
  refine List.ne_nil_of_length_pos ?_
  rw [length_octets, Text.size_cons]
  exact Nat.add_pos_left c.utf8Size_pos _

lemma spells_octets : Spells fun c => octets [c] :=
  ⟨octets_singleton, all_isHigh_octets, octets_ne_nil⟩

lemma octets_cons_ascii (h : isHigh c = false) (s : Text) : octets (c :: s) = c :: octets s := by
  rw [octets_cons, octets_singleton h, List.singleton_append]

lemma octets_of_ascii (h : ∀ c ∈ s, isHigh c = false) : octets s = s := by
  induction s with
  | nil => rfl
  | cons c s ih =>
    rw [List.forall_mem_cons] at h
    rw [octets_cons_ascii h.1, ih h.2]

lemma utf8Size_of_ascii (h : isHigh c = false) : c.utf8Size = 1 := by
  have hlength := length_octets [c]
  rw [octets_singleton h] at hlength
  simpa using hlength.symm

lemma size_of_ascii (h : ∀ c ∈ s, isHigh c = false) : s.size = s.length := by
  rw [← length_octets, octets_of_ascii h]

lemma exists_octets_cons (c : Char) :
    ∃ x l, octets [c] = x :: l ∧ l.all isHigh = true ∧ l.length + 1 = c.utf8Size := by
  have hlength := length_octets [c]
  obtain ⟨x, l, hoctets⟩ := List.exists_cons_of_ne_nil (octets_ne_nil c)
  refine ⟨x, l, hoctets, ?_, by simpa [hoctets] using hlength⟩
  cases hc : isHigh c with
  | false =>
    obtain ⟨-, rfl⟩ := List.cons.inj (hoctets.symm.trans (octets_singleton hc))
    rfl
  | true =>
    have hall := all_isHigh_octets hc
    rw [hoctets, List.all_cons, Bool.and_eq_true] at hall
    exact hall.2

lemma takeWhile_octets {p : Char → Bool} {b : Bool} (hp : ∀ x, isHigh x = true → p x = b)
    (s : Text) : (octets s).takeWhile p = octets (s.takeWhile p) := by
  rw [octets_eq, spells_octets.takeWhile hp, ← octets_eq]

/-! ### What is searched for -/

lemma splitOnce_high {y : Char} {pattern l : Text} (hy : isHigh y = false)
    (hl : l.all isHigh = true) (t : Text) :
    (l ++ t).splitOnce (y :: pattern) =
      (t.splitOnce (y :: pattern)).map fun (before, rest) => (l ++ before, rest) := by
  induction l with
  | nil => simp
  | cons x l ih =>
    rw [List.all_cons, Bool.and_eq_true] at hl
    rw [List.cons_append, Text.splitOnce, isPrefixOf?_cons_of_isHigh hl.1 hy]
    simp only [ih hl.2, Option.map_map]
    rfl

lemma splitOnce_octets {y : Char} {pattern : Text} (hp : (y :: pattern).all (!isHigh ·) = true)
    (s : Text) : (octets s).splitOnce (y :: pattern) =
      (s.splitOnce (y :: pattern)).map fun (before, rest) => (octets before, octets rest) := by
  have hy : isHigh y = false := by
    rw [List.all_cons, Bool.and_eq_true, Bool.not_eq_true'] at hp
    exact hp.1
  induction s with
  | nil => rfl
  | cons c s ih =>
    cases hc : isHigh c with
    | false =>
      have hstarts : (y :: pattern).isPrefixOf? (octets (c :: s)) =
          ((y :: pattern).isPrefixOf? (c :: s)).map octets := by
        rw [octets_eq, spells_octets.isPrefixOf? hp]
        simp only [← octets_eq]
      rw [octets_cons_ascii hc] at hstarts ⊢
      rw [Text.splitOnce, Text.splitOnce, hstarts, ih]
      cases (y :: pattern).isPrefixOf? (c :: s) with
      | some rest => rfl
      | none =>
        cases Text.splitOnce s (y :: pattern) with
        | none => rfl
        | some r => simp [octets_cons_ascii hc]
    | true =>
      -- no occurrence begins among the bytes of the character
      rw [octets_cons, splitOnce_high hy (all_isHigh_octets hc), ih, Text.splitOnce,
        isPrefixOf?_cons_of_isHigh hc hy]
      cases Text.splitOnce s (y :: pattern) with
      | none => rfl
      | some r => exact congrArg (fun t => some (t, octets r.2)) (octets_cons c r.1).symm

/-- Induction over a text in which a backslash takes the character behind it along. -/
lemma escape_induction {P : Text → Prop} (nil : P []) (backslash : P ['\\'])
    (escape : ∀ c s, P s → P ('\\' :: c :: s)) (cons : ∀ c s, c ≠ '\\' → P s → P (c :: s))
    (s : Text) : P s := by
  induction s using List.twoStepInduction with
  | nil => exact nil
  | singleton c =>
    by_cases hc : c = '\\'
    · exact hc ▸ backslash
    · exact cons c [] hc nil
  | cons_cons c d s ih ih' =>
    by_cases hc : c = '\\'
    · exact hc ▸ escape d s ih
    · exact cons c (d :: s) hc (ih' d)

lemma quotedLength_high {quote : Char} {l : Text} (hquote : isHigh quote = false)
    (hl : l.all isHigh = true) (t : Text) :
    quotedLength quote (l ++ t) = (quotedLength quote t).map (· + l.length) := by
  induction l with
  | nil => simp
  | cons x l ih =>
    rw [List.all_cons, Bool.and_eq_true] at hl
    have hescape : x ≠ '\\' := ne_of_isHigh hl.1 rfl
    have hline : x ≠ '\n' := ne_of_isHigh hl.1 rfl
    simp [quotedLength, hescape, hline, ne_of_isHigh hl.1 hquote, ih hl.2, Option.map_map,
      Function.comp_def, Nat.add_assoc]

lemma quotedLength_octets {quote : Char} (hquote : quote = '"' ∨ quote = '\'') (s : Text) :
    quotedLength quote (octets s) = (quotedLength quote s).map (byteOffset s) := by
  have hhigh : isHigh quote = false := by rcases hquote with rfl | rfl <;> rfl
  have hbacktick : quote ≠ '`' := by rcases hquote with rfl | rfl <;> decide
  have hbackslash : quote ≠ '\\' := by rcases hquote with rfl | rfl <;> decide
  induction s using escape_induction with
  | nil => rfl
  | backslash =>
    rw [octets_singleton rfl, Descent.quotedLength_backslash hbackslash]
    rfl
  | escape d s ih =>
    -- the backslash hides one byte only, but the others mean nothing in a string
    obtain ⟨x, l, hoctets, hl, hsize⟩ := exists_octets_cons d
    rw [octets_cons_ascii rfl, octets_cons, hoctets, List.cons_append, quotedLength, quotedLength,
      quotedLength_high hhigh hl, ih]
    simp only [Option.map_map]
    congr 1
    funext n
    have hone : '\\'.utf8Size = 1 := rfl
    simp only [Function.comp_apply, Text.byteOffset_cons, hone, ← hsize]
    omega
  | cons c s hc ih =>
    rw [Descent.quotedLength_cons hbacktick hc]
    cases hhigh' : isHigh c with
    | false =>
      rw [octets_cons_ascii hhigh', Descent.quotedLength_cons hbacktick hc, ih]
      split
      · simp [byteOffset, utf8Size_of_ascii hhigh']
      · split
        · rfl
        · simp [Function.comp_def, Text.byteOffset_cons, utf8Size_of_ascii hhigh', Nat.add_comm]
    | true =>
      rw [octets_cons, quotedLength_high hhigh (all_isHigh_octets hhigh'), ih,
        if_neg (ne_of_isHigh hhigh' hhigh), if_neg (ne_of_isHigh hhigh' rfl), length_octets]
      simp [Function.comp_def, Text.byteOffset_cons, Nat.add_comm]

lemma lineCommentLength_octets (s : Text) :
    lineCommentLength (octets s) = byteOffset s (lineCommentLength s) := by
  have hhigh (x : Char) (hx : isHigh x = true) : (x != '\n') = true :=
    bne_iff_ne.mpr (ne_of_isHigh hx rfl)
  rw [lineCommentLength, takeWhile_octets hhigh, length_octets, lineCommentLength,
    Text.byteOffset_takeWhile]

lemma lengthPast_octets {y : Char} {pattern : Text} (hp : (y :: pattern).all (!isHigh ·) = true)
    (s : Text) : Descent.lengthPast (y :: pattern) (octets s) =
      (Descent.lengthPast (y :: pattern) s).map (byteOffset s) := by
  rw [Descent.lengthPast, splitOnce_octets hp, Descent.lengthPast]
  cases hsplit : s.splitOnce (y :: pattern) with
  | none => rfl
  | some r =>
    obtain ⟨body, after⟩ := r
    have htake : s.take (body.length + (y :: pattern).length) = body ++ y :: pattern := by
      rw [Text.append_of_splitOnce hsplit, ← List.append_assoc]
      exact List.take_left' (by simp)
    have hascii : ∀ c ∈ y :: pattern, isHigh c = false := by simpa using hp
    simp only [Option.map_some, byteOffset, htake, Text.size_append, length_octets,
      size_of_ascii hascii]

lemma regexLength_high {l : Text} (hl : l.all isHigh = true) (inClass : Bool) (t : Text) :
    regexLength inClass (l ++ t) = (regexLength inClass t).map (· + l.length) := by
  induction l with
  | nil => simp
  | cons x l ih =>
    rw [List.all_cons, Bool.and_eq_true] at hl
    have hescape : x ≠ '\\' := ne_of_isHigh hl.1 rfl
    have hslash : x ≠ '/' := ne_of_isHigh hl.1 rfl
    have hline : x ≠ '\n' := ne_of_isHigh hl.1 rfl
    have hopen : x ≠ '[' := ne_of_isHigh hl.1 rfl
    have hclose : x ≠ ']' := ne_of_isHigh hl.1 rfl
    simp [regexLength, hescape, hslash, hline, hopen, hclose, ih hl.2, Option.map_map,
      Function.comp_def, Nat.add_assoc]

lemma regexLength_octets (inClass : Bool) (s : Text) :
    regexLength inClass (octets s) = (regexLength inClass s).map (byteOffset s) := by
  induction s using escape_induction generalizing inClass with
  | nil => rfl
  | backslash => rfl
  | escape d s ih =>
    obtain ⟨x, l, hoctets, hl, hsize⟩ := exists_octets_cons d
    rw [octets_cons_ascii rfl, octets_cons, hoctets, List.cons_append, regexLength, regexLength,
      regexLength_high hl, ih]
    simp only [Option.map_map]
    congr 1
    funext n
    have hone : '\\'.utf8Size = 1 := rfl
    simp only [Function.comp_apply, Text.byteOffset_cons, hone, ← hsize]
    omega
  | cons c s hc ih =>
    rw [Descent.regexLength_cons _ hc]
    cases hhigh : isHigh c with
    | false =>
      rw [octets_cons_ascii hhigh, Descent.regexLength_cons _ hc, ih]
      split
      · -- the flags behind the slash are letters of ASCII
        rw [takeWhile_octets fun x hx => isAlpha_of_isHigh hx, length_octets, Option.map_some,
          Nat.add_comm 1 (List.length _), Text.byteOffset_cons, Text.byteOffset_takeWhile,
          utf8Size_of_ascii hhigh]
      · split
        · rfl
        · simp [Function.comp_def, Text.byteOffset_cons, utf8Size_of_ascii hhigh, Nat.add_comm]
    | true =>
      have hslash : c ≠ '/' := ne_of_isHigh hhigh rfl
      have hline : c ≠ '\n' := ne_of_isHigh hhigh rfl
      have hopen : c ≠ '[' := ne_of_isHigh hhigh rfl
      have hclose : c ≠ ']' := ne_of_isHigh hhigh rfl
      rw [octets_cons, regexLength_high (all_isHigh_octets hhigh), ih, length_octets]
      simp [Function.comp_def, Text.byteOffset_cons, Nat.add_comm, hslash, hline, hopen, hclose]

/-! ### Tags -/

lemma startsTagName_octets (s : Text) : startsTagName (octets s) = startsTagName s := by
  cases s with
  | nil => rfl
  | cons c s =>
    cases hc : isHigh c with
    | false =>
      rw [octets_cons_ascii hc]
      rfl
    | true =>
      obtain ⟨x, l, hoctets, hx⟩ := spells_octets.exists_cons hc
      have hstarts {y : Char} (hy : isHigh y = true) (t : Text) :
          startsTagName (y :: t) = true := by
        rw [startsTagName, Bool.or_eq_true]
        exact .inr hy
      rw [octets_cons, hoctets, List.cons_append, hstarts hx, hstarts hc]

lemma tagName_octets (s : Text) : tagName (octets s) = octets (tagName s) := by
  refine takeWhile_octets (b := true) (fun x hx => ?_) s
  rw [isAsciiBlank_of_isHigh hx, beq_false_of_ne (ne_of_isHigh hx rfl),
    beq_false_of_ne (ne_of_isHigh hx rfl), beq_false_of_ne (ne_of_isHigh hx rfl)]
  rfl

lemma isVoidName_octets (name : Text) : isVoidName (octets name) = isVoidName name := by
  have hword {t : Text} {x : Char} (hx : x ∈ t) (hhigh : isHigh x = true) :
      isVoidName t = false := by
    by_contra hvoid
    have halpha := (Markup.isAlpha_of_special (.inl (Bool.not_eq_false _ ▸ hvoid))).2 x hx
    cases (isAlpha_of_isHigh hhigh).symm.trans halpha
  by_cases hascii : ∀ c ∈ name, isHigh c = false
  · rw [octets_of_ascii hascii]
  · push Not at hascii
    obtain ⟨c, hc, hhigh⟩ := hascii
    rw [ne_eq, Bool.not_eq_false] at hhigh
    obtain ⟨x, l, hoctets, hx⟩ := spells_octets.exists_cons hhigh
    have hmem : x ∈ octets name := by
      rw [octets_eq, List.mem_flatMap]
      exact ⟨c, hc, hoctets ▸ List.mem_cons_self⟩
    rw [hword hmem hx, hword hc hhigh]

lemma followsReturn_octets (before : Text) :
    followsReturn (octets before.reverse).reverse = followsReturn before := by
  have hspells := spells_octets.reverse
  have hreverse : (octets before.reverse).reverse =
      before.flatMap fun c => (octets [c]).reverse := by
    rw [octets_eq, List.reverse_flatMap, List.reverse_reverse]
    rfl
  rw [followsReturn, hreverse, hspells.dropWhile fun x hx => isAsciiBlank_of_isHigh hx,
    hspells.isPrefixOf? (by decide), followsReturn]
  cases ['n', 'r', 'u', 't', 'e', 'r'].isPrefixOf? (before.dropWhile isAsciiBlank) with
  | none => rfl
  | some rest =>
    cases rest with
    | nil => rfl
    | cons c rest =>
      rw [Option.map_some, List.flatMap_cons]
      cases hc : isHigh c with
      | false => rw [hspells.ascii hc, List.singleton_append]
      | true =>
        obtain ⟨x, l, hspelled, hx⟩ := hspells.exists_cons hc
        -- the last byte of a character ends a word as the character does
        have hword {y : Char} (hy : isHigh y = true) :
            (y.isAlphanum || y == '_' || y == '$') = false := by
          rw [isAlphanum_of_isHigh hy, beq_false_of_ne (ne_of_isHigh hy rfl),
            beq_false_of_ne (ne_of_isHigh hy rfl)]
          rfl
        rw [hspelled, List.cons_append]
        dsimp only
        rw [hword hx, hword hc]

end Code

end TsxLowering
