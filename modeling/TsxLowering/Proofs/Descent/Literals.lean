import Mathlib.Tactic.Lemma
import TsxLowering.Proofs.Boundary
import TsxLowering.Proofs.Descent.Scanners
import TsxLowering.Proofs.TrimmedCode.Steps

/-!
Strings, comments and regular expressions, scanned by offsets.

Each of these scanners ends inside the text, and at the offset that the lengths of the one-pass scan
give.
-/

namespace TsxLowering.Code.Descent

open Text (stringRest stringEnd regexRest regexEnd)

/-- The scan ends without fault. If it meets the end of the text, then `fails` holds, and otherwise
`gives` holds of its result. -/
inductive Meets {α : Type} (fails : Prop) (gives : α → Prop) : Scan α → Prop
  | failure (h : fails) : Meets fails gives failure
  | pure (a : α) (h : gives a) : Meets fails gives (pure a)

section meets

variable {α β : Type} {fails fails' : Prop} {gives : α → Prop} {x : Scan α}

lemma Meets.mono {gives' : α → Prop} (h : Meets fails gives x) (hfails : fails → fails')
    (hgives : ∀ a, gives a → gives' a) : Meets fails' gives' x := by
  cases h with
  | failure h => exact .failure (hfails h)
  | pure a h => exact .pure a (hgives a h)

lemma Meets.bind {gives' : β → Prop} {f : α → Scan β} (h : Meets fails gives x)
    (hfails : fails → fails') (hgives : ∀ a, gives a → Meets fails' gives' (f a)) :
    Meets fails' gives' (x >>= f) := by
  cases h with
  | failure h => exact .failure (hfails h)
  | pure a h =>
    rw [pure_bind]
    exact hgives a h

end meets

variable {s : Text} {i : Nat} {c : Char}

/-- Induction from the end of a text of `n` characters to its start. -/
lemma offset_induction (n : Nat) {P : Nat → Prop} (hend : ∀ i, n ≤ i → P i)
    (hstep : ∀ i, i < n → (∀ j, i < j → P j) → P i) (i : Nat) : P i := by
  by_cases hi : i < n
  · exact hstep i hi fun j _ => offset_induction n hend hstep j
  · exact hend i (Nat.le_of_not_lt hi)
termination_by n - i

lemma lt_of_getElem? (h : s[i]? = some c) : i < s.length := (List.getElem?_eq_some_iff.mp h).1

lemma drop_of_getElem? (h : s[i]? = some c) : s.drop i = c :: s.drop (i + 1) := by
  obtain ⟨hi, rfl⟩ := List.getElem?_eq_some_iff.mp h
  exact List.drop_eq_getElem_cons hi

lemma slice_of_le {j : Nat} (hi : i ≤ j) (hj : j ≤ s.length) :
    slice s i j = pure ((s.take j).drop i) := if_pos ⟨hi, hj⟩

lemma slice_length (h : i ≤ s.length) : slice s i s.length = pure (s.drop i) := by
  rw [slice_of_le h (Nat.le_refl _), List.take_length]

/-- The result of a scan that passes over so many characters from `i` on. -/
def ofLength (i : Nat) : Option Nat → Scan Nat
  | some n => pure (i + n)
  | none => failure

lemma ofLength_add (i n : Nat) (length : Option Nat) :
    ofLength (i + n) length = ofLength i (length.map (· + n)) := by
  cases length with
  | none => rfl
  | some m => rw [Option.map_some, ofLength, ofLength, Nat.add_assoc, Nat.add_comm n m]

lemma ofLength_meets {length : Option Nat} (h : ∀ n, length = some n → i + n ≤ s.length) :
    Meets (length = none) (fun j => i ≤ j ∧ j ≤ s.length ∧ length = some (j - i))
      (ofLength i length) := by
  cases length with
  | none => exact .failure rfl
  | some n => exact .pure _ ⟨Nat.le_add_right i n, h n rfl, by rw [Nat.add_sub_cancel_left]⟩

/-- The number of characters up to the end of the first `pattern`. -/
def lengthPast (pattern s : Text) : Option Nat :=
  (s.splitOnce pattern).map fun (body, _) => body.length + pattern.length

lemma pastFirst_eq (pattern s : Text) (i : Nat) :
    pastFirst pattern s i = ofLength i (lengthPast pattern (s.drop i)) := by
  unfold pastFirst lengthPast
  cases Text.splitOnce (s.drop i) pattern with
  | none => rfl
  | some r => rw [Option.map_some, ofLength, ← Nat.add_assoc]

lemma lengthPast_le {pattern : Text} {n : Nat} (hpattern : pattern ≠ [])
    (h : lengthPast pattern (s.drop i) = some n) : i + n ≤ s.length := by
  obtain ⟨⟨body, after⟩, hsplit, rfl⟩ := Option.map_eq_some_iff.mp h
  have hlength := congrArg List.length (Text.append_of_splitOnce hsplit)
  have hpos := List.length_pos_iff.mpr hpattern
  simp only [List.length_drop, List.length_append] at hlength
  dsimp only
  omega

lemma lengthPast_cons {pattern : Text} (h : pattern.isPrefixOf? (c :: s) = none) :
    lengthPast pattern (c :: s) = (lengthPast pattern s).map (· + 1) := by
  unfold lengthPast
  rw [Text.splitOnce, h]
  cases Text.splitOnce s pattern with
  | none => rfl
  | some r => exact congrArg some (Nat.succ_add ..)

lemma pastFirst_meets {pattern : Text} (hpattern : pattern ≠ []) (s : Text) (i : Nat) :
    Meets (lengthPast pattern (s.drop i) = none)
      (fun j => i ≤ j ∧ j ≤ s.length ∧ lengthPast pattern (s.drop i) = some (j - i))
      (pastFirst pattern s i) := by
  rw [pastFirst_eq]
  exact ofLength_meets fun n hn => lengthPast_le hpattern hn

/-! ### Strings -/

lemma stringRest_meets (s : Text) (quote : Char) (i : Nat) :
    Meets True (fun j => i ≤ j ∧ j ≤ s.length) (stringRest s quote i) := by
  induction i using offset_induction s.length with
  | hend i hi =>
    rw [stringRest, List.getElem?_eq_none hi]
    exact .failure trivial
  | hstep i hi ih =>
    have hlater {j : Nat} (hj : i < j) :
        Meets True (fun k => i ≤ k ∧ k ≤ s.length) (stringRest s quote j) :=
      (ih j hj).mono id fun k hk => ⟨by omega, hk.2⟩
    rw [stringRest, List.getElem?_eq_getElem hi]
    dsimp only
    split
    · exact hlater (by omega)
    · split
      · exact .pure i ⟨Nat.le_refl i, Nat.le_of_lt hi⟩
      · split
        · exact .pure (i + 1) ⟨Nat.le_succ i, hi⟩
        · exact hlater (Nat.lt_succ_self i)

lemma stringEnd_meets {start : Nat} (h : start < s.length) :
    Meets True (fun j => start < j ∧ j ≤ s.length) (stringEnd s start) := by
  rw [stringEnd, charAt, List.getElem?_eq_getElem h]
  exact stringRest_meets ..

lemma quotedLength_backslash {quote : Char} (hquote : quote ≠ '\\') (s : Text) :
    quotedLength quote ('\\' :: s) = (quotedLength quote s.tail).map (· + 2) := by
  cases s with
  | nil => simp [quotedLength, hquote.symm]
  | cons c s => simp [quotedLength]

lemma quotedLength_cons {quote : Char} (hquote : quote ≠ '`') (hc : c ≠ '\\') (s : Text) :
    quotedLength quote (c :: s) =
      if c = quote then some 1
      else if c = '\n' then some 0
      else (quotedLength quote s).map (· + 1) := by
  simp [quotedLength, hc, hquote]

lemma stringRest_eq {quote : Char} (hquote : quote = '"' ∨ quote = '\'') (s : Text) (i : Nat) :
    stringRest s quote i = ofLength i (quotedLength quote (s.drop i)) := by
  have hbackslash : quote ≠ '\\' := by rcases hquote with rfl | rfl <;> decide
  have hline : quote ≠ '\n' := by rcases hquote with rfl | rfl <;> decide
  have hbacktick : quote ≠ '`' := by rcases hquote with rfl | rfl <;> decide
  -- from the end of the text, since an escape moves the offset by two
  induction i using offset_induction s.length with
  | hend i hi =>
    rw [stringRest, List.getElem?_eq_none hi, List.drop_eq_nil_of_le hi]
    rfl
  | hstep i hi ih =>
    obtain ⟨c, hc⟩ : ∃ c, s[i]? = some c := ⟨_, List.getElem?_eq_getElem hi⟩
    rw [stringRest, hc, drop_of_getElem? hc]
    dsimp only
    by_cases hescape : c = '\\'
    · rw [if_pos hescape, hescape, quotedLength_backslash hbackslash, List.tail_drop,
        ih (i + 2) (by omega), ofLength_add]
    · rw [if_neg hescape, quotedLength_cons hbacktick hescape]
      by_cases hend : c = '\n'
      · rw [if_pos hend, hend, if_neg hline.symm, if_pos rfl]
        rfl
      · rw [if_neg hend, if_neg hend]
        split
        · rfl
        · rw [ih (i + 1) (Nat.lt_succ_self i), ofLength_add]

/-! ### Comments -/

lemma lineCommentLength_cons (hc : c ≠ '\n') (s : Text) :
    lineCommentLength (c :: s) = lineCommentLength s + 1 := by
  simp [lineCommentLength, hc]

lemma lineCommentEnd_eq {start : Nat} (h : start ≤ s.length) :
    lineCommentEnd s start = pure (start + lineCommentLength (s.drop start)) := by
  rw [lineCommentEnd, slice_length h, pure_bind]

lemma lineCommentEnd_meets {start : Nat} (h : start ≤ s.length) :
    Meets False (fun j => start ≤ j ∧ j ≤ s.length ∧ j = start + lineCommentLength (s.drop start))
      (lineCommentEnd s start) := by
  rw [lineCommentEnd_eq h]
  refine .pure _ ⟨Nat.le_add_right .., ?_, rfl⟩
  have hle := (List.takeWhile_prefix (· != '\n') (l := s.drop start)).length_le
  rw [List.length_drop] at hle
  unfold lineCommentLength
  omega

lemma blockCommentEnd_meets (s : Text) (start : Nat) :
    Meets (blockCommentLength (s.drop (start + 2)) = none)
      (fun j => start + 2 ≤ j ∧ j ≤ s.length ∧
        blockCommentLength (s.drop (start + 2)) = some (j - (start + 2)))
      (blockCommentEnd s start) :=
  pastFirst_meets (by simp) s (start + 2)

/-! ### Regular expressions -/

lemma regexLength_backslash (inClass : Bool) (s : Text) :
    regexLength inClass ('\\' :: s) = (regexLength inClass s.tail).map (· + 2) := by
  cases s with
  | nil => simp [regexLength]
  | cons c s => simp [regexLength]

lemma regexLength_cons (inClass : Bool) (hc : c ≠ '\\') (s : Text) :
    regexLength inClass (c :: s) =
      if c = '/' && !inClass then some (1 + (s.takeWhile Char.isAlpha).length)
      else if c = '\n' then none
      else
        (regexLength (if c = '[' then true else if c = ']' then false else inClass) s).map
          (· + 1) := by
  simp [regexLength, hc]

/-- The offset past a regular expression of this length from `i` on, or else past its `/`. -/
def pastRegex (start i : Nat) (length : Option Nat) : Nat :=
  match length with
  | some n => i + n
  | none => start + 1

lemma pastRegex_add (start i n : Nat) (length : Option Nat) :
    pastRegex start (i + n) length = pastRegex start i (length.map (· + n)) := by
  cases length with
  | none => rfl
  | some m => rw [Option.map_some, pastRegex, pastRegex, Nat.add_assoc, Nat.add_comm n m]

lemma lt_pastRegex (start : Nat) (length : Option Nat) :
    start < pastRegex start (start + 1) length := by
  cases length with
  | none => exact Nat.lt_succ_self start
  | some n => exact Nat.lt_of_lt_of_le (Nat.lt_succ_self start) (Nat.le_add_right ..)

lemma regexRest_eq (s : Text) (start : Nat) (inClass : Bool) (i : Nat) :
    regexRest s start inClass i = pure (pastRegex start i (regexLength inClass (s.drop i))) := by
  induction i using offset_induction s.length generalizing inClass with
  | hend i hi =>
    rw [regexRest, List.getElem?_eq_none hi, List.drop_eq_nil_of_le hi]
    rfl
  | hstep i hi ih =>
    obtain ⟨c, hc⟩ : ∃ c, s[i]? = some c := ⟨_, List.getElem?_eq_getElem hi⟩
    have hnext (inClass : Bool) : regexRest s start inClass (i + 1) =
        pure (pastRegex start i ((regexLength inClass (s.drop (i + 1))).map (· + 1))) := by
      rw [ih (i + 1) (Nat.lt_succ_self i), pastRegex_add]
    rw [regexRest, hc, drop_of_getElem? hc]
    dsimp only
    split
    · rw [regexLength_backslash, List.tail_drop, ih (i + 2) (by omega), pastRegex_add]
    · rw [regexLength_cons _ (by decide), hnext]
      rfl
    · rw [regexLength_cons _ (by decide), hnext]
      rfl
    · rw [regexLength_cons _ (by decide)]
      cases inClass with
      | true => exact hnext true
      | false => exact congrArg pure (Nat.add_assoc ..)
    · rw [regexLength_cons _ (by decide)]
      rfl
    · next hescape hopen hclose hslash hline =>
      have hslash : ¬ (decide (c = '/') && !inClass) = true := by
        simp [show c ≠ '/' from hslash]
      rw [regexLength_cons _ hescape, if_neg hslash, if_neg hline, if_neg hopen, if_neg hclose,
        hnext]

lemma regexEnd_eq (s : Text) (start : Nat) :
    regexEnd s start =
      pure (pastRegex start (start + 1) (regexLength false (s.drop (start + 1)))) :=
  regexRest_eq ..

lemma regexEnd_meets {start : Nat} (h : start < s.length) :
    Meets False (fun j => start < j ∧ j ≤ s.length) (regexEnd s start) := by
  rw [regexEnd_eq]
  refine .pure _ ⟨lt_pastRegex .., ?_⟩
  cases hlength : regexLength false (s.drop (start + 1)) with
  | none => exact h
  | some n =>
    have hle := regexLength_le hlength
    rw [List.length_drop] at hle
    rw [pastRegex]
    omega

/-! ### The word before -/

lemma followsReturnAt_eq (h : i ≤ s.length) :
    followsReturnAt s i = pure (followsReturn (s.take i).reverse) := by
  rw [followsReturnAt, slice_of_le (Nat.zero_le i) h, List.drop_zero, pure_bind, followsReturn]
  -- one side looks at the end of this word, the other at the start of its reverse
  generalize (s.take i).reverse.dropWhile isAsciiBlank = word
  have hsuffix : ['r', 'e', 't', 'u', 'r', 'n'].isSuffixOf word.reverse =
      (['n', 'r', 'u', 't', 'e', 'r'].isPrefixOf? word).isSome := by
    rw [List.isSuffixOf, List.reverse_reverse, List.isSome_isPrefixOf?_eq_isPrefixOf]
    rfl
  dsimp only
  rw [hsuffix]
  cases hword : ['n', 'r', 'u', 't', 'e', 'r'].isPrefixOf? word with
  | none => rfl
  | some rest =>
    rw [List.isPrefixOf?_eq_some_iff_append_eq] at hword
    have hreverse : word.reverse = rest.reverse ++ ['r', 'e', 't', 'u', 'r', 'n'] := by
      simp [← hword]
    have hfromEnd : fromEnd word.reverse 6 = pure rest.length := by
      simp [fromEnd, hreverse]
    have hslice : slice word.reverse 0 rest.length = pure rest.reverse := by
      rw [slice_of_le (Nat.zero_le _) (by simp [hreverse]), hreverse, List.drop_zero,
        List.take_left' (by simp)]
    rw [Option.isSome_some, if_pos rfl, hfromEnd, pure_bind, hslice, pure_bind,
      List.getLast?_reverse]
    cases rest with
    | nil => rfl
    | cons c rest => rfl

lemma operandDue_eq (h : i ≤ s.length) (prev : Char) :
    operandDue s prev i = pure (precedesOperand prev || followsReturn (s.take i).reverse) := by
  unfold operandDue
  cases precedesOperand prev with
  | true => rfl
  | false => exact followsReturnAt_eq h

end TsxLowering.Code.Descent
