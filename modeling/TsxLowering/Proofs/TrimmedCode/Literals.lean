import TsxLowering.Proofs.Boundary
import TsxLowering.Proofs.RoundTrip.Attributes

/-!
Literals, comments and names in front of blanks and a closing parenthesis.

Whatever of them ends in a text ends there too when these characters follow. A regular expression
and a block comment that do not end in it do not end at all. A string does so only at a line break.
-/

namespace TsxLowering

namespace Text

variable {p s u : Text} {x : Char}

lemma not_mem_of_all {q : Char → Bool} (hu : u.all q = true) (hx : q x = false) : x ∉ u := by
  intro h
  cases hx.symm.trans (List.all_eq_true.mp hu x h)

lemma isPrefixOf?_append (hx : x ∉ u) :
    (p ++ [x]).isPrefixOf? (s ++ u) = ((p ++ [x]).isPrefixOf? s).map (· ++ u) := by
  refine Option.ext fun r => ?_
  rw [List.isPrefixOf?_eq_some_iff_append_eq, Option.map_eq_some_iff]
  constructor
  · intro h
    rcases List.append_eq_append_iff.mp h with ⟨w, rfl, rfl⟩ | ⟨w, hw, rfl⟩
    · exact ⟨w, List.isPrefixOf?_eq_some_iff_append_eq.mpr rfl, rfl⟩
    · rcases List.eq_nil_or_concat w with rfl | ⟨v, y, rfl⟩
      · refine ⟨[], List.isPrefixOf?_eq_some_iff_append_eq.mpr ?_, rfl⟩
        rw [hw, List.append_nil, List.append_nil]
      · rw [List.concat_eq_append, ← List.append_assoc] at hw
        obtain ⟨-, hy⟩ := List.append_inj' hw rfl
        obtain rfl : x = y := by simpa using hy
        simp at hx
  · rintro ⟨r, hr, rfl⟩
    rw [← List.isPrefixOf?_eq_some_iff_append_eq.mp hr]
    simp

lemma splitOnce_append_right (hx : x ∉ u) :
    (s ++ u).splitOnce (p ++ [x]) =
      (s.splitOnce (p ++ [x])).map fun (before, rest) => (before, rest ++ u) := by
  induction s with
  | nil =>
    have hnone : splitOnce [] (p ++ [x]) = none := by
      cases p <;> rfl
    rw [hnone, Option.map_none, List.nil_append, Option.eq_none_iff_forall_ne_some]
    -- all of the occurrence would lie in `u`, its last character too
    rintro ⟨before, rest⟩ h
    rw [append_of_splitOnce h] at hx
    simp at hx
  | cons c s ih =>
    unfold splitOnce
    rw [List.cons_append, ← List.cons_append, isPrefixOf?_append hx]
    cases (p ++ [x]).isPrefixOf? (c :: s) with
    | some r => rfl
    | none =>
      simp only [Option.map_none, List.cons_append, ih, Option.map_map]
      rfl

end Text

namespace Code

/-! ### Characters that mean nothing to a scan -/

/-- The characters that may stand behind code and begin nothing. -/
def isInert (c : Char) : Bool := isBlank c || c == ')'

lemma ne_of_isInert {c x : Char} (h : isInert c = true) (hx : isInert x = false) : c ≠ x := by
  rintro rfl
  rw [h] at hx
  cases hx

lemma isAlpha_of_isInert {c : Char} (h : isInert c = true) : c.isAlpha = false := by
  rcases Bool.or_eq_true _ _ ▸ h with hblank | hparen
  · exact Markup.eq_false_of_isBlank (by decide) hblank
  · rw [beq_iff_eq.mp hparen]
    rfl

/-! ### Literals in front of such characters -/

variable {s u : Text} {n : Nat}

lemma takeWhile_append_inert {p : Char → Bool} (hp : ∀ x ∈ u, p x = false) (s : Text) :
    (s ++ u).takeWhile p = s.takeWhile p := by
  have hnil : u.takeWhile p = [] := by
    cases u with
    | nil => rfl
    | cons x u => simp [hp x (by simp)]
  rw [List.takeWhile_append, hnil, List.append_nil]
  split
  · next hlength => exact ((List.takeWhile_prefix p).eq_of_length hlength).symm
  · rfl

lemma quotedLength_append_of_some {quote : Char} (hquote : quote ≠ '\\')
    (h : quotedLength quote s = some n) (u : Text) :
    quotedLength quote (s ++ u) = some n ∧ n ≤ s.length := by
  fun_induction quotedLength quote s generalizing n with
  | case1 => cases h
  | case2 d s ih =>
    obtain ⟨m, hm, rfl⟩ := Option.map_eq_some_iff.mp h
    obtain ⟨hlength, hle⟩ := ih hm
    exact ⟨by simp [quotedLength, hlength], by simpa using hle⟩
  | case3 s hescape =>
    cases h
    exact ⟨by simp [quotedLength, hquote], by simp⟩
  | case4 c s hescape hne hbreak =>
    cases h
    obtain ⟨rfl, hbacktick⟩ : c = '\n' ∧ quote ≠ '`' := by simpa using hbreak
    exact ⟨by simp [quotedLength, hne, hbacktick], by simp⟩
  | case5 c s hescape hne hbreak ih =>
    obtain ⟨m, hm, rfl⟩ := Option.map_eq_some_iff.mp h
    obtain ⟨hlength, hle⟩ := ih hm
    -- a last backslash would leave the string without an end
    have hbackslash : c ≠ '\\' := by
      rintro rfl
      cases s with
      | nil => cases hm
      | cons d s => exact hescape d s rfl rfl
    refine ⟨?_, by simpa using hle⟩
    rw [List.cons_append, quotedLength, if_neg hne, if_neg hbreak, hlength]
    · rfl
    · exact fun d s hc _ => hbackslash hc

lemma quotedLength_inert {quote : Char} (hquote : isInert quote = false)
    (hu : u.all isInert = true) (hline : '\n' ∉ u) : quotedLength quote u = none := by
  induction u with
  | nil => rfl
  | cons c u ih =>
    rw [List.all_cons, Bool.and_eq_true] at hu
    rw [List.mem_cons, not_or] at hline
    have hbackslash := ne_of_isInert (x := '\\') hu.1 (by decide)
    have hne := ne_of_isInert hu.1 hquote
    simp [quotedLength, hbackslash, hne, Ne.symm hline.1, ih hu.2 hline.2]

lemma quotedLength_append_of_none (quote : Char) (hquote : isInert quote = false)
    (h : quotedLength quote s = none) (hu : u.all isInert = true) (hline : '\n' ∉ u) :
    quotedLength quote (s ++ u) = none := by
  fun_induction quotedLength quote s with
  | case1 => exact quotedLength_inert hquote hu hline
  | case2 d s ih => simpa [quotedLength] using ih (by simpa using h)
  | case3 => cases h
  | case4 => cases h
  | case5 c s hescape hne hbreak ih =>
    have hrest := ih (by simpa using h)
    by_cases hbackslash : c = '\\' ∧ s = []
    · obtain ⟨rfl, rfl⟩ := hbackslash
      -- the backslash takes the first of the characters with it
      cases u with
      | nil => simp [quotedLength, hne]
      | cons d u =>
        rw [List.all_cons, Bool.and_eq_true] at hu
        rw [List.mem_cons, not_or] at hline
        simp [quotedLength, quotedLength_inert hquote hu.2 hline.2]
    · rw [List.cons_append, quotedLength, if_neg hne, if_neg hbreak, hrest]
      · rfl
      · intro d s' hc hs
        cases s with
        | nil => exact hbackslash ⟨hc, rfl⟩
        | cons e s => exact hescape e s hc rfl

lemma regexLength_of_not_mem {inClass : Bool} (h : '/' ∉ s) : regexLength inClass s = none := by
  fun_induction regexLength inClass s with
  | case1 => rfl
  | case2 _ d s ih => simp [ih (by simp_all)]
  | case3 _ c s _ hslash => simp_all
  | case4 => rfl
  | case5 _ c s _ _ _ ih =>
    rw [ih fun hmem => h (List.mem_cons_of_mem c hmem)]
    rfl

lemma regexLength_append (inClass : Bool) (s : Text) (hu : u.all isInert = true) :
    regexLength inClass (s ++ u) = regexLength inClass s := by
  have hslash := Text.not_mem_of_all hu (x := '/') (by decide)
  have hflags : ∀ x ∈ u, x.isAlpha = false :=
    fun x hx => isAlpha_of_isInert (List.all_eq_true.mp hu x hx)
  fun_induction regexLength inClass s with
  | case1 => exact regexLength_of_not_mem hslash
  | case2 inClass d s ih => simp [regexLength, ih]
  | case3 inClass c s hescape hend =>
    obtain ⟨rfl, rfl⟩ : c = '/' ∧ inClass = false := by simpa using hend
    simp [regexLength, takeWhile_append_inert hflags]
  | case4 inClass s hescape hend => simp [regexLength]
  | case5 inClass c s hescape hend hbreak ih =>
    -- a last backslash hides what comes behind the text, but that is no slash
    by_cases hbackslash : c = '\\' ∧ s = []
    · obtain ⟨rfl, rfl⟩ := hbackslash
      cases u with
      | nil => simp [regexLength]
      | cons d u =>
        have hrest : '/' ∉ u := fun h => hslash (List.mem_cons_of_mem d h)
        simp [regexLength, regexLength_of_not_mem hrest]
    · rw [List.cons_append, regexLength, if_neg hend, if_neg hbreak, ih]
      intro d s' hc hs
      cases s with
      | nil => exact hbackslash ⟨hc, rfl⟩
      | cons e s => exact hescape e s hc rfl

lemma regexLength_le {inClass : Bool} (h : regexLength inClass s = some n) : n ≤ s.length := by
  fun_induction regexLength inClass s generalizing n with
  | case1 => cases h
  | case2 _ d s ih =>
    obtain ⟨m, hm, rfl⟩ := Option.map_eq_some_iff.mp h
    simpa using ih hm
  | case3 _ c s _ hend =>
    cases h
    have := (List.takeWhile_prefix Char.isAlpha (l := s)).length_le
    simp only [List.length_cons]
    omega
  | case4 => cases h
  | case5 _ c s _ _ _ ih =>
    obtain ⟨m, hm, rfl⟩ := Option.map_eq_some_iff.mp h
    simpa using ih hm

lemma blockCommentLength_append (s : Text) (hu : u.all isInert = true) :
    blockCommentLength (s ++ u) = blockCommentLength s := by
  have hsplit := Text.splitOnce_append_right (p := ['*']) (s := s)
    (Text.not_mem_of_all hu (x := '/') (by decide))
  simp only [List.cons_append, List.nil_append] at hsplit
  rw [blockCommentLength, hsplit, Option.map_map, blockCommentLength]
  rfl

lemma blockCommentLength_le (h : blockCommentLength s = some n) : n ≤ s.length := by
  obtain ⟨⟨body, rest⟩, hsplit, rfl⟩ := Option.map_eq_some_iff.mp h
  rw [Text.append_of_splitOnce hsplit]
  simp

lemma lineCommentLength_of_not_mem (h : '\n' ∉ s) : lineCommentLength s = s.length := by
  rw [lineCommentLength, List.takeWhile_eq_self_iff.mpr fun x hx => ?_]
  exact bne_iff_ne.mpr (ne_of_mem_of_not_mem hx h)

lemma lineCommentLength_append (h : '\n' ∈ s) (u : Text) :
    lineCommentLength (s ++ u) = lineCommentLength s := by
  have hlength : (s.takeWhile (· != '\n')).length ≠ s.length := by
    intro hall
    rw [← (List.takeWhile_prefix _).eq_of_length hall] at h
    simpa using List.all_eq_true.mp List.all_takeWhile _ h
  rw [lineCommentLength, List.takeWhile_append, if_neg hlength, lineCommentLength]

lemma tagName_append (s u : Text) :
    tagName (s ++ u) = tagName s ∨
      (tagName s).length = s.length ∧ s.length ≤ (tagName (s ++ u)).length := by
  unfold tagName
  rw [List.takeWhile_append]
  split
  · next hall => exact .inr ⟨hall, by simp⟩
  · exact .inl rfl

end Code

end TsxLowering
