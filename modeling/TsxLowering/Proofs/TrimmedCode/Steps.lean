import TsxLowering.Proofs.TrimmedCode.Literals

/-!
The steps of a scan in front of blanks and a closing parenthesis.

A step looks ahead, so what stands behind the code may change it. Where no line comment and no
string is left open, only a tag can make a difference, and only one that has no end in the code.
-/

namespace TsxLowering.Code

open Markup (startsTagName)

variable {s u : Text} {n : Nat}

/-- A line comment or a string begins at `c` and does not end in the text. -/
def leavesOpen (frames : List Frame) (c : Char) (rest : Text) : Bool :=
  match frames, c, rest with
  | .code .. :: _, '/', '/' :: s => !s.contains '\n'
  | .code .. :: _, '"', s => (quotedLength '"' s).isNone
  | .code .. :: _, '\'', s => (quotedLength '\'' s).isNone
  | _, _, _ => false

/-- A scan that enters the text in these frames comes to a line comment or a string that does not
end in it. -/
def runsOpen (skip : Nat) (frames : List Frame) (before : Text) : Text → Bool
  | [] => false
  | c :: rest =>
    match skip with
    | skip + 1 => runsOpen skip frames (c :: before) rest
    | 0 =>
      if leavesOpen frames c rest then true
      else
        match step frames before c rest with
        | .go skip frames => runsOpen skip frames (c :: before) rest
        | _ => false

/-! ### Steps with and without what follows -/

lemma runsOpen_of_le {t : Text} {skip : Nat} (h : t.length ≤ skip) (frames : List Frame)
    (before : Text) : runsOpen skip frames before t = false := by
  induction t generalizing skip before with
  | nil => rfl
  | cons c t ih =>
    cases skip with
    | zero => cases h
    | succ skip => exact ih (by simpa using h) _

/-- How the step at the start of `rest` compares to the one with `u` behind it. Where they differ, a
tag begins that has no end before `u`. -/
inductive Agrees (u rest : Text) : Step → Step → Prop
  | same (alone : Step) : Agrees u rest alone alone
  /-- The name of a tag runs on into `u`. -/
  | lost {m n depth depth' : Nat} {role role' : TagRole} {outer outer' : List Frame}
      (le : rest.length ≤ m) (le' : rest.length ≤ n) :
      Agrees u rest (.go m (.tag role depth :: outer)) (.go n (.tag role' depth' :: outer'))
  /-- A tag has its name from `u`. -/
  | begun {alone : Step} {n depth : Nat} {role : TagRole} {outer : List Frame}
      (starts : startsTagName u = true) (le : rest.length ≤ n)
      (closed : ∀ m frames before, alone = .go m frames → runsOpen m frames before rest = false) :
      Agrees u rest alone (.go n (.tag role depth :: outer))

section agrees

variable {rest : Text} (close : Char) (depth : Nat) (prev : Char) (outer : List Frame)
  (before : Text)

lemma codeStep_congr {c : Char} (hquote : c ≠ '"') (hquote' : c ≠ '\'') (hless : c ≠ '<')
    (hslash : c ≠ '/') (rest rest' : Text) :
    codeStep close depth prev outer before c rest =
      codeStep close depth prev outer before c rest' := by
  cases hplain : isPlain c with
  | true => rw [codeStep_plain _ _ _ _ hplain, codeStep_plain _ _ _ _ hplain]
  | false =>
    rcases cases_of_isPlain_eq_false hplain with
      rfl | rfl | rfl | rfl | rfl | rfl | rfl | rfl | rfl | rfl | rfl
    all_goals first | rfl | contradiction

/-- A tag begins in both, or in the one with `u` alone. There is nothing before its name, or the
slash of a closing tag. -/
lemma tag_agrees (front : Text) {s : Text} (role : Text → TagRole) {plain : Step}
    (hplain : ∀ m frames before, plain = .go m frames → runsOpen m frames before front = false) :
    Agrees u (front ++ s)
      (if startsTagName s then
        .go (front.length + (tagName s).length) (.tag (role (tagName s)) depth :: outer)
      else plain)
      (if startsTagName (s ++ u) then
        .go (front.length + (tagName (s ++ u)).length)
          (.tag (role (tagName (s ++ u))) depth :: outer)
      else plain) := by
  cases s with
  | nil =>
    rw [List.append_nil, List.nil_append]
    cases hstarts : startsTagName u with
    | false => exact .same _
    | true => exact .begun hstarts (Nat.le_add_right _ _) hplain
  | cons x r =>
    have hsame : startsTagName (x :: r ++ u) = startsTagName (x :: r) := rfl
    rw [hsame]
    split
    · rcases tagName_append (x :: r) u with hname | ⟨halone, hfollowed⟩
      · rw [hname]
        exact .same _
      · rw [halone]
        refine .lost (Nat.le_of_eq List.length_append) ?_
        rw [List.length_append]
        exact Nat.add_le_add_left hfollowed _
    · exact .same _

lemma opening_agrees (role : Text → TagRole) (plain : Step) :
    Agrees u rest
      (if startsTagName rest then
        .go (tagName rest).length (.tag (role (tagName rest)) depth :: outer)
      else plain)
      (if startsTagName (rest ++ u) then
        .go (tagName (rest ++ u)).length (.tag (role (tagName (rest ++ u))) depth :: outer)
      else plain) := by
  have hagrees : Agrees u ([] ++ rest) _ _ :=
    @tag_agrees u depth outer [] rest role plain fun _ _ _ _ => rfl
  simpa using hagrees

lemma codeStep_less_agrees :
    Agrees u rest (codeStep close depth prev outer before '<' rest)
      (codeStep close depth prev outer before '<' (rest ++ u)) := by
  simp only [codeStep]
  cases precedesOperand prev || followsReturn before with
  | false =>
    simp only [Bool.and_false]
    exact .same _
  | true =>
    simp only [Bool.and_true]
    exact opening_agrees ..

lemma codeStep_slash (hline : rest.head? ≠ some '/') (hblock : rest.head? ≠ some '*') :
    codeStep close depth prev outer before '/' rest =
      match regexLength false rest with
      | some n =>
        if precedesOperand prev then .go n (.code close depth '/' :: outer)
        else .go 0 (.code close depth '/' :: outer)
      | none => .go 0 (.code close depth '/' :: outer) := by
  have hblank : isAsciiBlank '/' = false := rfl
  simp only [codeStep, hblank]
  split
  · simp at hline
  · simp at hblock
  · rfl

lemma head?_ne_of_inert (hu : u.all isInert = true) {x : Char} (hx : isInert x = false) :
    u.head? ≠ some x := by
  intro h
  exact Text.not_mem_of_all hu hx (List.mem_of_head? h)

lemma codeStep_slash_append (hu : u.all isInert = true)
    (hopen : leavesOpen (.code close depth prev :: outer) '/' rest = false) :
    codeStep close depth prev outer before '/' (rest ++ u) =
      codeStep close depth prev outer before '/' rest := by
  cases rest with
  | nil =>
    rw [List.nil_append, codeStep_slash _ _ _ _ _ (head?_ne_of_inert hu (by decide))
      (head?_ne_of_inert hu (by decide)), codeStep_slash _ _ _ _ _ (by simp) (by simp),
      regexLength_of_not_mem (Text.not_mem_of_all hu (by decide))]
    rfl
  | cons x r =>
    by_cases hline : x = '/'
    · subst hline
      have hbreak : '\n' ∈ '/' :: r := by simpa [leavesOpen] using hopen
      have hlength := lineCommentLength_append hbreak u
      rw [List.cons_append] at hlength
      simp only [codeStep, List.cons_append, hlength]
    · by_cases hblock : x = '*'
      · subst hblock
        simp only [codeStep, List.cons_append, blockCommentLength_append r hu]
      · rw [codeStep_slash _ _ _ _ _ (by simpa using hline) (by simpa using hblock),
          codeStep_slash _ _ _ _ _ (by simpa using hline) (by simpa using hblock),
          regexLength_append false (x :: r) hu]

lemma codeStep_quote_append {quote : Char} (hquote : quote = '"' ∨ quote = '\'')
    (hopen : leavesOpen (.code close depth prev :: outer) quote rest = false) :
    codeStep close depth prev outer before quote (rest ++ u) =
      codeStep close depth prev outer before quote rest := by
  have hlength : ∃ n, quotedLength quote rest = some n := by
    rcases hquote with rfl | rfl <;>
      simpa [leavesOpen, ← Option.isSome_iff_exists, Option.isSome_iff_ne_none] using hopen
  obtain ⟨n, hn⟩ := hlength
  have happend := (quotedLength_append_of_some (by rcases hquote with rfl | rfl <;> decide) hn u).1
  rcases hquote with rfl | rfl <;> simp only [codeStep, hn, happend]

theorem codeStep_agrees {c : Char} (hu : u.all isInert = true)
    (hopen : leavesOpen (.code close depth prev :: outer) c rest = false) :
    Agrees u rest (codeStep close depth prev outer before c rest)
      (codeStep close depth prev outer before c (rest ++ u)) := by
  by_cases hquote : c = '"' ∨ c = '\''
  · rw [codeStep_quote_append _ _ _ _ _ hquote hopen]
    exact .same _
  by_cases hless : c = '<'
  · subst hless
    exact codeStep_less_agrees ..
  by_cases hslash : c = '/'
  · subst hslash
    rw [codeStep_slash_append _ _ _ _ _ hu hopen]
    exact .same _
  rw [not_or] at hquote
  rw [codeStep_congr _ _ _ _ _ hquote.1 hquote.2 hless hslash (rest ++ u) rest]
  exact .same _

lemma templateStep_append {c : Char} (hu : u.all isInert = true) :
    templateStep outer c (rest ++ u) = templateStep outer c rest := by
  cases rest with
  | nil =>
    have hbrace := head?_ne_of_inert hu (x := '\x7b') (by decide)
    cases u with
    | nil => rfl
    | cons x u =>
      unfold templateStep
      split <;> simp_all
  | cons x r =>
    unfold templateStep
    split <;> simp_all

lemma tagStep_append {c : Char} (role : TagRole) (hu : u.all isInert = true) :
    tagStep role depth outer c (rest ++ u) = tagStep role depth outer c rest := by
  by_cases hquote : c = '"' ∨ c = '\''
  · have hfree : c ∉ u := Text.not_mem_of_all hu (by rcases hquote with rfl | rfl <;> decide)
    have hsplit := Text.splitOnce_append_right (p := []) (s := rest) hfree
    rw [List.nil_append] at hsplit
    rcases hquote with rfl | rfl
    all_goals
      simp only [tagStep, hsplit]
      cases Text.splitOnce rest _ <;> rfl
  · rw [not_or] at hquote
    cases rest with
    | nil =>
      -- a last slash may not get its `>` from `u`
      have hend := head?_ne_of_inert hu (x := '>') (by decide)
      cases u with
      | nil => rfl
      | cons x u =>
        unfold tagStep
        split <;> simp_all
    | cons x r =>
      unfold tagStep
      split <;> simp_all

lemma closing_agrees {s : Text} :
    Agrees u ('/' :: s)
      (if startsTagName s then .go (1 + (tagName s).length) (.tag .closing depth :: outer)
      else .go 0 (.markup depth :: outer))
      (if startsTagName (s ++ u) then
        .go (1 + (tagName (s ++ u)).length) (.tag .closing depth :: outer)
      else .go 0 (.markup depth :: outer)) := by
  refine tag_agrees depth outer ['/'] (fun _ => .closing) ?_
  rintro m frames before ⟨⟩
  rfl

lemma markupStep_less (hcomment : ¬ ['!', '-', '-'] <+: rest) (hclosing : rest.head? ≠ some '/') :
    markupStep depth outer before '<' rest =
      if startsTagName rest then
        .go (tagName rest).length (.tag (.ofName (tagName rest)) depth :: outer)
      else .go 0 (.markup depth :: outer) := by
  unfold markupStep
  split
  · next heq => exact absurd heq (by decide)
  · next heq => exact absurd heq (by decide)
  · exact absurd ⟨_, rfl⟩ hcomment
  · simp at hclosing
  · rfl
  · next hne _ _ => exact absurd rfl hne

lemma markupStep_less_agrees (hu : u.all isInert = true) :
    Agrees u rest (markupStep depth outer before '<' rest)
      (markupStep depth outer before '<' (rest ++ u)) := by
  have hhyphen := Text.not_mem_of_all hu (x := '-') (by decide)
  by_cases hcomment : ['!', '-', '-'] <+: rest
  · obtain ⟨r, rfl⟩ := hcomment
    have hsplit := Text.splitOnce_append_right (p := ['-', '-']) (s := ['!', '-', '-'] ++ r)
      (Text.not_mem_of_all hu (x := '>') (by decide))
    simp only [List.cons_append, List.nil_append] at hsplit ⊢
    simp only [markupStep, hsplit]
    cases Text.splitOnce _ _ <;> exact .same _
  by_cases hclosing : rest.head? = some '/'
  · obtain ⟨s, rfl⟩ := List.head?_eq_some_iff.mp hclosing
    simp only [markupStep, List.cons_append]
    exact closing_agrees ..
  -- nothing behind the text completes the start of a comment or of a closing tag
  have hcomment' : ¬ ['!', '-', '-'] <+: rest ++ u := by
    rintro ⟨r, hr⟩
    have hfound := List.isPrefixOf?_eq_some_iff_append_eq.mpr hr
    have happend := Text.isPrefixOf?_append (p := ['!', '-']) (s := rest) hhyphen
    simp only [List.cons_append, List.nil_append] at happend
    rw [happend] at hfound
    obtain ⟨r', hr', -⟩ := Option.map_eq_some_iff.mp hfound
    exact hcomment ⟨r', List.isPrefixOf?_eq_some_iff_append_eq.mp hr'⟩
  have hclosing' : (rest ++ u).head? ≠ some '/' := by
    cases rest with
    | nil => exact head?_ne_of_inert hu (by decide)
    | cons x r => exact hclosing
  rw [markupStep_less _ _ _ hcomment hclosing, markupStep_less _ _ _ hcomment' hclosing']
  exact opening_agrees ..

lemma markupStep_agrees {c : Char} (hu : u.all isInert = true) :
    Agrees u rest (markupStep depth outer before c rest)
      (markupStep depth outer before c (rest ++ u)) := by
  by_cases hless : c = '<'
  · subst hless
    exact markupStep_less_agrees _ _ _ hu
  have hsame : markupStep depth outer before c (rest ++ u) =
      markupStep depth outer before c rest := by
    by_cases hbrace : c = '\x7d'
    · subst hbrace
      simp only [markupStep]
      split
      · exact codeStep_congr _ _ _ _ _ (by decide) (by decide) (by decide) (by decide) _ _
      · rfl
    · unfold markupStep
      split <;> simp_all
  rw [hsame]
  exact .same _

/-- **Each step** is the same with such characters behind the text, but for a tag that has no end
before them. -/
theorem step_agrees {frames : List Frame} {c : Char} (hu : u.all isInert = true)
    (hopen : leavesOpen frames c rest = false) :
    Agrees u rest (step frames before c rest) (step frames before c (rest ++ u)) := by
  cases frames with
  | nil => exact .same _
  | cons frame outer =>
    cases frame with
    | code close depth prev => exact codeStep_agrees _ _ _ _ _ hu hopen
    | template =>
      simp only [step, templateStep_append _ hu]
      exact .same _
    | markup depth => exact markupStep_agrees _ _ _ hu
    | tag role depth =>
      simp only [step, tagStep_append _ _ _ hu]
      exact .same _

end agrees

/-! ### How far a step reaches -/

lemma tagName_le (s : Text) : (tagName s).length ≤ s.length :=
  (List.takeWhile_prefix _).length_le

lemma codeStep_skip_le {close c prev : Char} {depth : Nat} {outer frames : List Frame}
    {before rest : Text} (h : codeStep close depth prev outer before c rest = .go n frames) :
    n ≤ rest.length := by
  have hleave {outer : List Frame} (h : leave outer = .go n frames) : n = 0 := by
    cases outer <;> cases h
    rfl
  -- what is skipped has been found in the rest, or nothing is
  unfold codeStep at h
  dsimp only at h
  split at h
  iterate 2
    · split at h
      · next hlength =>
        cases h
        exact (quotedLength_append_of_some (by decide) hlength []).2
      · cases h
  · cases h
    exact Nat.zero_le _
  · split at h <;> cases h
    · exact tagName_le rest
    · exact Nat.zero_le _
  · split at h
    · cases h
      exact (List.takeWhile_prefix _).length_le
    · split at h
      · next hlength =>
        cases h
        exact Nat.succ_le_succ (blockCommentLength_le hlength)
      · cases h
    · split at h
      · next hlength =>
        split at h <;> cases h
        · exact regexLength_le hlength
        · exact Nat.zero_le _
      · cases h
        exact Nat.zero_le _
  iterate 3
    · cases h
      exact Nat.zero_le _
  iterate 3
    · split at h
      · split at h
        · rw [hleave h]
          exact Nat.zero_le _
        · cases h
          exact Nat.zero_le _
      · cases h
        exact Nat.zero_le _
  · cases h
    exact Nat.zero_le _

lemma splitOnce_le {pattern body after : Text} (h : s.splitOnce pattern = some (body, after)) :
    body.length + pattern.length ≤ s.length := by
  rw [Text.append_of_splitOnce h, List.length_append, List.length_append]
  omega

lemma templateStep_skip_le {outer frames : List Frame} {c : Char} {rest : Text}
    (h : templateStep outer c rest = .go n frames) :
    n ≤ rest.length ∨ ∃ outer, frames = .template :: outer := by
  unfold templateStep at h
  split at h
  · cases h
    exact .inr ⟨_, rfl⟩
  · cases outer <;> cases h
    exact .inl (Nat.zero_le _)
  · cases h
    exact .inl (by simp)
  · cases h
    exact .inl (Nat.zero_le _)

lemma markupStep_skip_le {depth : Nat} {outer frames : List Frame} {before rest : Text} {c : Char}
    (h : markupStep depth outer before c rest = .go n frames) : n ≤ rest.length := by
  unfold markupStep at h
  split at h
  · cases h
    exact Nat.zero_le _
  · split at h
    · exact codeStep_skip_le h
    · cases h
  · split at h
    · next hfound =>
      cases h
      exact splitOnce_le hfound
    · cases h
  · split at h <;> cases h
    · rw [Nat.add_comm]
      exact Nat.succ_le_succ (tagName_le _)
    · exact Nat.zero_le _
  · split at h <;> cases h
    · exact tagName_le _
    · exact Nat.zero_le _
  · cases h
    exact Nat.zero_le _

lemma tagStep_skip_le {role : TagRole} {depth : Nat} {outer frames : List Frame} {c : Char}
    {rest : Text} (h : tagStep role depth outer c rest = .go n frames) : n ≤ rest.length := by
  unfold tagStep at h
  split at h
  iterate 2
    · split at h
      · next hfound =>
        cases h
        exact splitOnce_le hfound
      · cases h
  all_goals
    cases h
    simp

/-- A step skips no more than there is, but for a backslash at the end of a template literal. -/
lemma step_skip_le {frames frames' : List Frame} {before rest : Text} {c : Char}
    (h : step frames before c rest = .go n frames') :
    n ≤ rest.length ∨ ∃ outer, frames' = .template :: outer := by
  unfold step at h
  split at h
  · cases h
  · exact .inl (codeStep_skip_le h)
  · exact templateStep_skip_le h
  · exact .inl (markupStep_skip_le h)
  · exact .inl (tagStep_skip_le h)

end TsxLowering.Code
