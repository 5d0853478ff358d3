import TsxLowering.Proofs.TrimmedCode.Steps

/-!
Code in parentheses, without the blanks around it.

Whether the code ends at its own parenthesis may change when the blanks around it go. A line
break ends a line comment, and a string that has no closing quote on its line; without it these
run on over the parenthesis. All else in the code is read as before, if the blanks in front of it
are those of ASCII, which a scan of code does not see at all. Other blanks are characters of the
code to it, so that a `/` or `<` at its start is an operator with them and may be none without.
-/

namespace TsxLowering.Code

open Markup (startsTagName)

variable {n : Nat}

/-- In parentheses the code ends at the closing one. -/
def Closes (s : Text) : Prop := split ')' (s ++ [')']) = some (s, [])

instance (s : Text) : Decidable (Closes s) := inferInstanceAs (Decidable (_ = _))

/-- The code ends within a line comment or a string. -/
def endsOpen (s : Text) : Bool := runsOpen 0 [.code ')' 0 '='] [] s

/-- The first character that is neither blank nor in a comment opens a regular expression or a
tag, if that is where an operand is due. -/
def opensOperand (skip : Nat) : Text → Bool
  | [] => false
  | c :: rest =>
    match skip with
    | skip + 1 => opensOperand skip rest
    | 0 =>
      if isAsciiBlank c then opensOperand 0 rest
      else
        match c, rest with
        | '/', '/' :: _ => opensOperand (lineCommentLength rest) rest
        | '/', '*' :: s =>
          match blockCommentLength s with
          | some n => opensOperand (n + 1) rest
          | none => false
        | '/', _ => (regexLength false rest).isSome
        | '<', _ => startsTagName rest
        | _, _ => false

/-! ### Runs -/

lemma run_of_le {t : Text} {skip : Nat} (h : t.length ≤ skip) (frames : List Frame)
    (before : Text) : run skip frames before t = none := by
  induction t generalizing skip before with
  | nil => rfl
  | cons c t ih =>
    cases skip with
    | zero => cases h
    | succ skip => exact ih (by simpa using h) _

lemma run_append_of_le {t : Text} {skip : Nat} (h : t.length ≤ skip) (frames : List Frame)
    (before u : Text) :
    run skip frames before (t ++ u) = run (skip - t.length) frames (t.reverse ++ before) u := by
  induction t generalizing skip before with
  | nil => rfl
  | cons c t ih =>
    cases skip with
    | zero => cases h
    | succ skip =>
      rw [List.cons_append, run, ih (by simpa using h)]
      simp

lemma step_blank {frames : List Frame} {c : Char} (h : isBlank c = true) (before rest : Text) :
    step frames before c rest = .unclosed ∨ step frames before c rest = .go 0 frames ∨
      ∃ close depth prev prev' outer, frames = .code close depth prev :: outer ∧
        step frames before c rest = .go 0 (.code close depth prev' :: outer) := by
  cases frames with
  | nil => exact .inl rfl
  | cons frame outer =>
    refine .inr ?_
    cases frame with
    | code close depth prev =>
      exact .inr ⟨_, _, _, _, _, rfl,
        codeStep_plain close depth prev outer (isPlain_of_isBlank h) before rest⟩
    | template =>
      refine .inl ?_
      simp only [step, templateStep]
      split <;> first | rfl | exact absurd h (by decide)
    | markup depth =>
      refine .inl ?_
      simp only [step, markupStep]
      split <;> first | rfl | exact absurd h (by decide)
    | tag role depth =>
      refine .inl ?_
      simp only [step, tagStep]
      split <;> first | rfl | exact absurd h (by decide)

lemma step_paren {frames : List Frame} {before rest : Text}
    (h : step frames before ')' rest = .found) : ∃ prev, frames = [.code ')' 0 prev] := by
  cases frames with
  | nil => cases h
  | cons frame outer =>
    cases frame with
    | code close depth prev =>
      cases depth with
      | succ depth => cases h
      | zero =>
        simp only [step, codeStep] at h
        split at h
        · next hclose =>
          subst hclose
          cases outer with
          | nil => exact ⟨prev, rfl⟩
          | cons frame outer => cases h
        · cases h
    | template => cases h
    | markup depth => cases h
    | tag role depth => cases h

lemma run_blanks {trail before : Text} {skip : Nat} {frames : List Frame} {r : Text × Text}
    (htrail : trail.all isBlank = true)
    (h : run skip frames before (trail ++ [')']) = some r) :
    ∃ prev, frames = [.code ')' 0 prev] := by
  induction trail generalizing skip frames before with
  | nil =>
    cases skip with
    | succ skip => cases h
    | zero =>
      rw [List.nil_append, run] at h
      split at h
      · next hfound => exact step_paren hfound
      · cases h
      · cases h
  | cons c trail ih =>
    rw [List.all_cons, Bool.and_eq_true] at htrail
    cases skip with
    | succ skip => exact ih htrail.2 h
    | zero =>
      rw [List.cons_append, run] at h
      rcases @step_blank frames c htrail.1 before (trail ++ [')']) with hstep | hstep |
        ⟨close, depth, prev, prev', outer, rfl, hstep⟩
      · rw [hstep] at h
        cases h
      · rw [hstep] at h
        exact ih htrail.2 h
      · rw [hstep] at h
        obtain ⟨p, hp⟩ := ih htrail.2 h
        cases hp
        exact ⟨prev, rfl⟩

/-- A scan goes over blanks; those outside ASCII it takes for characters of the code. -/
lemma exists_leads_blank {l : Text} (hl : l.all isBlank = true) (close : Char) (depth : Nat)
    (p : Char) (outer : List Frame) (tail : Text) :
    ∃ q, Leads (.code close depth p :: outer) l (.code close depth q :: outer) tail ∧
      (l.all isAsciiBlank = true → q = p) := by
  induction l generalizing p with
  | nil => exact ⟨p, .nil _ _, fun _ => rfl⟩
  | cons c l ih =>
    rw [List.all_cons, Bool.and_eq_true] at hl
    obtain ⟨q, hq, hsame⟩ := ih hl.2 (if isAsciiBlank c then p else c)
    refine ⟨q, .append (leads_plain _ _ _ _ (isPlain_of_isBlank hl.1) _) hq, fun hascii => ?_⟩
    rw [List.all_cons, Bool.and_eq_true] at hascii
    rw [hsame hascii.2, if_pos hascii.1]

lemma run_blanks_paren {trail : Text} (htrail : trail.all isBlank = true) (prev : Char)
    (before : Text) :
    run 0 [.code ')' 0 prev] before (trail ++ [')']) = some (before.reverse ++ trail, []) := by
  obtain ⟨q, hq, -⟩ := exists_leads_blank htrail ')' 0 prev [] [')']
  rw [hq]
  simp [run, step, codeStep, leave]

/-! ### Blanks behind code -/

lemma all_isInert_append {trail : Text} (htrail : trail.all isBlank = true) :
    (trail ++ [')']).all isInert = true := by
  rw [List.all_append, Bool.and_eq_true]
  refine ⟨List.all_eq_true.mpr fun x hx => ?_, rfl⟩
  simp [isInert, List.all_eq_true.mp htrail x hx]

lemma run_tag_blanks {trail t before : Text} {role : TagRole} {depth : Nat} {outer : List Frame}
    {r : Text × Text} (htrail : trail.all isBlank = true) (hle : t.length ≤ n) :
    run n (.tag role depth :: outer) before (t ++ (trail ++ [')'])) ≠ some r := by
  rw [run_append_of_le hle]
  intro hr
  obtain ⟨p, hp⟩ := run_blanks htrail hr
  cases hp

/-- **Code that ends at its parenthesis behind blanks** ends at it behind others, too, unless it is
open at its end or they begin the name of a tag. -/
theorem run_trimmed {trail trail' : Text} (htrail : trail.all isBlank = true)
    (htrail' : trail'.all isBlank = true) (hname : startsTagName (trail' ++ [')']) = false)
    {t before : Text} {skip : Nat} {frames : List Frame}
    (hskip : skip ≤ t.length ∨ ∃ outer, frames = .template :: outer)
    (h : run skip frames before (t ++ (trail ++ [')'])) = some (before.reverse ++ t ++ trail, []))
    (hopen : runsOpen skip frames before t = false) :
    run skip frames before (t ++ (trail' ++ [')'])) =
      some (before.reverse ++ t ++ trail', []) := by
  -- the induction runs over the code; what is skipped stays in it
  induction t generalizing skip frames before with
  | nil =>
    obtain ⟨p, rfl⟩ := run_blanks htrail h
    obtain hzero | ⟨outer, houter⟩ := hskip
    · obtain rfl : skip = 0 := Nat.le_zero.mp hzero
      rw [List.nil_append, List.append_nil]
      exact run_blanks_paren htrail' p before
    · cases houter
  | cons c t ih =>
    have hreverse : before.reverse ++ c :: t = (c :: before).reverse ++ t := by simp
    rw [hreverse] at h ⊢
    cases skip with
    | succ skip =>
      refine ih ?_ h hopen
      exact hskip.imp_left fun hle => by simpa using hle
    | zero =>
      have hclosed : leavesOpen frames c t = false := by
        by_contra hleaves
        rw [Bool.not_eq_false] at hleaves
        simp [runsOpen, hleaves] at hopen
      simp only [runsOpen, hclosed, Bool.false_eq_true, if_false] at hopen
      rw [List.cons_append, run] at h ⊢
      have hblanks := step_agrees before (all_isInert_append htrail) hclosed
      have hothers := step_agrees before (all_isInert_append htrail') hclosed
      generalize step frames before c (t ++ (trail ++ [')'])) = followed at h hblanks
      generalize step frames before c (t ++ (trail' ++ [')'])) = followed' at hothers ⊢
      generalize hstep : step frames before c t = alone at hblanks hothers hopen
      cases hblanks with
      | lost _ le => exact absurd h (run_tag_blanks htrail le)
      | begun _ le => exact absurd h (run_tag_blanks htrail le)
      | same =>
        cases followed with
        | found => simp at h
        | unclosed => cases h
        | go m frames' =>
          cases hothers with
          | same => exact ih (step_skip_le hstep) h hopen
          | lost le => exact absurd h (run_tag_blanks htrail le)
          | begun starts => cases hname.symm.trans starts

lemma run_of_leavesOpen {u : Text} (hu : u.all isInert = true) (hline : '\n' ∉ u)
    {t before : Text} {frames : List Frame} {c : Char} (hopen : leavesOpen frames c t = true) :
    run 0 frames before (c :: (t ++ u)) = none := by
  unfold leavesOpen at hopen
  split at hopen
  · next close depth prev outer s =>
    have hbreak : '\n' ∉ '/' :: (s ++ u) := by simp_all
    -- the comment takes all that is left, so the scan comes to the end of the text
    have hlength := lineCommentLength_of_not_mem hbreak
    simp only [run, step, codeStep, List.cons_append]
    exact run_of_le (Nat.le_of_eq hlength.symm) _ _
  · have hlength := quotedLength_append_of_none '"' (by decide) (by simpa using hopen)
      hu hline
    simp [run, step, codeStep, hlength]
  · have hlength := quotedLength_append_of_none '\'' (by decide) (by simpa using hopen)
      hu hline
    simp [run, step, codeStep, hlength]
  · cases hopen

/-- **Code that is open at its end** is not closed by a parenthesis on the same line. -/
theorem run_of_runsOpen {u : Text} (hu : u.all isInert = true) (hline : '\n' ∉ u) {t before : Text}
    {skip : Nat} {frames : List Frame} (hopen : runsOpen skip frames before t = true) :
    run skip frames before (t ++ u) = none := by
  induction t generalizing skip frames before with
  | nil => cases hopen
  | cons c t ih =>
    cases skip with
    | succ skip => exact ih hopen
    | zero =>
      cases hleaves : leavesOpen frames c t with
      | true => exact run_of_leavesOpen hu hline hleaves
      | false =>
        simp only [runsOpen, hleaves, Bool.false_eq_true, if_false] at hopen
        rw [List.cons_append, run]
        have hagrees := step_agrees before hu hleaves
        generalize step frames before c (t ++ u) = followed at hagrees ⊢
        generalize step frames before c t = alone at hagrees hopen
        cases hagrees with
        | same =>
          cases followed with
          | found => cases hopen
          | unclosed => cases hopen
          | go m frames' => exact ih hopen
        | lost le => cases (runsOpen_of_le le _ _).symm.trans hopen
        | begun _ _ closed =>
          -- a tag that has its name from `u` leaves no code in which something could be open
          cases alone with
          | found => cases hopen
          | unclosed => cases hopen
          | go m frames' => cases (closed m frames' _ rfl).symm.trans hopen

lemma endsOpen_of_closes {code : Text} (h : Closes code) : endsOpen code = false := by
  by_contra hopen
  have hnone := run_of_runsOpen (u := [')']) (by decide) (by decide) (Bool.not_eq_false _ ▸ hopen)
  cases h.symm.trans hnone

/-- **A line break behind code** is needed only where the code is open at its end. -/
theorem closes_iff_of_lineBreak (code : Text) :
    Closes code ↔ endsOpen code = false ∧ Closes (code ++ ['\n']) := by
  constructor
  · intro h
    have hopen := endsOpen_of_closes h
    have hrun := @run_trimmed [] ['\n'] rfl rfl rfl code [] 0 _ (.inl (Nat.zero_le _)) ?_ hopen
    · refine ⟨hopen, ?_⟩
      rw [Closes, List.append_assoc]
      exact hrun
    · rw [List.append_nil]
      exact h
  · rintro ⟨hopen, h⟩
    rw [Closes, List.append_assoc] at h
    have hrun := @run_trimmed ['\n'] [] rfl rfl rfl code [] 0 _ (.inl (Nat.zero_le _)) h hopen
    rw [List.append_nil] at hrun
    exact hrun

/-! ### Blanks in front of code -/

lemma followsReturn_append {l : Text} (hl : l.all isBlank = true) (before : Text) :
    followsReturn (before ++ l) = followsReturn before := by
  unfold followsReturn
  rw [List.dropWhile_append]
  by_cases hempty : (before.dropWhile isAsciiBlank).isEmpty = true
  · rw [if_pos hempty, List.isEmpty_iff.mp hempty]
    have hnone : ['n', 'r', 'u', 't', 'e', 'r'].isPrefixOf? (l.dropWhile isAsciiBlank) = none := by
      refine Option.eq_none_iff_forall_ne_some.mpr fun r hr => ?_
      rw [List.isPrefixOf?_eq_some_iff_append_eq] at hr
      refine Text.not_mem_of_all hl (x := 'n') (by decide)
        ((List.dropWhile_suffix isAsciiBlank).subset ?_)
      rw [← hr]
      simp
    rw [hnone]
    rfl
  · have happend := Text.isPrefixOf?_append (p := ['n', 'r', 'u', 't', 'e'])
      (s := before.dropWhile isAsciiBlank) (Text.not_mem_of_all hl (x := 'r') (by decide))
    simp only [List.cons_append, List.nil_append] at happend
    rw [if_neg hempty, happend]
    cases List.isPrefixOf? _ (before.dropWhile isAsciiBlank) with
    | none => rfl
    | some r =>
      cases r with
      | cons c r => rfl
      | nil =>
        cases l with
        | nil => rfl
        | cons c l =>
          -- the word starts the text, and in front of it there is now a blank
          have hblank := List.all_eq_true.mp hl c (by simp)
          have hword : c.isAlphanum = false := Markup.eq_false_of_isBlank (by decide) hblank
          have hline : c ≠ '_' := fun h =>
            Text.not_mem_of_all hl (x := '_') (by decide) (by simp [h])
          have hdollar : c ≠ '$' := fun h =>
            Text.not_mem_of_all hl (x := '$') (by decide) (by simp [h])
          simp [hword, hline, hdollar]

lemma step_append_before {l : Text}
    (hl : ∀ before, followsReturn (before ++ l) = followsReturn before) (frames : List Frame)
    (before : Text) (c : Char) (rest : Text) :
    step frames (before ++ l) c rest = step frames before c rest := by
  have hcode (close : Char) (depth : Nat) (prev : Char) (outer : List Frame) :
      codeStep close depth prev outer (before ++ l) c rest =
        codeStep close depth prev outer before c rest := by
    unfold codeStep
    rw [hl]
  cases frames with
  | nil => rfl
  | cons frame outer =>
    cases frame with
    | code close depth prev => exact hcode ..
    | template => rfl
    | markup depth =>
      simp only [step, markupStep, hcode]
    | tag role depth => rfl

lemma run_append_before {l : Text}
    (hl : ∀ before, followsReturn (before ++ l) = followsReturn before) (skip : Nat)
    (frames : List Frame) (before t : Text) :
    run skip frames (before ++ l) t =
      (run skip frames before t).map fun (inner, rest) => (l.reverse ++ inner, rest) := by
  induction t generalizing skip frames before with
  | nil => rfl
  | cons c t ih =>
    cases skip with
    | succ skip => exact ih skip frames (c :: before)
    | zero =>
      rw [run, run, step_append_before hl]
      cases step frames before c t with
      | found => simp
      | unclosed => rfl
      | go skip frames' => exact ih skip frames' (c :: before)

lemma codeStep_prev_of_ne {c : Char} (hslash : c ≠ '/') (hless : c ≠ '<')
    (hblank : isAsciiBlank c = false) (close : Char) (depth : Nat) (p q : Char)
    (outer : List Frame) (before rest : Text) :
    codeStep close depth p outer before c rest = codeStep close depth q outer before c rest := by
  cases hplain : isPlain c with
  | true => simp [codeStep_plain _ _ _ _ hplain, hblank]
  | false =>
    rcases cases_of_isPlain_eq_false hplain with
      rfl | rfl | rfl | rfl | rfl | rfl | rfl | rfl | rfl | rfl | rfl
    all_goals first | rfl | contradiction

lemma opensOperand_slash {rest : Text} (hline : rest.head? ≠ some '/')
    (hblock : rest.head? ≠ some '*') :
    opensOperand 0 ('/' :: rest) = (regexLength false rest).isSome := by
  cases rest with
  | nil => rfl
  | cons x r =>
    have hx : x ≠ '/' ∧ x ≠ '*' := by simpa using And.intro hline hblock
    have hslash : isAsciiBlank '/' = false := by decide
    rw [opensOperand, hslash]
    split
    all_goals simp_all

/-- The step at `c` does not depend on the character before it, or goes over a blank or a comment and
leaves that character there for the next step. -/
def LeavesPrev (close : Char) (depth : Nat) (outer : List Frame) (before : Text) (c : Char)
    (rest u : Text) : Prop :=
  (∀ p q, codeStep close depth p outer before c (rest ++ u) =
    codeStep close depth q outer before c (rest ++ u)) ∨
  ∃ n, (∀ p, codeStep close depth p outer before c (rest ++ u) =
      .go n (.code close depth p :: outer)) ∧
    (opensOperand n rest = false ∨ (rest ++ u).length ≤ n)

lemma leavesPrev_slash {rest u : Text} (hu : u.all isInert = true) (hline : '\n' ∉ u)
    (h : opensOperand 0 ('/' :: rest) = false) (close : Char) (depth : Nat)
    (outer : List Frame) (before : Text) :
    LeavesPrev close depth outer before '/' rest u := by
  by_cases hcomment : rest.head? = some '/'
  · obtain ⟨s, rfl⟩ := List.head?_eq_some_iff.mp hcomment
    refine .inr ⟨lineCommentLength ('/' :: s ++ u), fun p => rfl, ?_⟩
    by_cases hbreak : '\n' ∈ '/' :: s
    · rw [lineCommentLength_append hbreak]
      exact .inl h
    · -- the comment goes on over all that follows
      have hfree : '\n' ∉ '/' :: s ++ u := by
        rw [List.mem_append, not_or]
        exact ⟨hbreak, hline⟩
      exact .inr (Nat.le_of_eq (lineCommentLength_of_not_mem hfree).symm)
  by_cases hblock : rest.head? = some '*'
  · obtain ⟨s, rfl⟩ := List.head?_eq_some_iff.mp hblock
    have hblank : isAsciiBlank '/' = false := by decide
    have hlength := blockCommentLength_append s hu
    cases hn : blockCommentLength s with
    | none =>
      refine .inl fun p q => ?_
      simp only [List.cons_append, codeStep, hlength, hn]
    | some n =>
      refine .inr ⟨n + 1, fun p => ?_, .inl ?_⟩
      · simp only [List.cons_append, codeStep, hlength, hn]
      · simpa [opensOperand, hblank, hn] using h
  -- no regular expression begins here, so the slash is an operator wherever it stands
  refine .inl fun p q => ?_
  have hhead {x : Char} (hx : isInert x = false) (hrest : rest.head? ≠ some x) :
      (rest ++ u).head? ≠ some x := by
    cases rest with
    | nil => exact head?_ne_of_inert hu hx
    | cons y r => exact hrest
  have hregex : regexLength false (rest ++ u) = none := by
    rw [opensOperand_slash hcomment hblock] at h
    rw [regexLength_append false rest hu]
    exact Option.not_isSome_iff_eq_none.mp (Bool.not_eq_true _ ▸ h)
  rw [codeStep_slash _ _ _ _ _ (hhead rfl hcomment) (hhead rfl hblock),
    codeStep_slash _ _ _ _ _ (hhead rfl hcomment) (hhead rfl hblock), hregex]

lemma leavesPrev {c : Char} {rest u : Text} (hu : u.all isInert = true) (hline : '\n' ∉ u)
    (hname : startsTagName u = false) (h : opensOperand 0 (c :: rest) = false) (close : Char)
    (depth : Nat) (outer : List Frame) (before : Text) :
    LeavesPrev close depth outer before c rest u := by
  cases hblank : isAsciiBlank c with
  | true =>
    have hplain := isPlain_of_isBlank (isBlank_of_isAsciiBlank hblank)
    refine .inr ⟨0, fun p => ?_, .inl (by simpa [opensOperand, hblank] using h)⟩
    rw [codeStep_plain _ _ _ _ hplain, if_pos hblank]
  | false =>
    by_cases hslash : c = '/'
    · subst hslash
      exact leavesPrev_slash hu hline h close depth outer before
    by_cases hless : c = '<'
    · subst hless
      have hplain : startsTagName (rest ++ u) = false := by
        cases rest with
        | nil => exact hname
        | cons y r => exact h
      refine .inl fun p q => ?_
      simp only [codeStep, hplain, Bool.false_and]
      rfl
    · exact .inl fun p q => codeStep_prev_of_ne hslash hless hblank close depth p q outer before _

lemma run_prev {t : Text} {skip : Nat} (h : opensOperand skip t = false) (p q : Char)
    (before : Text) :
    run skip [.code ')' 0 p] before (t ++ [')']) =
      run skip [.code ')' 0 q] before (t ++ [')']) := by
  induction t generalizing skip before with
  | nil => cases skip <;> simp [run, step, codeStep]
  | cons c t ih =>
    cases skip with
    | succ skip => exact ih h _
    | zero =>
      rw [List.cons_append, run, run]
      simp only [step]
      rcases leavesPrev (u := [')']) (by decide) (by decide) rfl h ')' 0 [] before with
        hsame | ⟨n, hgo, hrest⟩
      · rw [hsame p q]
      · rw [hgo p, hgo q]
        rcases hrest with hrest | hle
        · exact ih hrest _
        · dsimp only
          rw [run_of_le hle, run_of_le hle]

lemma runsOpen_prev {t : Text} {skip : Nat} (h : opensOperand skip t = false) (p q : Char)
    (before : Text) :
    runsOpen skip [.code ')' 0 p] before t = runsOpen skip [.code ')' 0 q] before t := by
  induction t generalizing skip before with
  | nil => rfl
  | cons c t ih =>
    cases skip with
    | succ skip => exact ih h _
    | zero =>
      have hleaves : leavesOpen [.code ')' 0 p] c t = leavesOpen [.code ')' 0 q] c t := by
        unfold leavesOpen
        split <;> simp_all
      have hstep := leavesPrev (u := []) rfl (by decide) rfl h ')' 0 [] before
      rw [LeavesPrev, List.append_nil] at hstep
      simp only [runsOpen, step, hleaves]
      rcases hstep with hsame | ⟨n, hgo, hrest⟩
      · rw [hsame p q]
      · rw [hgo p, hgo q]
        dsimp only
        rcases hrest with hrest | hle
        · rw [ih hrest]
        · rw [runsOpen_of_le hle, runsOpen_of_le hle]

/-- With blanks in front of it code is read as behind the last one that is not of ASCII. -/
lemma closes_append_iff {lead : Text} (hlead : lead.all isBlank = true) (code : Text) :
    ∃ q, (lead.all isAsciiBlank = true → q = '=') ∧
      (Closes (lead ++ code) ↔
        run 0 [.code ')' 0 q] [] (code ++ [')']) = some (code, [])) := by
  obtain ⟨q, hq, hsame⟩ := exists_leads_blank hlead ')' 0 '=' [] (code ++ [')'])
  have hsplit : split ')' (lead ++ code ++ [')']) =
      (run 0 [.code ')' 0 q] [] (code ++ [')'])).map fun (inner, rest) =>
        (lead ++ inner, rest) := by
    have hbefore := run_append_before (l := lead.reverse)
      (followsReturn_append (by simpa using hlead)) 0 [.code ')' 0 q] [] (code ++ [')'])
    rw [split, List.append_assoc, hq []]
    simpa using hbefore
  refine ⟨q, hsame, ?_⟩
  rw [Closes, hsplit, Option.map_eq_some_iff]
  constructor
  · rintro ⟨⟨inner, rest⟩, hcode, heq⟩
    obtain ⟨hinner, rfl⟩ := Prod.mk.inj heq
    rw [hcode, List.append_cancel_left hinner]
  · intro hcode
    exact ⟨_, hcode, rfl⟩

/-- **What it takes for code that closes with blanks around it to close without them.** There is
nothing open at its end that only a line break behind it has ended. If blanks outside of ASCII
have made an operator of the operand it opens with, then it is also to close with that operand. -/
theorem closes_iff_of_blanks {lead code trail : Text} (hlead : lead.all isBlank = true)
    (htrail : trail.all isBlank = true) (h : Closes (lead ++ code ++ trail)) :
    (Closes code ↔ endsOpen code = false ∧ (lead.all isAsciiBlank = true ∨
      opensOperand 0 code = false ∨ Closes (code ++ ['\n']))) ∧
    ('\n' ∉ trail → lead.all isAsciiBlank = true ∨ opensOperand 0 code = false →
      Closes code) := by
  rw [List.append_assoc] at h
  obtain ⟨q, hq, hcloses⟩ := closes_append_iff hlead (code ++ trail)
  have hrun := hcloses.mp h
  rw [List.append_assoc] at hrun
  -- whatever is before the code, it is read as if nothing were
  have halike (hsame : lead.all isAsciiBlank = true ∨ opensOperand 0 code = false) :
      runsOpen 0 [.code ')' 0 q] [] code = endsOpen code ∧
        run 0 [.code ')' 0 q] [] (code ++ [')']) = split ')' (code ++ [')']) := by
    rcases hsame with hascii | hoperand
    · rw [hq hascii]
      exact ⟨rfl, rfl⟩
    · exact ⟨runsOpen_prev hoperand q '=' [], run_prev hoperand q '=' []⟩
  have hclosed (hsame : lead.all isAsciiBlank = true ∨ opensOperand 0 code = false)
      (hopen : endsOpen code = false) : Closes code := by
    obtain ⟨hruns, hsplit⟩ := halike hsame
    have htrimmed := @run_trimmed trail [] htrail rfl rfl code [] 0 _ (.inl (Nat.zero_le _)) hrun
      (hruns.trans hopen)
    rw [List.nil_append, List.append_nil] at htrimmed
    exact hsplit.symm.trans htrimmed
  refine ⟨⟨fun hcode => ?_, ?_⟩, fun hline hsame => hclosed hsame ?_⟩
  · obtain ⟨hopen, hbreak⟩ := (closes_iff_of_lineBreak code).mp hcode
    exact ⟨hopen, .inr (.inr hbreak)⟩
  · rintro ⟨hopen, hascii | hoperand | hbreak⟩
    · exact hclosed (.inl hascii) hopen
    · exact hclosed (.inr hoperand) hopen
    · exact (closes_iff_of_lineBreak code).mpr ⟨hopen, hbreak⟩
  · -- on one line, nothing that is open at the end of the code would have been ended behind it
    by_contra hopen
    rw [Bool.not_eq_false, ← (halike hsame).1] at hopen
    have hnone := run_of_runsOpen (all_isInert_append htrail) (by simpa using hline) hopen
    cases hrun.symm.trans hnone

end TsxLowering.Code
