import TsxLowering.Proofs.Descent.Octets
import TsxLowering.Proofs.Descent.Steps

/-!
The one-pass scan over the bytes of a text.

At a character in ASCII the scan does the same over the bytes of a text as over the text, and it
passes over the bytes of other characters as it does over these. So it ends at the same place.
-/

namespace TsxLowering.Code

open Text (octets byteOffset)
open Descent

variable {s : Text} {c : Char}

/-! ### Frames and steps -/

/-- Frames in which the scan goes on in the same way. The last character of code matters only for
whether an operand is due. -/
inductive Frame.Alike : Frame → Frame → Prop
  | code {close : Char} {depth : Nat} {prev prev' : Char}
      (h : precedesOperand prev = precedesOperand prev') :
      Alike (.code close depth prev) (.code close depth prev')
  | template : Alike .template .template
  | markup (depth : Nat) : Alike (.markup depth) (.markup depth)
  | tag (role : TagRole) (depth : Nat) : Alike (.tag role depth) (.tag role depth)

lemma Frame.Alike.refl : (frame : Frame) → frame.Alike frame
  | .code .. => .code rfl
  | .template => .template
  | .markup depth => .markup depth
  | .tag role depth => .tag role depth

/-- The same step before `s` and before its bytes, where the scan passes over more of these. A
backslash in a template literal passes over one byte only. -/
inductive Step.Alike (s : Text) : Step → Step → Prop
  | found : Alike s .found .found
  | unclosed : Alike s .unclosed .unclosed
  | go {n : Nat} {frames frames' : List Frame} (h : List.Forall₂ Frame.Alike frames frames') :
      Alike s (.go n frames) (.go (byteOffset s n) frames')
  | escape {outer outer' : List Frame} (h : List.Forall₂ Frame.Alike outer outer') :
      Alike s (.go 1 (.template :: outer)) (.go 1 (.template :: outer'))

lemma Step.Alike.stay {frames frames' : List Frame} (h : List.Forall₂ Frame.Alike frames frames') :
    Step.Alike s (.go 0 frames) (.go 0 frames') := .go h

lemma leave_alike {outer outer' : List Frame} (h : List.Forall₂ Frame.Alike outer outer') :
    Step.Alike s (leave outer) (leave outer') := by
  cases h with
  | nil => exact .found
  | cons hframe houter => exact .stay (.cons hframe houter)

lemma past_alike {length : Option Nat} {frames frames' : List Frame}
    (h : List.Forall₂ Frame.Alike frames frames') :
    Step.Alike s (past frames length) (past frames' (length.map (byteOffset s))) := by
  cases length with
  | none => exact .unclosed
  | some n => exact .go h

lemma head?_octets {y : Char} (hy : isHigh y = false) (s : Text) :
    (octets s).head? = some y ↔ s.head? = some y := by
  cases s with
  | nil => rfl
  | cons c s =>
    cases hc : isHigh c with
    | false =>
      rw [octets_cons_ascii hc]
      rfl
    | true =>
      obtain ⟨x, l, hoctets, hx⟩ := spells_octets.exists_cons hc
      rw [octets_cons, hoctets, List.cons_append, List.head?_cons, List.head?_cons,
        Option.some_inj, Option.some_inj]
      exact iff_of_false (ne_of_isHigh hx hy) (ne_of_isHigh hc hy)

section code

variable {close prev prev' : Char} {depth : Nat} {outer outer' : List Frame}

lemma codeStep_slash_alike (hprev : precedesOperand prev = precedesOperand prev')
    (houter : List.Forall₂ Frame.Alike outer outer') (before before' s : Text) :
    Step.Alike s (codeStep close depth prev outer before '/' s)
      (codeStep close depth prev' outer' before' '/' (octets s)) := by
  by_cases hline : s.head? = some '/'
  · obtain ⟨s, rfl⟩ := List.head?_eq_some_iff.mp hline
    rw [octets_cons_ascii rfl]
    have hlength := lineCommentLength_octets ('/' :: s)
    rw [octets_cons_ascii rfl] at hlength
    change Step.Alike _ (.go (lineCommentLength ('/' :: s)) (.code close depth prev :: outer))
      (.go (lineCommentLength ('/' :: octets s)) (.code close depth prev' :: outer'))
    rw [hlength]
    exact .go (.cons (.code hprev) houter)
  by_cases hblock : s.head? = some '*'
  · obtain ⟨s, rfl⟩ := List.head?_eq_some_iff.mp hblock
    have hlength : blockCommentLength (octets s) = (blockCommentLength s).map (byteOffset s) :=
      lengthPast_octets (by decide) s
    rw [octets_cons_ascii rfl, codeStep_blockComment, codeStep_blockComment,
      hlength]
    have hskip (n : Nat) : byteOffset s n + 1 = byteOffset ('*' :: s) (n + 1) := by
      rw [Text.byteOffset_cons, utf8Size_of_ascii rfl, Nat.add_comm]
    have hmap : ((blockCommentLength s).map (byteOffset s)).map (· + 1) =
        ((blockCommentLength s).map (· + 1)).map (byteOffset ('*' :: s)) := by
      rw [Option.map_map, Option.map_map]
      exact congrArg (Option.map · _) (funext hskip)
    rw [hmap]
    exact past_alike (.cons (.code hprev) houter)
  -- no comment begins here, nor does one among the bytes
  rw [codeStep_slash _ _ _ _ _ hline hblock,
    codeStep_slash _ _ _ _ _ (mt (head?_octets rfl s).mp hline) (mt (head?_octets rfl s).mp hblock),
    regexLength_octets, ← hprev]
  cases regexLength false s with
  | none => exact .stay (.cons (.refl _) houter)
  | some n =>
    dsimp only [Option.map_some]
    split
    · exact .go (.cons (.refl _) houter)
    · exact .stay (.cons (.refl _) houter)

lemma tag_alike (role : Text → TagRole) (hrole : ∀ name, role (octets name) = role name)
    (h : List.Forall₂ Frame.Alike outer outer') (s : Text) :
    Step.Alike s (.go (tagName s).length (.tag (role (tagName s)) depth :: outer))
      (.go (tagName (octets s)).length (.tag (role (tagName (octets s))) depth :: outer')) := by
  have hskip : (octets (tagName s)).length = byteOffset s (tagName s).length := by
    rw [length_octets]
    exact (Text.byteOffset_takeWhile _ s).symm
  rw [tagName_octets, hrole, hskip]
  exact .go (.cons (.refl _) h)

lemma ofName_octets (name : Text) : TagRole.ofName (octets name) = TagRole.ofName name := by
  rw [TagRole.ofName, isVoidName_octets, TagRole.ofName]

lemma codeStep_alike (hc : isHigh c = false) (hprev : precedesOperand prev = precedesOperand prev')
    (houter : List.Forall₂ Frame.Alike outer outer') (before s : Text) :
    Step.Alike s (codeStep close depth prev outer before c s)
      (codeStep close depth prev' outer' (octets before.reverse).reverse c (octets s)) := by
  by_cases hquote : c = '"' ∨ c = '\''
  · rw [codeStep_string _ _ _ _ _ hquote, codeStep_string _ _ _ _ _ hquote]
    rw [quotedLength_octets hquote]
    exact past_alike (.cons (.refl _) houter)
  by_cases hbracket : c = ')' ∨ c = ']' ∨ c = '\x7d'
  · rw [codeStep_closing _ _ _ _ _ hbracket, codeStep_closing _ _ _ _ _ hbracket]
    cases depth with
    | zero =>
      dsimp only
      split
      · exact leave_alike houter
      · exact .stay (.cons (.refl _) houter)
    | succ depth => exact .stay (.cons (.refl _) houter)
  -- left are plain characters, opening brackets, templates, slashes and tags
  cases hplain : isPlain c with
  | true =>
    rw [codeStep_plain _ _ _ _ hplain, codeStep_plain _ _ _ _ hplain]
    refine .stay (.cons (.code ?_) houter)
    split
    · exact hprev
    · rfl
  | false =>
    rcases cases_of_isPlain_eq_false hplain with
      rfl | rfl | rfl | rfl | rfl | rfl | rfl | rfl | rfl | rfl | rfl
    · exact .stay (.cons (.refl _) houter)
    · exact absurd (.inl rfl) hbracket
    · exact .stay (.cons (.refl _) houter)
    · exact absurd (.inr (.inl rfl)) hbracket
    · exact .stay (.cons (.refl _) houter)
    · exact absurd (.inr (.inr rfl)) hbracket
    · exact absurd (.inl rfl) hquote
    · exact absurd (.inr rfl) hquote
    · exact .stay (.cons .template (.cons (.refl _) houter))
    · exact codeStep_slash_alike hprev houter ..
    · rw [codeStep_less, codeStep_less, startsTagName_octets, followsReturn_octets, ← hprev]
      split
      · exact tag_alike .ofName ofName_octets (.cons (.refl _) houter) s
      · exact .stay (.cons (.refl _) houter)

end code

section step

variable {depth : Nat} {outer outer' : List Frame}

lemma templateStep_alike (hc : isHigh c = false) (h : List.Forall₂ Frame.Alike outer outer')
    (s : Text) : Step.Alike s (templateStep outer c s) (templateStep outer' c (octets s)) := by
  have hframes := List.Forall₂.cons Frame.Alike.template h
  by_cases hescape : c = '\\'
  · subst hescape
    exact .escape h
  by_cases hbacktick : c = '`'
  · subst hbacktick
    exact leave_alike h
  by_cases hdollar : c = '$' ∧ s.head? = some '\x7b'
  · obtain ⟨rfl, hbrace⟩ := hdollar
    obtain ⟨s, rfl⟩ := List.head?_eq_some_iff.mp hbrace
    rw [octets_cons_ascii rfl]
    exact .go (n := 1) (.cons (.refl _) hframes)
  have hdollar : c = '$' → s.head? ≠ some '\x7b' := fun h h' => hdollar ⟨h, h'⟩
  rw [templateStep_plain hescape hbacktick hdollar,
    templateStep_plain hescape hbacktick fun h => mt (head?_octets rfl s).mp (hdollar h)]
  exact .stay hframes

lemma afterTag_alike (role : TagRole) (selfClosing : Bool)
    (h : List.Forall₂ Frame.Alike outer outer') :
    List.Forall₂ Frame.Alike (afterTag role selfClosing depth outer)
      (afterTag role selfClosing depth outer') := by
  unfold afterTag
  split
  · exact .cons (.refl _) h
  · split
    · exact h
    · exact .cons (.refl _) h
  · split
    · exact h
    · exact .cons (.refl _) h

lemma tagStep_alike (hc : isHigh c = false) (role : TagRole)
    (h : List.Forall₂ Frame.Alike outer outer') (s : Text) :
    Step.Alike s (tagStep role depth outer c s) (tagStep role depth outer' c (octets s)) := by
  have hframes := List.Forall₂.cons (Frame.Alike.tag role depth) h
  by_cases hquote : c = '"' ∨ c = '\''
  · rw [tagStep_quoted _ _ _ hquote, tagStep_quoted _ _ _ hquote,
      lengthPast_octets (by simpa using hc)]
    exact past_alike hframes
  by_cases hbacktick : c = '`'
  · subst hbacktick
    exact .stay (.cons .template hframes)
  by_cases hbrace : c = '\x7b'
  · subst hbrace
    exact .stay (.cons (.refl _) hframes)
  by_cases hend : c = '>'
  · subst hend
    exact .stay (afterTag_alike role false h)
  by_cases hslash : c = '/' ∧ s.head? = some '>'
  · obtain ⟨rfl, hnext⟩ := hslash
    obtain ⟨s, rfl⟩ := List.head?_eq_some_iff.mp hnext
    rw [octets_cons_ascii rfl]
    exact .go (n := 1) (afterTag_alike role true h)
  have hslash : c = '/' → s.head? ≠ some '>' := fun h h' => hslash ⟨h, h'⟩
  rw [not_or] at hquote
  rw [tagStep_plain _ _ _ hquote.1 hquote.2 hbacktick hbrace hslash hend,
    tagStep_plain _ _ _ hquote.1 hquote.2 hbacktick hbrace
      (fun h => mt (head?_octets rfl s).mp (hslash h)) hend]
  exact .stay hframes

lemma markupStep_less_alike (h : List.Forall₂ Frame.Alike outer outer') (before before' s : Text) :
    Step.Alike s (markupStep depth outer before '<' s)
      (markupStep depth outer' before' '<' (octets s)) := by
  have hframes := List.Forall₂.cons (Frame.Alike.markup depth) h
  have hopening : ['!', '-', '-'] <+: octets s ↔ ['!', '-', '-'] <+: s := by
    rw [← List.isPrefixOf_iff_prefix, ← List.isPrefixOf_iff_prefix,
      ← List.isSome_isPrefixOf?_eq_isPrefixOf, ← List.isSome_isPrefixOf?_eq_isPrefixOf, octets_eq,
      spells_octets.isPrefixOf? (by decide), Option.isSome_map]
  by_cases hcomment : ['!', '-', '-'] <+: s
  · rw [markupStep_comment _ _ _ hcomment, markupStep_comment _ _ _ (hopening.mpr hcomment),
      lengthPast_octets (by decide)]
    exact past_alike hframes
  by_cases hslash : s.head? = some '/'
  · obtain ⟨s, rfl⟩ := List.head?_eq_some_iff.mp hslash
    rw [octets_cons_ascii rfl, markupStep_slash, markupStep_slash, startsTagName_octets]
    split
    · -- one more for the slash, which is one byte
      have hskip : 1 + (octets (tagName s)).length =
          byteOffset ('/' :: s) (1 + (tagName s).length) := by
        rw [Nat.add_comm 1 (tagName s).length, Text.byteOffset_cons, length_octets,
          utf8Size_of_ascii rfl]
        exact congrArg (1 + ·) (Text.byteOffset_takeWhile _ s).symm
      rw [tagName_octets, hskip]
      exact .go (.cons (.refl _) h)
    · exact .stay hframes
  rw [markupStep_less _ _ _ hcomment hslash,
    markupStep_less _ _ _ (mt hopening.mp hcomment) (mt (head?_octets rfl s).mp hslash),
    startsTagName_octets]
  split
  · exact tag_alike .ofName ofName_octets h s
  · exact .stay hframes

lemma markupStep_alike (hc : isHigh c = false) (h : List.Forall₂ Frame.Alike outer outer')
    (before s : Text) :
    Step.Alike s (markupStep depth outer before c s)
      (markupStep depth outer' (octets before.reverse).reverse c (octets s)) := by
  by_cases hopen : c = '\x7b'
  · subst hopen
    exact .stay (.cons (.refl _) (.cons (.refl _) h))
  by_cases hclose : c = '\x7d'
  · subst hclose
    cases h with
    | nil => exact .unclosed
    | cons hframe houter =>
      cases hframe with
      | code hprev => exact codeStep_alike hc hprev houter before s
      | _ => exact .unclosed
  by_cases hless : c = '<'
  · subst hless
    exact markupStep_less_alike h ..
  rw [markupStep_plain _ _ _ hopen hclose hless, markupStep_plain _ _ _ hopen hclose hless]
  exact .stay (.cons (.refl _) h)

lemma step_alike {frames frames' : List Frame} (hc : isHigh c = false)
    (h : List.Forall₂ Frame.Alike frames frames') (before s : Text) :
    Step.Alike s (step frames before c s)
      (step frames' (octets before.reverse).reverse c (octets s)) := by
  cases h with
  | nil => exact .unclosed
  | cons hframe houter =>
    cases hframe with
    | code hprev => exact codeStep_alike hc hprev houter before s
    | template => exact templateStep_alike hc houter s
    | markup depth => exact markupStep_alike hc houter before s
    | tag role depth => exact tagStep_alike hc role houter s

end step

/-! ### Runs -/

/-- The frames behind a character outside of ASCII. -/
def afterHigh (x : Char) : List Frame → List Frame
  | .code close depth _ :: outer => .code close depth x :: outer
  | frames => frames

lemma contains_of_isHigh {l : Text} {x : Char} (hl : l.all (!isHigh ·) = true)
    (hx : isHigh x = true) : l.contains x = false := by
  rw [Bool.eq_false_iff, ne_eq, List.contains_iff_mem]
  exact Text.not_mem_of_all hl (by rw [hx]; rfl)

lemma afterHigh_alike {x y : Char} {frames frames' : List Frame} (hx : isHigh x = true)
    (hy : isHigh y = true) (h : List.Forall₂ Frame.Alike frames frames') :
    List.Forall₂ Frame.Alike (afterHigh x frames) (afterHigh y frames') := by
  have hoperand {z : Char} (hz : isHigh z = true) : precedesOperand z = false :=
    contains_of_isHigh (by decide) hz
  cases h with
  | nil => exact .nil
  | cons hframe houter =>
    cases hframe with
    | code => exact .cons (.code ((hoperand hx).trans (hoperand hy).symm)) houter
    | template => exact .cons .template houter
    | markup depth => exact .cons (.markup depth) houter
    | tag role depth => exact .cons (.tag role depth) houter

lemma step_high {x : Char} (hx : isHigh x = true) {frames : List Frame} (hframes : frames ≠ [])
    (before rest : Text) : step frames before x rest = .go 0 (afterHigh x frames) := by
  have hne {y : Char} (hy : isHigh y = false) : x ≠ y := ne_of_isHigh hx hy
  cases frames with
  | nil => contradiction
  | cons frame outer =>
    cases frame with
    | code close depth prev =>
      have hplain : isPlain x = true := by
        rw [isPlain, contains_of_isHigh (by decide) hx]
        rfl
      rw [step, codeStep_plain _ _ _ _ hplain, isAsciiBlank_of_isHigh hx]
      rfl
    | template =>
      exact templateStep_plain (hne rfl) (hne rfl) (fun h => absurd h (hne rfl)) _
    | markup depth => exact markupStep_plain _ _ _ (hne rfl) (hne rfl) (hne rfl) _
    | tag role depth =>
      exact tagStep_plain _ _ _ (hne rfl) (hne rfl) (hne rfl) (hne rfl)
        (fun h => absurd h (hne rfl)) (hne rfl)

lemma run_nil_frames (skip : Nat) (before s : Text) : run skip [] before s = none := by
  induction s generalizing skip before with
  | nil => rfl
  | cons c s ih =>
    cases skip with
    | zero => rfl
    | succ skip => exact ih skip _

lemma afterHigh_afterHigh (x y : Char) (frames : List Frame) :
    afterHigh y (afterHigh x frames) = afterHigh y frames := by
  cases frames with
  | nil => rfl
  | cons frame outer => cases frame <;> rfl

lemma run_cons_high {x : Char} (hx : isHigh x = true) (frames : List Frame) (before t : Text) :
    run 0 frames before (x :: t) = run 0 (afterHigh x frames) (x :: before) t := by
  by_cases hframes : frames = []
  · rw [hframes, run_nil_frames]
    exact (run_nil_frames ..).symm
  · rw [run, step_high hx hframes]

lemma run_high {l : Text} (hl : l.all isHigh = true) (hne : l ≠ []) (frames : List Frame) :
    ∃ x, isHigh x = true ∧ ∀ before t,
      run 0 frames before (l ++ t) = run 0 (afterHigh x frames) (l.reverse ++ before) t := by
  induction l generalizing frames with
  | nil => contradiction
  | cons x l ih =>
    rw [List.all_cons, Bool.and_eq_true] at hl
    by_cases hlast : l = []
    · subst hlast
      exact ⟨x, hl.1, fun before t => run_cons_high hl.1 frames before t⟩
    · obtain ⟨y, hy, hrun⟩ := ih hl.2 hlast (afterHigh x frames)
      refine ⟨y, hy, fun before t => ?_⟩
      rw [List.cons_append, run_cons_high hl.1, hrun, afterHigh_afterHigh]
      simp

lemma run_add (l t : Text) (n : Nat) (frames : List Frame) (before : Text) :
    run (l.length + n) frames before (l ++ t) = run n frames (l.reverse ++ before) t := by
  induction l generalizing before with
  | nil => rw [List.length_nil, Nat.zero_add]; rfl
  | cons c l ih =>
    rw [List.length_cons, Nat.succ_add, List.cons_append, run, ih]
    simp

/-- A backslash in a template literal passes over one byte, and the others of the character behind
it are text. -/
lemma run_escape (outer : List Frame) (before s : Text) :
    run 1 (.template :: outer) before (octets s) =
      run (byteOffset s 1) (.template :: outer) before (octets s) := by
  cases s with
  | nil => rfl
  | cons c s =>
    obtain ⟨x, l, hoctets, hl, hsize⟩ := exists_octets_cons c
    have hskip : byteOffset (c :: s) 1 = (x :: l).length + 0 := by
      simp [byteOffset, hsize]
    rw [octets_cons, hoctets, hskip, run_add, List.cons_append, run]
    by_cases hne : l = []
    · subst hne
      rfl
    · obtain ⟨y, -, hrun⟩ := run_high hl hne (.template :: outer)
      rw [hrun]
      simp [afterHigh]

lemma octets_reverse_cons (c : Char) (before : Text) :
    (octets (c :: before).reverse).reverse =
      (octets [c]).reverse ++ (octets before.reverse).reverse := by
  rw [List.reverse_cons, octets_append, List.reverse_append]

/-- **The scan over bytes** ends where the scan over characters does. -/
theorem run_octets {frames frames' : List Frame} (h : List.Forall₂ Frame.Alike frames frames')
    (n : Nat) (before s : Text) :
    run (byteOffset s n) frames' (octets before.reverse).reverse (octets s) =
      (run n frames before s).map fun (inner, rest) => (octets inner, octets rest) := by
  -- a character is one step here, and as many as it has bytes there
  induction s generalizing n frames frames' before with
  | nil => rfl
  | cons c s ih =>
    cases n with
    | succ n =>
      have hsize : c.utf8Size = (octets [c]).length := by simp [length_octets]
      rw [Text.byteOffset_cons, octets_cons, hsize, run_add, ← octets_reverse_cons, ih h n]
      rfl
    | zero =>
      cases hc : isHigh c with
      | false =>
        have hstep := step_alike hc h before s
        have hbefore := octets_reverse_cons c before
        rw [octets_singleton hc, List.reverse_singleton, List.singleton_append] at hbefore
        have hzero : byteOffset (c :: s) 0 = 0 := rfl
        rw [octets_cons_ascii hc, hzero, run, run]
        generalize step frames before c s = here at hstep ⊢
        generalize step frames' _ c (octets s) = here' at hstep ⊢
        cases hstep with
        | found => simp
        | unclosed => rfl
        | go hframes =>
          dsimp only
          rw [← hbefore, ih hframes]
        | escape houter =>
          dsimp only
          rw [← hbefore, run_escape, ih (.cons .template houter)]
      | true =>
        -- its bytes do nothing but take the place of the character before
        obtain ⟨x, hx, hrun⟩ := run_high (all_isHigh_octets hc) (octets_ne_nil c) frames'
        rw [octets_cons]
        change run 0 _ _ _ = _
        rw [hrun, ← octets_reverse_cons, run_cons_high hc]
        exact ih (afterHigh_alike hc hx h) 0 (c :: before)

end TsxLowering.Code
