import TsxLowering.Proofs.Descent.Steps

/-!
The scanners that call each other, and the one-pass scan.

The frames of the one-pass scan are the calls that have not ended yet. So a scanner ends where the
scan leaves its frame, and meets the end of the text where the scan does. All offsets but one grow
from call to call: code calls the scanner for markup at the `<` itself, which is the same offset.
-/

namespace TsxLowering.Code.Descent

open Markup (startsTagName isVoidName)
open Text (stringEnd regexEnd codeRest templateRest markupRest tagEnd tagRest)

variable {s : Text} {i j : Nat} {c : Char}

/-! ### The one-pass scan by offsets -/

/-- What the one-pass scan gives in these frames from offset `i` on. -/
def scanFrom (s : Text) (frames : List Frame) (i : Nat) : Option (Text × Text) :=
  run 0 frames (s.take i).reverse (s.drop i)

/-- What it gives after this step at offset `i`. -/
def scanPast (s : Text) (i : Nat) : Step → Option (Text × Text)
  | .found => some (s.take i, s.drop (i + 1))
  | .unclosed => none
  | .go skip frames => scanFrom s frames (i + 1 + skip)

lemma scanFrom_of_le (h : s.length ≤ i) (frames : List Frame) : scanFrom s frames i = none := by
  rw [scanFrom, List.drop_eq_nil_of_le h, run]

lemma run_eq_scanFrom (s : Text) (frames : List Frame) (n i : Nat) :
    run n frames (s.take i).reverse (s.drop i) = scanFrom s frames (i + n) := by
  induction n generalizing i with
  | zero => rfl
  | succ n ih =>
    cases hi : s[i]? with
    | none =>
      rw [List.getElem?_eq_none_iff] at hi
      rw [scanFrom_of_le (by omega), List.drop_eq_nil_of_le hi, run]
    | some c =>
      have hnext := ih (i + 1)
      rw [List.take_add_one, hi, List.reverse_append] at hnext
      rw [drop_of_getElem? hi, run, Nat.add_comm n, ← Nat.add_assoc]
      exact hnext

lemma scanFrom_step (h : s[i]? = some c) (frames : List Frame) :
    scanFrom s frames i =
      scanPast s i (step frames (s.take i).reverse c (s.drop (i + 1))) := by
  rw [scanFrom, drop_of_getElem? h, run]
  cases step frames (s.take i).reverse c (s.drop (i + 1)) with
  | found => rw [List.reverse_reverse, scanPast]
  | unclosed => rfl
  | go skip frames =>
    have hskip := run_eq_scanFrom s frames skip (i + 1)
    rw [List.take_add_one, h, List.reverse_append] at hskip
    exact hskip

lemma scanPast_leave_cons (frame : Frame) (outer : List Frame) :
    scanPast s i (leave (frame :: outer)) = scanFrom s (frame :: outer) (i + 1) := rfl

/-! ### What the scanners give -/

/-- A scan of code from `i` on ends at its `close`, where the one-pass scan leaves the frame. -/
def EndsCode (s : Text) (close : Char) (depth : Nat) (prev : Char) (i : Nat) : Scan Nat → Prop :=
  Meets (∀ outer, scanFrom s (.code close depth prev :: outer) i = none)
    fun j => i ≤ j ∧ s[j]? = some close ∧
      ∀ outer, scanFrom s (.code close depth prev :: outer) i = scanPast s j (leave outer)

/-- A scan of a template literal ends past its backtick. -/
def EndsTemplate (s : Text) (i : Nat) : Scan Nat → Prop :=
  Meets (∀ outer, scanFrom s (.template :: outer) i = none)
    fun j => i < j ∧ s[j - 1]? = some '`' ∧
      ∀ outer, scanFrom s (.template :: outer) i = scanPast s (j - 1) (leave outer)

/-- A scan of a tag ends past it, where the one-pass scan has done what the end of a tag does. -/
def EndsTag (s : Text) (i : Nat) : Scan (Nat × Bool) → Prop :=
  Meets (∀ role depth outer, scanFrom s (.tag role depth :: outer) i = none)
    fun (j, selfClosing) => i < j ∧ j ≤ s.length ∧
      ∀ role depth outer, scanFrom s (.tag role depth :: outer) i =
        scanFrom s (afterTag role selfClosing depth outer) j

/-- A scan of markup ends where the one-pass scan is back in the code around it. That may be where
the markup begins, if a brace stands there. -/
def EndsMarkup (s : Text) (depth : Nat) (i : Nat) : Scan Nat → Prop :=
  Meets (∀ close d prev outer, scanFrom s (.markup depth :: .code close d prev :: outer) i = none)
    fun j => i ≤ j ∧ j ≤ s.length ∧ (s[i]? ≠ some '\x7d' → i < j) ∧
      ∀ close d prev outer, scanFrom s (.markup depth :: .code close d prev :: outer) i =
        scanFrom s (.code close d prev :: outer) j

/-- All scanners do so at this offset. -/
structure AllEnd (s : Text) (i : Nat) : Prop where
  code : ∀ close depth prev, EndsCode s close depth prev i (codeRest s close depth prev i)
  template : EndsTemplate s i (templateRest s i)
  tag : EndsTag s i (tagRest s i)
  markup : ∀ depth, EndsMarkup s depth i (markupRest s depth i)

lemma allEnd_of_le (h : s.length ≤ i) : AllEnd s i where
  code close depth prev := by
    rw [codeRest, List.getElem?_eq_none h]
    exact .failure fun outer => scanFrom_of_le h _
  template := by
    rw [templateRest, List.getElem?_eq_none h]
    exact .failure fun outer => scanFrom_of_le h _
  tag := by
    rw [tagRest, List.getElem?_eq_none h]
    exact .failure fun role depth outer => scanFrom_of_le h _
  markup depth := by
    rw [markupRest, List.getElem?_eq_none h]
    exact .failure fun close d prev outer => scanFrom_of_le h _

/-! ### Code -/

section code

variable {close prev p : Char} {depth d : Nat}

/-- If the one-pass scan comes from `i` to `j` and is in the same code there, it is enough to scan
from `j` on. -/
lemma EndsCode.back {x : Scan Nat} (h : EndsCode s close d p j x) (hij : i ≤ j)
    (hscan : ∀ outer, scanFrom s (.code close depth prev :: outer) i =
      scanFrom s (.code close d p :: outer) j) : EndsCode s close depth prev i x := by
  refine h.mono (fun hnone outer => ?_) fun k hk => ?_
  · rw [hscan, hnone]
  · obtain ⟨hjk, hclose, hleave⟩ := hk
    refine ⟨by omega, hclose, fun outer => ?_⟩
    rw [hscan, hleave]

lemma endsCode_string (hc : s[i]? = some c) (hquote : c = '"' ∨ c = '\'')
    (hlater : ∀ j, i < j → AllEnd s j) :
    EndsCode s close depth prev i (stringEnd s i >>= codeRest s close depth c) := by
  have hscan (outer : List Frame) : scanFrom s (.code close depth prev :: outer) i =
      scanPast s i (past (.code close depth c :: outer) (quotedLength c (s.drop (i + 1)))) := by
    rw [scanFrom_step hc, step, codeStep_string _ _ _ _ _ hquote]
  rw [stringEnd, charAt, hc]
  dsimp only
  rw [pure_bind, stringRest_eq hquote]
  cases hlength : quotedLength c (s.drop (i + 1)) with
  | none =>
    refine .failure fun outer => ?_
    rw [hscan, hlength]
    rfl
  | some n =>
    refine ((hlater (i + 1 + n) (by omega)).code close depth c).back (by omega) fun outer => ?_
    rw [hscan, hlength]
    rfl

lemma endsCode_template (hc : s[i]? = some '`') (hlater : ∀ j, i < j → AllEnd s j) :
    EndsCode s close depth prev i (templateRest s (i + 1) >>= codeRest s close depth '`') := by
  have hscan (outer : List Frame) : scanFrom s (.code close depth prev :: outer) i =
      scanFrom s (.template :: .code close depth '`' :: outer) (i + 1) := scanFrom_step hc _
  refine (hlater (i + 1) (by omega)).template.bind (fun hnone outer => ?_)
    fun j hj => ?_
  · rw [hscan, hnone]
  · obtain ⟨hij, -, hleave⟩ := hj
    refine ((hlater j (by omega)).code close depth '`').back (by omega) fun outer => ?_
    rw [hscan, hleave, scanPast_leave_cons, Nat.sub_add_cancel (by omega)]

/-- The step at a tag is the same in markup and in code where an operand is due. -/
lemma endsCode_markup (hc : s[i]? = some '<') (hstarts : startsTagName (s.drop (i + 1)) = true)
    (hdue : (precedesOperand prev || followsReturn (s.take i).reverse) = true)
    (hlater : ∀ j, i < j → AllEnd s j) (hmarkup : EndsMarkup s 0 i (markupRest s 0 i)) :
    EndsCode s close depth prev i (markupRest s 0 i >>= codeRest s close depth ')') := by
  have hscan (outer : List Frame) : scanFrom s (.code close depth prev :: outer) i =
      scanFrom s (.markup 0 :: .code close depth ')' :: outer) i := by
    rw [scanFrom_step hc, scanFrom_step hc, opens_markup 0 _ _ _ hstarts, step, codeStep_less,
      hstarts, hdue]
    rfl
  refine hmarkup.bind (fun hnone outer => ?_) fun j hj => ?_
  · rw [hscan, hnone]
  · obtain ⟨-, -, hij, hback⟩ := hj
    have hij : i < j := hij (by simp [hc])
    refine ((hlater j hij).code close depth ')').back (by omega) fun outer => ?_
    rw [hscan, hback]

lemma endsCode_less (hc : s[i]? = some '<') (hlater : ∀ j, i < j → AllEnd s j)
    (hmarkup : EndsMarkup s 0 i (markupRest s 0 i)) :
    EndsCode s close depth prev i (do
      if startsTagName (s.drop (i + 1)) && (← operandDue s prev i) then
        codeRest s close depth ')' (← markupRest s 0 i)
      else
        codeRest s close depth '<' (i + 1)) := by
  rw [operandDue_eq (Nat.le_of_lt (lt_of_getElem? hc)), pure_bind]
  split
  · next h =>
    rw [Bool.and_eq_true] at h
    exact endsCode_markup hc h.1 h.2 hlater hmarkup
  · next h =>
    refine ((hlater (i + 1) (by omega)).code close depth '<').back (by omega) fun outer => ?_
    rw [scanFrom_step hc, step, codeStep_less, if_neg h]
    rfl

lemma endsCode_lineComment (hc : s[i]? = some '/') (hnext : s[i + 1]? = some '/')
    (hlater : ∀ j, i < j → AllEnd s j) :
    EndsCode s close depth prev i (lineCommentEnd s i >>= codeRest s close depth prev) := by
  have hlength : i + lineCommentLength (s.drop i) =
      i + 1 + lineCommentLength (s.drop (i + 1)) := by
    rw [drop_of_getElem? hc, lineCommentLength_cons (by decide)]
    omega
  rw [lineCommentEnd_eq (Nat.le_of_lt (lt_of_getElem? hc)), pure_bind, hlength]
  refine ((hlater _ (by omega)).code close depth prev).back (by omega) fun outer => ?_
  rw [scanFrom_step hc, drop_of_getElem? hnext]
  rfl

lemma endsCode_blockComment (hc : s[i]? = some '/') (hnext : s[i + 1]? = some '*')
    (hlater : ∀ j, i < j → AllEnd s j) :
    EndsCode s close depth prev i (blockCommentEnd s i >>= codeRest s close depth prev) := by
  have hscan (outer : List Frame) : scanFrom s (.code close depth prev :: outer) i =
      scanPast s i (past (.code close depth prev :: outer)
        ((blockCommentLength (s.drop (i + 2))).map (· + 1))) := by
    rw [scanFrom_step hc, drop_of_getElem? hnext, step, codeStep_blockComment]
  refine (blockCommentEnd_meets s i).bind (fun hnone outer => ?_) fun j hj => ?_
  · rw [hscan, hnone]
    rfl
  · obtain ⟨hij, -, hlength⟩ := hj
    refine ((hlater j (by omega)).code close depth prev).back (by omega) fun outer => ?_
    rw [hscan, hlength, Option.map_some, past, scanPast]
    congr 1
    omega

lemma endsCode_regex (hc : s[i]? = some '/') (hline : s[i + 1]? ≠ some '/')
    (hblock : s[i + 1]? ≠ some '*') (hlater : ∀ j, i < j → AllEnd s j) :
    EndsCode s close depth prev i
      (if precedesOperand prev then regexEnd s i >>= codeRest s close depth '/'
      else codeRest s close depth '/' (i + 1)) := by
  have hhead : (s.drop (i + 1)).head? = s[i + 1]? := by rw [List.head?_drop]
  have hscan (outer : List Frame) := scanFrom_step hc (.code close depth prev :: outer)
  simp only [step, codeStep_slash _ _ _ _ _ (hhead ▸ hline) (hhead ▸ hblock)] at hscan
  rw [regexEnd_eq, pure_bind]
  split
  · next hdue =>
    -- without an end on its line the slash stands alone, and both go on behind it
    refine ((hlater _ (lt_pastRegex ..)).code close depth '/').back
      (Nat.le_of_lt (lt_pastRegex ..)) fun outer => ?_
    rw [hscan]
    cases regexLength false (s.drop (i + 1)) with
    | none => rfl
    | some n =>
      dsimp only
      rw [if_pos hdue]
      rfl
  · next hdue =>
    refine ((hlater (i + 1) (by omega)).code close depth '/').back (by omega) fun outer => ?_
    rw [hscan]
    cases regexLength false (s.drop (i + 1)) with
    | none => rfl
    | some n =>
      dsimp only
      rw [if_neg hdue]
      rfl

lemma endsCode_next (hc : s[i]? = some c) (hlater : ∀ j, i < j → AllEnd s j)
    (hstep : ∀ outer, codeStep close depth prev outer (s.take i).reverse c (s.drop (i + 1)) =
      .go 0 (.code close d p :: outer)) :
    EndsCode s close depth prev i (codeRest s close d p (i + 1)) := by
  refine ((hlater (i + 1) (by omega)).code close d p).back (by omega) fun outer => ?_
  rw [scanFrom_step hc, step, hstep]
  rfl

lemma endsCode_closing (hc : s[i]? = some c) (hbracket : c = ')' ∨ c = ']' ∨ c = '\x7d')
    (hlater : ∀ j, i < j → AllEnd s j) :
    EndsCode s close depth prev i
      (match depth with
      | 0 => if c = close then pure i else codeRest s close 0 c (i + 1)
      | depth + 1 => codeRest s close depth c (i + 1)) := by
  cases depth with
  | zero =>
    dsimp only
    split
    · next hclose =>
      refine .pure i ⟨Nat.le_refl i, hclose ▸ hc, fun outer => ?_⟩
      rw [scanFrom_step hc, step, codeStep_closing _ _ _ _ _ hbracket]
      exact congrArg (scanPast s i) (if_pos hclose)
    · next hclose =>
      refine endsCode_next hc hlater fun outer => ?_
      rw [codeStep_closing _ _ _ _ _ hbracket]
      exact if_neg hclose
  | succ depth =>
    exact endsCode_next hc hlater fun outer => codeStep_closing _ _ _ _ _ hbracket _

lemma endsCode_code (hc : s[i]? = some c) (hlater : ∀ j, i < j → AllEnd s j)
    (hmarkup : EndsMarkup s 0 i (markupRest s 0 i)) (close : Char) (depth : Nat) (prev : Char) :
    EndsCode s close depth prev i (codeRest s close depth prev i) := by
  rw [codeRest, hc]
  dsimp only
  split
  · exact endsCode_string hc (.inl rfl) hlater
  · exact endsCode_string hc (.inr rfl) hlater
  · exact endsCode_template hc hlater
  · exact endsCode_less hc hlater hmarkup
  · split
    · next hnext => exact endsCode_lineComment hc hnext hlater
    · next hnext => exact endsCode_blockComment hc hnext hlater
    · next hline hblock => exact endsCode_regex hc hline hblock hlater
  iterate 3
    · exact endsCode_next hc hlater fun outer => rfl
  iterate 3
    · exact endsCode_closing hc (by simp) hlater
  · refine endsCode_next hc hlater fun outer => codeStep_plain _ _ _ _ ?_ _ _
    by_contra hplain
    rcases cases_of_isPlain_eq_false (Bool.not_eq_true _ ▸ hplain) with
      rfl | rfl | rfl | rfl | rfl | rfl | rfl | rfl | rfl | rfl | rfl
    all_goals contradiction

end code

/-! ### Template literals -/

lemma EndsTemplate.back {x : Scan Nat} (h : EndsTemplate s j x) (hij : i ≤ j)
    (hscan : ∀ outer, scanFrom s (.template :: outer) i = scanFrom s (.template :: outer) j) :
    EndsTemplate s i x := by
  refine h.mono (fun hnone outer => ?_) fun k hk => ?_
  · rw [hscan, hnone]
  · obtain ⟨hjk, hclose, hleave⟩ := hk
    refine ⟨by omega, hclose, fun outer => ?_⟩
    rw [hscan, hleave]

lemma endsTemplate_template (hc : s[i]? = some c) (hlater : ∀ j, i < j → AllEnd s j) :
    EndsTemplate s i (templateRest s i) := by
  have hscan (outer : List Frame) := scanFrom_step hc (.template :: outer)
  simp only [step] at hscan
  rw [templateRest, hc]
  dsimp only
  split
  · exact (hlater (i + 2) (by omega)).template.back (by omega) hscan
  · exact .pure (i + 1) ⟨Nat.lt_succ_self i, hc, hscan⟩
  · split
    · next hbrace =>
      -- code up to its brace, then the template again
      rw [drop_of_getElem? hbrace] at hscan
      refine ((hlater (i + 2) (by omega)).code _ _ _).bind (fun hnone outer => ?_)
        fun j hj => ?_
      · exact (hscan outer).trans (hnone _)
      · obtain ⟨hij, -, hleave⟩ := hj
        refine (hlater (j + 1) (by omega)).template.back (by omega) fun outer => ?_
        exact (hscan outer).trans (hleave _)
    · next hbrace =>
      refine (hlater (i + 1) (by omega)).template.back (by omega) fun outer => ?_
      rw [hscan, templateStep_plain (by decide) (by decide) fun _ => by rwa [List.head?_drop]]
      rfl
  · next hescape hbacktick hdollar =>
    refine (hlater (i + 1) (by omega)).template.back (by omega) fun outer => ?_
    rw [hscan, templateStep_plain hescape hbacktick fun h => absurd h hdollar]
    rfl

/-! ### Tags -/

lemma EndsTag.back {x : Scan (Nat × Bool)} (h : EndsTag s j x) (hij : i ≤ j)
    (hscan : ∀ role depth outer, scanFrom s (.tag role depth :: outer) i =
      scanFrom s (.tag role depth :: outer) j) : EndsTag s i x := by
  refine h.mono (fun hnone role depth outer => ?_) fun k hk => ?_
  · rw [hscan, hnone]
  · obtain ⟨hjk, hle, hafter⟩ := hk
    refine ⟨by omega, hle, fun role depth outer => ?_⟩
    rw [hscan, hafter]

lemma endsTag_quoted (hc : s[i]? = some c) (hquote : c = '"' ∨ c = '\'')
    (hlater : ∀ j, i < j → AllEnd s j) :
    EndsTag s i (pastFirst [c] s (i + 1) >>= tagRest s) := by
  have hscan (role : TagRole) (depth : Nat) (outer : List Frame) :
      scanFrom s (.tag role depth :: outer) i =
        scanPast s i (past (.tag role depth :: outer) (lengthPast [c] (s.drop (i + 1)))) := by
    rw [scanFrom_step hc, step, tagStep_quoted _ _ _ hquote]
  refine (pastFirst_meets (by simp) s (i + 1)).bind (fun hnone role depth outer => ?_)
    fun j hj => ?_
  · rw [hscan, hnone]
    rfl
  · obtain ⟨hij, -, hlength⟩ := hj
    refine (hlater j (by omega)).tag.back (by omega) fun role depth outer => ?_
    rw [hscan, hlength, past, scanPast, Nat.add_sub_cancel' hij]

lemma endsTag_tagRest (hc : s[i]? = some c) (hlater : ∀ j, i < j → AllEnd s j) :
    EndsTag s i (tagRest s i) := by
  have hscan (role : TagRole) (depth : Nat) (outer : List Frame) :=
    scanFrom_step hc (.tag role depth :: outer)
  simp only [step] at hscan
  have hi := lt_of_getElem? hc
  rw [tagRest, hc]
  dsimp only
  split
  · exact endsTag_quoted hc (.inl rfl) hlater
  · exact endsTag_quoted hc (.inr rfl) hlater
  · refine (hlater (i + 1) (by omega)).template.bind (fun hnone role depth outer => ?_)
      fun j hj => ?_
    · exact (hscan role depth outer).trans (hnone _)
    · obtain ⟨hij, -, hleave⟩ := hj
      refine (hlater j (by omega)).tag.back (by omega) fun role depth outer => ?_
      refine ((hscan role depth outer).trans (hleave _)).trans ?_
      -- `templateRest` ends behind the backtick, the one-pass scan at it
      rw [scanPast_leave_cons, Nat.sub_add_cancel (by omega)]
  · refine ((hlater (i + 1) (by omega)).code _ _ _).bind (fun hnone role depth outer => ?_)
      fun j hj => ?_
    · exact (hscan role depth outer).trans (hnone _)
    · obtain ⟨hij, -, hleave⟩ := hj
      refine (hlater (j + 1) (by omega)).tag.back (by omega) fun role depth outer => ?_
      exact (hscan role depth outer).trans (hleave _)
  · split
    · next hnext =>
      rw [drop_of_getElem? hnext] at hscan
      exact .pure _ ⟨by omega, lt_of_getElem? hnext, hscan⟩
    · next hnext =>
      refine (hlater (i + 1) (by omega)).tag.back (by omega) fun role depth outer => ?_
      rw [hscan, tagStep_plain _ _ _ (by decide) (by decide) (by decide) (by decide)
        (fun _ => by rwa [List.head?_drop]) (by decide)]
      rfl
  · exact .pure _ ⟨by omega, hi, hscan⟩
  · next hquote hquote' hbacktick hbrace hslash hend =>
    refine (hlater (i + 1) (by omega)).tag.back (by omega) fun role depth outer => ?_
    rw [hscan, tagStep_plain _ _ _ hquote hquote' hbacktick hbrace (fun h => absurd h hslash) hend]
    rfl

lemma tagEnd_meets {start : Nat} (h : start ≤ s.length)
    (htag : ∀ j, start ≤ j → EndsTag s j (tagRest s j)) :
    Meets
      (∀ role depth outer, scanFrom s (.tag role depth :: outer)
        (start + (tagName (s.drop start)).length) = none)
      (fun t => t.nameStop = start + (tagName (s.drop start)).length ∧ t.nameStop < t.stop ∧
        t.stop ≤ s.length ∧ ∀ role depth outer,
          scanFrom s (.tag role depth :: outer) (start + (tagName (s.drop start)).length) =
            scanFrom s (afterTag role t.selfClosing depth outer) t.stop)
      (tagEnd s start) := by
  rw [tagEnd, slice_length h, pure_bind]
  refine (htag _ (Nat.le_add_right ..)).bind id fun (stop, selfClosing) hend => ?_
  exact .pure _ ⟨rfl, hend⟩

/-! ### Markup -/

section markup

variable {depth d : Nat}

lemma EndsMarkup.back {x : Scan Nat} (h : EndsMarkup s d j x) (hij : i < j)
    (hscan : ∀ close d' prev outer, scanFrom s (.markup depth :: .code close d' prev :: outer) i =
      scanFrom s (.markup d :: .code close d' prev :: outer) j) : EndsMarkup s depth i x := by
  refine h.mono (fun hnone close d' prev outer => ?_) fun k hk => ?_
  · rw [hscan, hnone]
  · obtain ⟨hjk, hle, -, hback⟩ := hk
    refine ⟨by omega, hle, fun _ => by omega, fun close d' prev outer => ?_⟩
    rw [hscan, hback]

lemma endsMarkup_comment (hc : s[i]? = some '<') (hopening : ['!', '-', '-'] <+: s.drop (i + 1))
    (hlater : ∀ j, i < j → AllEnd s j) :
    EndsMarkup s depth i (pastFirst ['-', '-', '>'] s i >>= markupRest s depth) := by
  -- one looks for the end from the `<` on, the other behind it
  have hlength : lengthPast ['-', '-', '>'] (s.drop i) =
      (lengthPast ['-', '-', '>'] (s.drop (i + 1))).map (· + 1) := by
    rw [drop_of_getElem? hc]
    exact lengthPast_cons rfl
  have hscan (outer : List Frame) : scanFrom s (.markup depth :: outer) i =
      scanPast s i
        (past (.markup depth :: outer) (lengthPast ['-', '-', '>'] (s.drop (i + 1)))) := by
    rw [scanFrom_step hc, step, markupStep_comment _ _ _ hopening]
  rw [pastFirst_eq, hlength]
  cases hlength : lengthPast ['-', '-', '>'] (s.drop (i + 1)) with
  | none =>
    refine .failure fun close d' prev outer => ?_
    rw [hscan, hlength]
    rfl
  | some n =>
    refine ((hlater (i + (n + 1)) (by omega)).markup depth).back (by omega)
      fun close d' prev outer => ?_
    rw [hscan, hlength, past, scanPast]
    congr 1
    omega

lemma endsMarkup_closingTag (hc : s[i]? = some '<') (hslash : s[i + 1]? = some '/')
    (hstarts : startsTagName (s.drop (i + 2)) = true) (hlater : ∀ j, i < j → AllEnd s j) :
    EndsMarkup s depth i (do
      let tag ← tagEnd s (i + 2)
      if depth - 1 = 0 then pure tag.stop else markupRest s (depth - 1) tag.stop) := by
  have hscan (outer : List Frame) : scanFrom s (.markup depth :: outer) i =
      scanFrom s (.tag .closing depth :: outer) (i + 2 + (tagName (s.drop (i + 2))).length) := by
    have hrest : s.drop (i + 1) = '/' :: s.drop (i + 2) := drop_of_getElem? hslash
    rw [scanFrom_step hc, step, hrest, markupStep_slash, if_pos hstarts, scanPast]
    congr 1
    omega
  refine (tagEnd_meets (lt_of_getElem? hslash) fun j hj => (hlater j (by omega)).tag).bind
    (fun hnone close d' prev outer => ?_) fun tag htag => ?_
  · rw [hscan, hnone]
  · obtain ⟨hname, hlt, hle, hafter⟩ := htag
    -- the closing tag of the outermost element ends the markup
    split
    · next hdepth =>
      refine .pure _ ⟨by omega, hle, fun _ => by omega, fun close d' prev outer => ?_⟩
      rw [hscan, hafter, afterTag, if_pos (by omega)]
    · next hdepth =>
      refine ((hlater tag.stop (by omega)).markup _).back (by omega) fun close d' prev outer => ?_
      rw [hscan, hafter, afterTag, if_neg (by omega)]

lemma endsMarkup_openingTag (hc : s[i]? = some '<')
    (hstarts : startsTagName (s.drop (i + 1)) = true) (hlater : ∀ j, i < j → AllEnd s j) :
    EndsMarkup s depth i (do
      let tag ← tagEnd s (i + 1)
      if !tag.selfClosing && !isVoidName (← slice s (i + 1) tag.nameStop) then
        markupRest s (depth + 1) tag.stop
      else if depth = 0 then pure tag.stop
      else markupRest s depth tag.stop) := by
  have hscan (outer : List Frame) : scanFrom s (.markup depth :: outer) i =
      scanFrom s (.tag (.ofName (tagName (s.drop (i + 1)))) depth :: outer)
        (i + 1 + (tagName (s.drop (i + 1))).length) := by
    rw [scanFrom_step hc, opens_markup depth outer _ _ hstarts]
    rfl
  refine (tagEnd_meets (lt_of_getElem? hc) fun j hj => (hlater j (by omega)).tag).bind
    (fun hnone close d' prev outer => ?_) fun tag htag => ?_
  · rw [hscan, hnone]
  · obtain ⟨hname, hlt, hle, hafter⟩ := htag
    -- the name is cut out of the text once more, to see whether it is void
    have hslice : slice s (i + 1) tag.nameStop = pure (tagName (s.drop (i + 1))) := by
      rw [slice_of_le (by omega) (by omega), hname, List.drop_take, Nat.add_sub_cancel_left]
      exact congrArg pure (List.prefix_iff_eq_take.mp (List.takeWhile_prefix _)).symm
    have hscan (outer : List Frame) := (hscan outer).trans (hafter _ depth outer)
    simp only [afterTag_ofName] at hscan
    rw [hslice, pure_bind]
    split
    · next hopens =>
      refine ((hlater tag.stop (by omega)).markup _).back (by omega) fun close d' prev outer => ?_
      rw [hscan, if_pos hopens]
    · next hopens =>
      split
      · next hdepth =>
        refine .pure _ ⟨by omega, hle, fun _ => by omega, fun close d' prev outer => ?_⟩
        rw [hscan, if_neg hopens, if_pos hdepth]
      · next hdepth =>
        refine ((hlater tag.stop (by omega)).markup _).back (by omega)
          fun close d' prev outer => ?_
        rw [hscan, if_neg hopens, if_neg hdepth]

lemma endsMarkup_less (hc : s[i]? = some '<') (hcomment : ¬ ['!', '-', '-'] <+: s.drop (i + 1))
    (hclosing : s[i + 1]? = some '/' → startsTagName (s.drop (i + 2)) = false)
    (hopening : startsTagName (s.drop (i + 1)) = false) (hlater : ∀ j, i < j → AllEnd s j) :
    EndsMarkup s depth i (markupRest s depth (i + 1)) := by
  refine ((hlater (i + 1) (by omega)).markup depth).back (by omega) fun close d' prev outer => ?_
  rw [scanFrom_step hc, step]
  by_cases hslash : s[i + 1]? = some '/'
  · have hrest : s.drop (i + 1) = '/' :: s.drop (i + 2) := drop_of_getElem? hslash
    rw [hrest, markupStep_slash, hclosing hslash]
    rfl
  · rw [markupStep_less _ _ _ hcomment (by rwa [List.head?_drop]), hopening]
    rfl

lemma endsMarkup_markup (hc : s[i]? = some c) (hlater : ∀ j, i < j → AllEnd s j) (depth : Nat) :
    EndsMarkup s depth i (markupRest s depth i) := by
  have hi := lt_of_getElem? hc
  have hscan (outer : List Frame) := scanFrom_step hc (.markup depth :: outer)
  simp only [step] at hscan
  rw [markupRest, hc]
  dsimp only
  split
  · refine ((hlater (i + 1) (by omega)).code _ _ _).bind (fun hnone close d' prev outer => ?_)
      fun j hj => ?_
    · exact (hscan _).trans (hnone _)
    · obtain ⟨hij, -, hleave⟩ := hj
      refine ((hlater (j + 1) (by omega)).markup depth).back (by omega)
        fun close d' prev outer => ?_
      exact (hscan _).trans (hleave _)
  · -- the brace is left to the code around the markup
    refine .pure i ⟨Nat.le_refl i, Nat.le_of_lt hi, fun h => absurd hc h,
      fun close d' prev outer => ?_⟩
    rw [hscan, scanFrom_step hc]
    rfl
  · have hcomment : ['<', '!', '-', '-'].isPrefixOf (s.drop i) = true ↔
        ['!', '-', '-'] <+: s.drop (i + 1) := by
      rw [drop_of_getElem? hc, List.isPrefixOf_iff_prefix, List.cons_prefix_cons]
      exact and_iff_right rfl
    rw [slice_length (Nat.le_of_lt hi), pure_bind]
    split
    · next hopening => exact endsMarkup_comment hc (hcomment.mp hopening) hlater
    · next hopening =>
      split
      · next hclosing =>
        rw [Bool.and_eq_true, decide_eq_true_eq] at hclosing
        exact endsMarkup_closingTag hc hclosing.1 hclosing.2 hlater
      · next hclosing =>
        split
        · next hstarts => exact endsMarkup_openingTag hc hstarts hlater
        · next hstarts =>
          exact endsMarkup_less hc (mt hcomment.mpr hopening) (by simpa using hclosing)
            (by simpa using hstarts) hlater
  · next hopen hclose hless =>
    refine ((hlater (i + 1) (by omega)).markup depth).back (by omega)
      fun close d' prev outer => ?_
    rw [hscan, markupStep_plain _ _ _ hopen hclose hless]
    rfl

end markup

/-! ### All offsets -/

/-- **The scanners end**, inside the text and where the one-pass scan does. The induction goes from
the end of the text to its start; code comes after markup, which it may call at its own offset. -/
theorem allEnd (s : Text) (i : Nat) : AllEnd s i := by
  induction i using offset_induction s.length with
  | hend i hi => exact allEnd_of_le hi
  | hstep i hi hlater =>
    have hc : s[i]? = some s[i] := List.getElem?_eq_getElem hi
    have hmarkup := endsMarkup_markup hc hlater
    exact
      { code := endsCode_code hc hlater (hmarkup 0)
        template := endsTemplate_template hc hlater
        tag := endsTag_tagRest hc hlater
        markup := hmarkup }

end TsxLowering.Code.Descent
