import Mathlib.Data.List.Infix
import TsxLowering.Code.Scan

/-!
Code in which everything that is opened is closed, and how a scan runs through it.

Brackets match, strings, template literals and comments end, and so do the tags and elements of the
markup in the code. There are no regular expressions. Markup stands only where an operand is due,
and is then the operand: as after a closing parenthesis, no other element follows it directly. A
scan that enters such code leaves it in the frame it came in. So it finds the end of the code at the
closing bracket right behind it, whatever comes after that. Main statement: `split_nested`.
-/

namespace TsxLowering

namespace Text

lemma not_prefix_of_not_infix {s p t : Text} {x : Char} (hx : x ∉ p) (hs : ¬ p ++ [x] <:+: s)
    (hne : s ≠ []) : ¬ p ++ [x] <+: s ++ (p ++ x :: t) := by
  rintro ⟨r, hr⟩
  rcases List.append_eq_append_iff.mp hr with ⟨w, rfl, -⟩ | ⟨w, hw, hrest⟩
  · exact hs ⟨[], w, by simp⟩
  · -- the pattern reaches beyond `s`, and its last character stands in `p`
    rcases List.eq_nil_or_concat w with rfl | ⟨u, y, rfl⟩
    · exact hs ⟨[], [], by simpa using hw⟩
    · rw [List.concat_eq_append, ← List.append_assoc] at hw
      obtain ⟨hp, hy⟩ := List.append_inj' hw rfl
      obtain rfl : x = y := by simpa using hy
      rw [List.concat_eq_append, List.append_assoc] at hrest
      have hlength := congrArg List.length hp
      have hpos := List.length_pos_iff.mpr hne
      rw [List.length_append] at hlength
      rcases List.append_eq_append_iff.mp hrest with ⟨v, rfl, -⟩ | ⟨v, rfl, hv⟩
      · rw [List.length_append] at hlength
        omega
      · cases v with
        | nil =>
          rw [List.append_nil] at hlength
          omega
        | cons y v =>
          obtain rfl : x = y := (List.cons.inj hv).1
          exact hx (by simp)

/-- **The first occurrence** of a pattern is where it was put. -/
theorem splitOnce_append {s p t : Text} {x : Char} (hx : x ∉ p) (hs : ¬ p ++ [x] <:+: s) :
    (s ++ (p ++ x :: t)).splitOnce (p ++ [x]) = some (s, t) := by
  induction s with
  | nil =>
    have hfirst : (p ++ [x]).isPrefixOf? (p ++ x :: t) = some t :=
      List.isPrefixOf?_eq_some_iff_append_eq.mpr (by simp)
    unfold splitOnce
    simp [hfirst]
  | cons c s ih =>
    have hrest := ih fun h => hs (h.trans (List.suffix_cons c s).isInfix)
    have hfirst : (p ++ [x]).isPrefixOf? (c :: (s ++ (p ++ x :: t))) = none := by
      refine Option.eq_none_iff_forall_ne_some.mpr fun r hr => ?_
      exact not_prefix_of_not_infix hx hs (List.cons_ne_nil c s)
        ⟨r, List.isPrefixOf?_eq_some_iff_append_eq.mp hr⟩
    unfold splitOnce
    simp [hfirst, hrest]

end Text

namespace Code

open Markup (startsTagName isVoidName)

/-! ### The grammar -/

def bracketPairs : List (Char × Char) := [('(', ')'), ('[', ']'), ('\x7b', '\x7d')]

/-- The characters that stand for themselves in code, but for `<`. -/
def isPlain (c : Char) : Bool :=
  !(['(', ')', '[', ']', '\x7b', '\x7d', '"', '\'', '`', '/', '<'].contains c)

/-- The characters that stand for themselves in a tag. -/
def isTagPlain (c : Char) : Bool := !(['"', '\'', '`', '\x7b', '/', '>'].contains c)

/-- The characters that stand for themselves between tags. -/
def isContentPlain (c : Char) : Bool := !(['\x7b', '\x7d', '<'].contains c)

/-- The text between the quotes of a string. -/
inductive StringBody (quote : Char) : Text → Prop
  | nil : StringBody quote []
  | escape {c : Char} {s : Text} (rest : StringBody quote s) : StringBody quote ('\\' :: c :: s)
  | char {c : Char} {s : Text} (quote_ne : c ≠ quote) (backslash_ne : c ≠ '\\')
      (newline_ne : c ≠ '\n') (rest : StringBody quote s) : StringBody quote (c :: s)

/-- The names of elements in code. -/
def isElementName : Text → Bool
  | [] => false
  | c :: s => c.isAlpha && s.all fun c => c.isAlphanum || c == '-' || c == '.' || c == ':'

/-- Where a text stands. -/
inductive Region where
  /-- In code, where `prev` is the last character before that is neither blank nor in a comment. -/
  | code (prev : Char)
  | template
  /-- In a tag, behind its name. -/
  | tag
  /-- Between the two tags of an element. -/
  | content
  /-- A whole element. -/
  | element

/-- A text in which all is closed that is opened. In code an element counts as the character
`operand` for what follows it. -/
inductive Nested (operand : Char) : Region → Text → Prop
  | nil {region : Region} (unfinished : region ≠ .element) : Nested operand region []
  | plain {prev c : Char} {s : Text} (plain : isPlain c = true)
      (rest : Nested operand (.code (if isAsciiBlank c then prev else c)) s) :
      Nested operand (.code prev) (c :: s)
  | less {prev : Char} {s : Text} (notTag : startsTagName s = false)
      (rest : Nested operand (.code '<') s) : Nested operand (.code prev) ('<' :: s)
  | brackets {prev opening closing : Char} {s t : Text} (pair : (opening, closing) ∈ bracketPairs)
      (inner : Nested operand (.code opening) s) (rest : Nested operand (.code closing) t) :
      Nested operand (.code prev) (opening :: s ++ closing :: t)
  | string {prev quote : Char} {s t : Text} (quote_eq : quote = '"' ∨ quote = '\'')
      (body : StringBody quote s) (rest : Nested operand (.code quote) t) :
      Nested operand (.code prev) (quote :: s ++ quote :: t)
  | template {prev : Char} {s t : Text} (body : Nested operand .template s)
      (rest : Nested operand (.code '`') t) : Nested operand (.code prev) ('`' :: s ++ '`' :: t)
  | lineComment {prev : Char} {s t : Text} (body : '\n' ∉ s)
      (rest : Nested operand (.code prev) t) :
      Nested operand (.code prev) ('/' :: '/' :: s ++ '\n' :: t)
  | blockComment {prev : Char} {s t : Text} (body : ¬ ['*', '/'] <:+: s)
      (rest : Nested operand (.code prev) t) :
      Nested operand (.code prev) ('/' :: '*' :: s ++ '*' :: '/' :: t)
  | markup {prev : Char} {s t : Text} (due : precedesOperand prev = true)
      (element : Nested operand .element s) (rest : Nested operand (.code operand) t) :
      Nested operand (.code prev) (s ++ t)
  | escape {c : Char} {s : Text} (rest : Nested operand .template s) :
      Nested operand .template ('\\' :: c :: s)
  /-- A dollar sign in front of a brace would start code. -/
  | char {c : Char} {s : Text} (backtick_ne : c ≠ '`') (backslash_ne : c ≠ '\\')
      (dollar : c = '$' → s.head? ≠ some '\x7b') (rest : Nested operand .template s) :
      Nested operand .template (c :: s)
  | interpolation {s t : Text} (code : Nested operand (.code '=') s)
      (rest : Nested operand .template t) :
      Nested operand .template ('$' :: '\x7b' :: s ++ '\x7d' :: t)
  | tagPlain {c : Char} {s : Text} (plain : isTagPlain c = true) (rest : Nested operand .tag s) :
      Nested operand .tag (c :: s)
  | tagSlash {c : Char} {s : Text} (tagEnd_ne : c ≠ '>') (rest : Nested operand .tag (c :: s)) :
      Nested operand .tag ('/' :: c :: s)
  | tagQuoted {quote : Char} {s t : Text} (quote_eq : quote = '"' ∨ quote = '\'')
      (body : quote ∉ s) (rest : Nested operand .tag t) :
      Nested operand .tag (quote :: s ++ quote :: t)
  | tagTemplate {s t : Text} (body : Nested operand .template s) (rest : Nested operand .tag t) :
      Nested operand .tag ('`' :: s ++ '`' :: t)
  | tagCode {s t : Text} (code : Nested operand (.code '=') s) (rest : Nested operand .tag t) :
      Nested operand .tag ('\x7b' :: s ++ '\x7d' :: t)
  | contentPlain {c : Char} {s : Text} (plain : isContentPlain c = true)
      (rest : Nested operand .content s) : Nested operand .content (c :: s)
  | contentCode {s t : Text} (code : Nested operand (.code '=') s)
      (rest : Nested operand .content t) : Nested operand .content ('\x7b' :: s ++ '\x7d' :: t)
  /-- The three characters that end a comment may share no hyphen with those that open it. -/
  | comment {s t : Text} (body : ¬ ['-', '-', '>'] <:+: s) (start : ¬ ['>'] <+: s)
      (start' : ¬ ['-', '>'] <+: s) (rest : Nested operand .content t) :
      Nested operand .content (['<', '!', '-', '-'] ++ s ++ ['-', '-', '>'] ++ t)
  | child {s t : Text} (element : Nested operand .element s) (rest : Nested operand .content t) :
      Nested operand .content (s ++ t)
  | selfClosing (name : Text) {s : Text} (isName : isElementName name = true)
      (set_off : s.head?.all isAsciiBlank = true) (attributes : Nested operand .tag s) :
      Nested operand .element ('<' :: name ++ s ++ ['/', '>'])
  | void (name : Text) {s : Text} (isName : isElementName name = true)
      (void : isVoidName name = true) (set_off : s.head?.all isAsciiBlank = true)
      (attributes : Nested operand .tag s) :
      Nested operand .element ('<' :: name ++ s ++ ['>'])
  | paired (name blanks : Text) {s t : Text} (isName : isElementName name = true)
      (not_void : isVoidName name = false) (set_off : s.head?.all isAsciiBlank = true)
      (attributes : Nested operand .tag s) (content : Nested operand .content t)
      (blank : blanks.all isAsciiBlank = true) :
      Nested operand .element
        ('<' :: name ++ s ++ '>' :: t ++ '<' :: '/' :: name ++ blanks ++ ['>'])
  | fragment {t : Text} (content : Nested operand .content t) :
      Nested operand .element ('<' :: '>' :: t ++ ['<', '/', '>'])

/-! ### Runs of the scan -/

/-- The scan runs through `s`, in front of `tail`, from some frames to others. -/
def Leads (frames : List Frame) (s : Text) (frames' : List Frame) (tail : Text) : Prop :=
  ∀ before, run 0 frames before (s ++ tail) = run 0 frames' (s.reverse ++ before) tail

lemma Leads.nil (frames : List Frame) (tail : Text) : Leads frames [] frames tail := fun _ => rfl

lemma Leads.append {frames frames' frames'' : List Frame} {s t tail : Text}
    (hs : Leads frames s frames' (t ++ tail)) (ht : Leads frames' t frames'' tail) :
    Leads frames (s ++ t) frames'' tail := by
  intro before
  rw [List.append_assoc, hs, ht, List.reverse_append, List.append_assoc]

lemma run_skip (frames : List Frame) (before s tail : Text) :
    run s.length frames before (s ++ tail) = run 0 frames (s.reverse ++ before) tail := by
  induction s generalizing before with
  | nil => rfl
  | cons c s ih => simpa [run] using ih (c :: before)

lemma Leads.step {frames frames' : List Frame} {c : Char} {s tail : Text}
    (h : ∀ before, Code.step frames before c (s ++ tail) = .go s.length frames') :
    Leads frames (c :: s) frames' tail := by
  intro before
  rw [List.cons_append, run, h before]
  simpa using run_skip frames' (c :: before) s tail

/-! ### Steps of the scan in code -/

lemma cases_of_isPlain_eq_false {c : Char} (h : isPlain c = false) :
    c = '(' ∨ c = ')' ∨ c = '[' ∨ c = ']' ∨ c = '\x7b' ∨ c = '\x7d' ∨ c = '"' ∨ c = '\'' ∨
      c = '`' ∨ c = '/' ∨ c = '<' := by
  rw [isPlain, Bool.not_eq_false', List.contains_iff_mem] at h
  simpa only [List.mem_cons, List.not_mem_nil, or_false] using h

lemma isPlain_of_isBlank {c : Char} (h : isBlank c = true) : isPlain c = true := by
  by_contra hplain
  rw [Bool.not_eq_true] at hplain
  rcases cases_of_isPlain_eq_false hplain with
    rfl | rfl | rfl | rfl | rfl | rfl | rfl | rfl | rfl | rfl | rfl <;>
    exact absurd h (by decide)

section codeStep

variable (close : Char) (depth : Nat) (prev : Char) (outer : List Frame)

/-- All characters but the plain ones have a branch of their own. -/
lemma codeStep_plain {c : Char} (h : isPlain c = true) (before rest : Text) :
    codeStep close depth prev outer before c rest =
      .go 0 (.code close depth (if isAsciiBlank c then prev else c) :: outer) := by
  simp only [codeStep]
  generalize (if isAsciiBlank c then prev else c) = last
  split <;> first | rfl | exact absurd h (by decide)

lemma leads_plain {c : Char} (h : isPlain c = true) (tail : Text) :
    Leads (.code close depth prev :: outer) [c]
      (.code close depth (if isAsciiBlank c then prev else c) :: outer) tail :=
  .step fun before => codeStep_plain close depth prev outer h before _

lemma leads_less {tail : Text} (h : startsTagName tail = false) :
    Leads (.code close depth prev :: outer) ['<'] (.code close depth '<' :: outer) tail := by
  refine .step fun before => ?_
  have hblank : isAsciiBlank '<' = false := rfl
  simp [Code.step, codeStep, h, hblank]

lemma leads_opening {opening closing : Char} (h : (opening, closing) ∈ bracketPairs)
    (tail : Text) :
    Leads (.code close depth prev :: outer) [opening] (.code close (depth + 1) opening :: outer)
      tail := by
  simp only [bracketPairs, List.mem_cons, Prod.mk.injEq, List.not_mem_nil, or_false] at h
  rcases h with ⟨rfl, rfl⟩ | ⟨rfl, rfl⟩ | ⟨rfl, rfl⟩ <;> exact .step fun _ => rfl

lemma leads_closing {opening closing : Char} (h : (opening, closing) ∈ bracketPairs)
    (tail : Text) :
    Leads (.code close (depth + 1) prev :: outer) [closing] (.code close depth closing :: outer)
      tail := by
  simp only [bracketPairs, List.mem_cons, Prod.mk.injEq, List.not_mem_nil, or_false] at h
  rcases h with ⟨rfl, rfl⟩ | ⟨rfl, rfl⟩ | ⟨rfl, rfl⟩ <;> exact .step fun _ => rfl

lemma quotedLength_append {quote : Char} {s : Text} (h : StringBody quote s) (t : Text)
    (hquote : quote = '"' ∨ quote = '\'') :
    quotedLength quote (s ++ quote :: t) = some (s.length + 1) := by
  induction h with
  | nil => rcases hquote with rfl | rfl <;> cases t <;> simp [quotedLength]
  | escape _ ih => simp [quotedLength, ih]
  | char quote_ne backslash_ne newline_ne _ ih =>
    simp [quotedLength, quote_ne, backslash_ne, newline_ne, ih]

lemma leads_string {quote : Char} {s : Text} (hquote : quote = '"' ∨ quote = '\'')
    (hs : StringBody quote s) (tail : Text) :
    Leads (.code close depth prev :: outer) (quote :: (s ++ [quote]))
      (.code close depth quote :: outer) tail := by
  refine .step fun before => ?_
  have hlength := quotedLength_append hs tail hquote
  rcases hquote with rfl | rfl <;> simp [Code.step, codeStep, hlength]

lemma leads_lineComment {s : Text} (hs : '\n' ∉ s) (tail : Text) :
    Leads (.code close depth prev :: outer) ('/' :: '/' :: s) (.code close depth prev :: outer)
      ('\n' :: tail) := by
  refine .step fun before => ?_
  have htake : (s ++ '\n' :: tail).takeWhile (· != '\n') = s := by
    rw [List.takeWhile_append_of_pos fun c hc => by simpa using ne_of_mem_of_not_mem hc hs]
    simp
  simp [Code.step, codeStep, lineCommentLength, htake]

lemma leads_blockComment {s : Text} (hs : ¬ ['*', '/'] <:+: s) (tail : Text) :
    Leads (.code close depth prev :: outer) ('/' :: '*' :: (s ++ ['*', '/']))
      (.code close depth prev :: outer) tail := by
  refine .step fun before => ?_
  have hsplit : Text.splitOnce (s ++ '*' :: '/' :: tail) ['*', '/'] = some (s, tail) :=
    Text.splitOnce_append (p := ['*']) (by decide) hs
  simp [Code.step, codeStep, blockCommentLength, hsplit]

end codeStep

/-! ### Steps of the scan in a template literal -/

lemma leads_escape (c : Char) (outer : List Frame) (tail : Text) :
    Leads (.template :: outer) ['\\', c] (.template :: outer) tail :=
  .step fun _ => rfl

lemma leads_char {c : Char} {s : Text} (hbacktick : c ≠ '`') (hbackslash : c ≠ '\\')
    (hdollar : c = '$' → s.head? ≠ some '\x7b') (outer : List Frame) (tail : Text) :
    Leads (.template :: outer) [c] (.template :: outer) (s ++ '`' :: tail) := by
  refine .step fun before => ?_
  simp only [Code.step, templateStep]
  split
  · contradiction
  · contradiction
  · next hrest =>
    cases s with
    | nil => cases hrest
    | cons d s => exact absurd (congrArg some (List.cons.inj hrest).1) (hdollar rfl)
  · rfl

/-! ### Steps of the scan in markup -/

/-- A tag of this name starts here, and the name ends where `tail` does not go on with it. -/
structure NamesTag (name tail : Text) : Prop where
  starts : startsTagName (name ++ tail) = true
  name_eq : tagName (name ++ tail) = name

lemma namesTag_fragment (tail : Text) : NamesTag [] ('>' :: tail) := ⟨rfl, rfl⟩

lemma namesTag_of_isElementName {name : Text} (h : isElementName name = true) {tail : Text}
    (htail : tagName tail = []) : NamesTag name tail := by
  cases name with
  | nil => cases h
  | cons c s =>
    rw [isElementName, Bool.and_eq_true, List.all_eq_true] at h
    obtain ⟨hc, hs⟩ := h
    have hinName (x : Char) (hx : (x.isAlphanum || x == '-' || x == '.' || x == ':') = true) :
        (!(isAsciiBlank x || x == '>' || x == '/' || x == '\x7b')) = true := by
      by_contra hend
      simp only [isAsciiBlank, Bool.not_eq_true, Bool.not_eq_false', Bool.or_eq_true,
        beq_iff_eq] at hend
      rcases hend with ((((((rfl | rfl) | rfl) | rfl) | rfl) | rfl) | rfl) | rfl
      all_goals exact absurd hx (by decide)
    refine ⟨by simp [startsTagName, hc], ?_⟩
    have hall : ∀ x ∈ c :: s, (!(isAsciiBlank x || x == '>' || x == '/' || x == '\x7b')) = true :=
      List.forall_mem_cons.mpr ⟨hinName c (by simp [Char.isAlphanum, hc]), fun x hx =>
        hinName x (hs x hx)⟩
    unfold tagName at htail ⊢
    rw [List.takeWhile_append_of_pos hall, htail, List.append_nil]

/-- In these frames a `<` in front of a tag name opens a tag, inside `depth` elements. -/
def Opens (frames : List Frame) (depth : Nat) (outer : List Frame) : Prop :=
  ∀ before rest, startsTagName rest = true →
    Code.step frames before '<' rest =
      .go (tagName rest).length (.tag (.ofName (tagName rest)) depth :: outer)

lemma opens_code (close : Char) (depth : Nat) {prev : Char} (outer : List Frame)
    (h : precedesOperand prev = true) :
    Opens (.code close depth prev :: outer) 0 (.code close depth ')' :: outer) := by
  intro before rest hrest
  simp [Code.step, codeStep, h, hrest]

lemma opens_markup (depth : Nat) (outer : List Frame) :
    Opens (.markup depth :: outer) depth outer := by
  intro before rest hrest
  simp only [Code.step, markupStep]
  split
  · contradiction
  · contradiction
  · cases hrest
  · cases hrest
  · simp [hrest]
  · contradiction

lemma Opens.leads {frames outer : List Frame} {depth : Nat} (h : Opens frames depth outer)
    {name tail : Text} (hname : NamesTag name tail) :
    Leads frames ('<' :: name) (.tag (.ofName name) depth :: outer) tail := by
  refine .step fun before => ?_
  rw [h before _ hname.starts, hname.name_eq]

lemma leads_closingTag (depth : Nat) (outer : List Frame) {name tail : Text}
    (hname : NamesTag name tail) :
    Leads (.markup depth :: outer) ('<' :: '/' :: name) (.tag .closing depth :: outer) tail := by
  refine .step fun before => ?_
  simp [Code.step, markupStep, hname.starts, hname.name_eq, Nat.add_comm]

lemma leads_contentPlain {c : Char} (h : isContentPlain c = true) (depth : Nat)
    (outer : List Frame) (tail : Text) :
    Leads (.markup depth :: outer) [c] (.markup depth :: outer) tail := by
  refine .step fun before => ?_
  simp only [Code.step, markupStep]
  split <;> first | rfl | exact absurd h (by decide)

lemma leads_comment {s : Text} (hs : ¬ ['-', '-', '>'] <:+: s) (hstart : ¬ ['>'] <+: s)
    (hstart' : ¬ ['-', '>'] <+: s) (depth : Nat) (outer : List Frame) (tail : Text) :
    Leads (.markup depth :: outer) (['<', '!', '-', '-'] ++ s ++ ['-', '-', '>'])
      (.markup depth :: outer) tail := by
  have hopening : ¬ ['-', '-'] ++ ['>'] <:+: ['!', '-', '-'] ++ s := by
    intro h
    simp only [List.cons_append, List.nil_append, List.infix_cons_iff, List.cons_prefix_cons] at h
    rcases h with ⟨h, -⟩ | ⟨-, -, h⟩ | ⟨-, h⟩ | h
    · exact absurd h (by decide)
    · exact hstart h
    · exact hstart' h
    · exact hs h
  have hsplit : Text.splitOnce (['!', '-', '-'] ++ s ++ '-' :: '-' :: '>' :: tail)
      ['-', '-', '>'] = some (['!', '-', '-'] ++ s, tail) :=
    Text.splitOnce_append (p := ['-', '-']) (by decide) hopening
  refine .step fun before => ?_
  simp only [List.cons_append, List.nil_append] at hsplit
  simp [Code.step, markupStep, hsplit]

/-! ### Steps of the scan in a tag -/

lemma leads_tagPlain {c : Char} (h : isTagPlain c = true) (role : TagRole) (depth : Nat)
    (outer : List Frame) (tail : Text) :
    Leads (.tag role depth :: outer) [c] (.tag role depth :: outer) tail := by
  refine .step fun before => ?_
  simp only [Code.step, tagStep]
  split <;> first | rfl | exact absurd h (by decide)

lemma leads_tagSlash {c : Char} (h : c ≠ '>') (role : TagRole) (depth : Nat) (outer : List Frame)
    (tail : Text) :
    Leads (.tag role depth :: outer) ['/'] (.tag role depth :: outer) (c :: tail) := by
  refine .step fun before => ?_
  simp [Code.step, tagStep, h]

lemma leads_tagQuoted {quote : Char} {s : Text} (hquote : quote = '"' ∨ quote = '\'')
    (hs : quote ∉ s) (role : TagRole) (depth : Nat) (outer : List Frame) (tail : Text) :
    Leads (.tag role depth :: outer) (quote :: (s ++ [quote])) (.tag role depth :: outer) tail := by
  have hsplit : Text.splitOnce (s ++ quote :: tail) [quote] = some (s, tail) :=
    Text.splitOnce_append (p := []) List.not_mem_nil fun h => hs (h.subset (by simp))
  refine .step fun before => ?_
  rcases hquote with rfl | rfl <;> simp [Code.step, tagStep, hsplit]

lemma leads_blanks {blanks : Text} (h : blanks.all isAsciiBlank = true) (role : TagRole)
    (depth : Nat) (outer : List Frame) (tail : Text) :
    Leads (.tag role depth :: outer) blanks (.tag role depth :: outer) tail := by
  induction blanks with
  | nil => exact .nil _ _
  | cons c s ih =>
    rw [List.all_cons, Bool.and_eq_true] at h
    have hplain : isTagPlain c = true := by
      have hc := h.1
      simp only [isAsciiBlank, Bool.or_eq_true, beq_iff_eq] at hc
      rcases hc with (((rfl | rfl) | rfl) | rfl) | rfl <;> rfl
    exact (leads_tagPlain hplain role depth outer _).append (ih h.2)

/-- The frames behind the tag that ends an element, inside `depth` others. -/
def resumed (depth : Nat) (outer : List Frame) : List Frame := afterTag .void true depth outer

lemma leads_selfClosing (name : Text) (depth : Nat) (outer : List Frame) (tail : Text) :
    Leads (.tag (.ofName name) depth :: outer) ['/', '>'] (resumed depth outer) tail := by
  refine .step fun before => ?_
  unfold TagRole.ofName
  split <;> rfl

lemma leads_void {name : Text} (h : isVoidName name = true) (depth : Nat) (outer : List Frame)
    (tail : Text) :
    Leads (.tag (.ofName name) depth :: outer) ['>'] (resumed depth outer) tail := by
  refine .step fun before => ?_
  rw [TagRole.ofName, if_pos h]
  rfl

lemma leads_opened {name : Text} (h : isVoidName name = false) (depth : Nat) (outer : List Frame)
    (tail : Text) :
    Leads (.tag (.ofName name) depth :: outer) ['>'] (.markup (depth + 1) :: outer) tail := by
  refine .step fun before => ?_
  rw [TagRole.ofName, if_neg (by simp [h])]
  rfl

lemma leads_closed (depth : Nat) (outer : List Frame) (tail : Text) :
    Leads (.tag .closing (depth + 1) :: outer) ['>'] (resumed depth outer) tail := by
  refine .step fun before => ?_
  cases depth <;> rfl

/-! ### Nested code -/

/-- A scan that enters a text leaves it in the same frame, and an element in the frame around. -/
def Passes (s : Text) : Region → Prop
  | .code prev => ∀ close depth outer tail, startsTagName tail = false → ∃ prev',
    Leads (.code close depth prev :: outer) s (.code close depth prev' :: outer) tail
  | .template => ∀ outer tail, Leads (.template :: outer) s (.template :: outer) ('`' :: tail)
  | .tag => ∀ role depth outer tail,
    Leads (.tag role depth :: outer) s (.tag role depth :: outer) tail
  | .content => ∀ depth outer tail,
    Leads (.markup (depth + 1) :: outer) s (.markup (depth + 1) :: outer) tail
  | .element => ∀ frames depth outer tail, Opens frames depth outer →
    Leads frames s (resumed depth outer) tail

lemma passes_nil {region : Region} (h : region ≠ .element) : Passes [] region := by
  cases region with
  | code prev => exact fun _ _ _ _ _ => ⟨prev, .nil _ _⟩
  | template => exact fun _ _ => .nil _ _
  | tag => exact fun _ _ _ _ => .nil _ _
  | content => exact fun _ _ _ => .nil _ _
  | element => exact absurd rfl h

lemma Passes.braces {s : Text} (h : Passes s (.code '=')) (frame : Frame) (outer : List Frame)
    (tail : Text) : Leads (braces :: frame :: outer) (s ++ ['\x7d']) (frame :: outer) tail := by
  obtain ⟨prev, hs⟩ := h '\x7d' 0 (frame :: outer) ('\x7d' :: tail) rfl
  exact hs.append (.step fun _ => rfl)

lemma Passes.backtick {s : Text} (h : Passes s .template) (frame : Frame) (outer : List Frame)
    (tail : Text) : Leads (.template :: frame :: outer) (s ++ ['`']) (frame :: outer) tail :=
  (h (frame :: outer) tail).append (.step fun _ => rfl)

lemma tagName_attributes {s tail : Text} (h : s.head?.all isAsciiBlank = true)
    (htail : tagName tail = []) : tagName (s ++ tail) = [] := by
  cases s with
  | nil => exact htail
  | cons c s =>
    have hc : isAsciiBlank c = true := by simpa using h
    simp [tagName, hc]

lemma Passes.startTag {name s tail : Text} (hname : isElementName name = true)
    (hset : s.head?.all isAsciiBlank = true) (hs : Passes s .tag) (htail : tagName tail = [])
    {frames outer : List Frame} {depth : Nat} (h : Opens frames depth outer) :
    Leads frames ('<' :: name ++ s) (.tag (.ofName name) depth :: outer) tail := by
  have hnames := namesTag_of_isElementName hname (tagName_attributes hset htail)
  exact (h.leads hnames).append (hs _ depth outer tail)

lemma Passes.content {t : Text} (ht : Passes t .content) (name blanks : Text)
    (hblanks : blanks.all isAsciiBlank = true)
    (hname : ∀ tail, NamesTag name (blanks ++ '>' :: tail)) (depth : Nat) (outer : List Frame)
    (tail : Text) :
    Leads (.markup (depth + 1) :: outer) (t ++ ('<' :: '/' :: name ++ (blanks ++ ['>'])))
      (resumed depth outer) tail := by
  have hend : Leads (.tag .closing (depth + 1) :: outer) (blanks ++ ['>']) (resumed depth outer)
      tail := (leads_blanks hblanks _ _ _ _).append (leads_closed depth outer tail)
  have hopen : NamesTag name (blanks ++ ['>'] ++ tail) := by simpa using hname tail
  exact (ht depth outer _).append ((leads_closingTag _ outer hopen).append hend)

/-- **Nested code is passed** as a whole. -/
theorem Nested.passes {region : Region} {s : Text} (h : Nested ')' region s) :
    Passes s region := by
  -- each case holds for all frames around the code, so that it can stand in another one
  induction h with
  | nil unfinished => exact passes_nil unfinished
  | @plain prev c s plain _ ih =>
    intro close depth outer tail htail
    obtain ⟨prev', hs⟩ := ih close depth outer tail htail
    exact ⟨prev', (leads_plain close depth prev outer plain _).append hs⟩
  | @less prev s notTag _ ih =>
    intro close depth outer tail htail
    obtain ⟨prev', hs⟩ := ih close depth outer tail htail
    -- what follows the code may not give the `<` a name
    have hless : startsTagName (s ++ tail) = false := by
      cases s with
      | nil => exact htail
      | cons c s => exact notTag
    exact ⟨prev', (leads_less close depth prev outer hless).append hs⟩
  | @brackets prev opening closing s t pair _ _ ihs iht =>
    intro close depth outer tail htail
    have hnotTag : startsTagName (closing :: t ++ tail) = false := by
      simp only [bracketPairs, List.mem_cons, Prod.mk.injEq, List.not_mem_nil, or_false] at pair
      rcases pair with ⟨-, rfl⟩ | ⟨-, rfl⟩ | ⟨-, rfl⟩ <;> rfl
    obtain ⟨prev', hs⟩ := ihs close (depth + 1) outer (closing :: t ++ tail) hnotTag
    obtain ⟨prev'', ht⟩ := iht close depth outer tail htail
    have hclosing := (leads_closing close depth prev' outer pair (t ++ tail)).append ht
    exact ⟨prev'', (leads_opening close depth prev outer pair _).append (hs.append hclosing)⟩
  | @string prev quote s t quote_eq body _ ih =>
    intro close depth outer tail htail
    obtain ⟨prev', ht⟩ := ih close depth outer tail htail
    have hstring := (leads_string close depth prev outer quote_eq body (t ++ tail)).append ht
    exact ⟨prev', by simpa using hstring⟩
  | @template prev s t _ _ ihs iht =>
    intro close depth outer tail htail
    obtain ⟨prev', ht⟩ := iht close depth outer tail htail
    have hopening : Leads (.code close depth prev :: outer) ['`']
        (.template :: .code close depth '`' :: outer) ((s ++ '`' :: t) ++ tail) :=
      .step fun _ => rfl
    have hbody := (ihs.backtick (.code close depth '`') outer (t ++ tail)).append ht
    exact ⟨prev', hopening.append (by simpa using hbody)⟩
  | @lineComment prev s t body _ ih =>
    intro close depth outer tail htail
    obtain ⟨prev', ht⟩ := ih close depth outer tail htail
    have hnewline : Leads (.code close depth prev :: outer) ['\n']
        (.code close depth prev :: outer) (t ++ tail) :=
      leads_plain close depth prev outer (by decide) _
    exact ⟨prev', (leads_lineComment close depth prev outer body _).append (hnewline.append ht)⟩
  | @blockComment prev s t body _ ih =>
    intro close depth outer tail htail
    obtain ⟨prev', ht⟩ := ih close depth outer tail htail
    have hcomment := (leads_blockComment close depth prev outer body (t ++ tail)).append ht
    exact ⟨prev', by simpa using hcomment⟩
  | @markup prev s t due _ _ ihs iht =>
    intro close depth outer tail htail
    obtain ⟨prev', ht⟩ := iht close depth outer tail htail
    exact ⟨prev', (ihs _ _ _ _ (opens_code close depth outer due)).append ht⟩
  | @escape c s _ ih =>
    intro outer tail
    exact (leads_escape c outer _).append (ih outer tail)
  | @char c s hbacktick hbackslash hdollar _ ih =>
    intro outer tail
    exact (leads_char hbacktick hbackslash hdollar outer tail).append (ih outer tail)
  | @interpolation s t _ _ ihs iht =>
    intro outer tail
    have hopening : Leads (.template :: outer) ['$', '\x7b'] (braces :: .template :: outer)
        ((s ++ '\x7d' :: t) ++ '`' :: tail) := .step fun _ => rfl
    have hcode := (ihs.braces .template outer (t ++ '`' :: tail)).append (iht outer tail)
    exact hopening.append (by simpa using hcode)
  | @tagPlain c s plain _ ih =>
    intro role depth outer tail
    exact (leads_tagPlain plain role depth outer _).append (ih role depth outer tail)
  | @tagSlash c s tagEnd_ne _ ih =>
    intro role depth outer tail
    exact (leads_tagSlash tagEnd_ne role depth outer _).append (ih role depth outer tail)
  | @tagQuoted quote s t quote_eq body _ ih =>
    intro role depth outer tail
    have hvalue := (leads_tagQuoted quote_eq body role depth outer (t ++ tail)).append
      (ih role depth outer tail)
    simpa using hvalue
  | @tagTemplate s t _ _ ihs iht =>
    intro role depth outer tail
    have hopening : Leads (.tag role depth :: outer) ['`'] (.template :: .tag role depth :: outer)
        ((s ++ '`' :: t) ++ tail) := .step fun _ => rfl
    have hbody := (ihs.backtick (.tag role depth) outer (t ++ tail)).append
      (iht role depth outer tail)
    exact hopening.append (by simpa using hbody)
  | @tagCode s t _ _ ihs iht =>
    intro role depth outer tail
    have hopening : Leads (.tag role depth :: outer) ['\x7b'] (braces :: .tag role depth :: outer)
        ((s ++ '\x7d' :: t) ++ tail) := .step fun _ => rfl
    have hcode := (ihs.braces (.tag role depth) outer (t ++ tail)).append
      (iht role depth outer tail)
    exact hopening.append (by simpa using hcode)
  | @contentPlain c s plain _ ih =>
    intro depth outer tail
    exact (leads_contentPlain plain _ outer _).append (ih depth outer tail)
  | @contentCode s t _ _ ihs iht =>
    intro depth outer tail
    have hopening : Leads (.markup (depth + 1) :: outer) ['\x7b']
        (braces :: .markup (depth + 1) :: outer) ((s ++ '\x7d' :: t) ++ tail) := .step fun _ => rfl
    have hcode := (ihs.braces (.markup (depth + 1)) outer (t ++ tail)).append
      (iht depth outer tail)
    exact hopening.append (by simpa using hcode)
  | @comment s t body start start' _ ih =>
    intro depth outer tail
    exact (leads_comment body start start' _ outer _).append (ih depth outer tail)
  | @child s t _ _ ihs iht =>
    intro depth outer tail
    exact (ihs _ _ _ _ (opens_markup (depth + 1) outer)).append (iht depth outer tail)
  | @selfClosing name s isName set_off _ ih =>
    intro frames depth outer tail hopens
    exact (ih.startTag isName set_off rfl hopens).append (leads_selfClosing name depth outer tail)
  | @void name s isName void set_off _ ih =>
    intro frames depth outer tail hopens
    exact (ih.startTag isName set_off rfl hopens).append (leads_void void depth outer tail)
  | @paired name blanks s t isName not_void set_off _ _ blank ihs iht =>
    intro frames depth outer tail hopens
    have hset : blanks.head?.all isAsciiBlank = true := by
      cases blanks with
      | nil => rfl
      | cons c blanks => exact (Bool.and_eq_true _ _ ▸ blank).1
    have hcontent := iht.content name blanks blank
      (fun tail => namesTag_of_isElementName isName (tagName_attributes hset rfl)) depth outer tail
    have helement := (ihs.startTag isName set_off rfl hopens).append
      ((leads_opened not_void depth outer _).append hcontent)
    simpa using helement
  | @fragment t _ ih =>
    intro frames depth outer tail hopens
    have hcontent := ih.content [] [] rfl namesTag_fragment depth outer tail
    have helement := (hopens.leads (namesTag_fragment _)).append
      ((leads_opened (by decide) depth outer _).append hcontent)
    simpa using helement

lemma split_of_passes {code : Text} (h : Passes code (.code '=')) {close : Char}
    (hclose : close ∈ bracketPairs.map Prod.snd) (rest : Text) :
    split close (code ++ close :: rest) = some (code, rest) := by
  simp only [bracketPairs, List.map_cons, List.map_nil, List.mem_cons, List.not_mem_nil,
    or_false] at hclose
  have hnotTag : startsTagName (close :: rest) = false := by
    rcases hclose with rfl | rfl | rfl <;> rfl
  obtain ⟨prev, hs⟩ := h close 0 [] (close :: rest) hnotTag
  rw [split, hs []]
  rcases hclose with rfl | rfl | rfl <;> simp [run, step, codeStep, leave]

lemma split_self_of_passes {code : Text} (h : Passes code (.code '=')) (close : Char) :
    split close code = none := by
  obtain ⟨prev, hs⟩ := h close 0 [] [] rfl
  have hrun := hs []
  rw [List.append_nil] at hrun
  rw [split, hrun]
  rfl

/-- **The end of nested code** is the closing bracket behind it, whatever follows that, and there
is none before. -/
theorem split_nested {code : Text} (h : Nested ')' (.code '=') code) {close : Char}
    (hclose : close ∈ bracketPairs.map Prod.snd) (rest : Text) :
    split close (code ++ close :: rest) = some (code, rest) ∧ split close code = none :=
  ⟨split_of_passes h.passes hclose rest, split_self_of_passes h.passes close⟩

/-- Quotes are text between tags, and a brace in a quoted value is none. -/
theorem split_nested_markup :
    split '\x7d' "ok&&<p a='\x7d'>\"\x7bx\x7d<br></p>\x7d\x7d".toList =
        some ("ok&&<p a='\x7d'>\"\x7bx\x7d<br></p>".toList, ['\x7d']) ∧
      split '\x7d' "ok&&<p a='\x7d'>\"\x7bx\x7d<br></p>".toList = none := by
  have hbreak : Nested ')' .element ['<', 'b', 'r', '>'] :=
    .void ['b', 'r'] (s := []) (by decide) (by decide) rfl (.nil Region.noConfusion)
  have hcontent : Nested ')' .content ("\"\x7bx\x7d<br>".toList) :=
    .contentPlain (by decide) (.contentCode (s := ['x']) (.plain (by decide)
      (.nil Region.noConfusion)) (.child hbreak (.nil Region.noConfusion)))
  have hattributes : Nested ')' .tag " a='\x7d'".toList :=
    .tagPlain (by decide) (.tagPlain (by decide) (.tagPlain (by decide)
      (.tagQuoted (s := ['\x7d']) (.inr rfl) (by decide) (.nil Region.noConfusion))))
  have helement : Nested ')' .element "<p a='\x7d'>\"\x7bx\x7d<br></p>".toList :=
    .paired ['p'] [] (by decide) (by decide) rfl hattributes hcontent rfl
  have hcode : Nested ')' (.code '=') "ok&&<p a='\x7d'>\"\x7bx\x7d<br></p>".toList :=
    .plain (by decide) (.plain (by decide) (.plain (by decide) (.plain (by decide)
      (.markup rfl helement (.nil Region.noConfusion)))))
  exact split_nested hcode (by decide) ['\x7d']

/-- The end of an element lets no other element follow, although its last character is one that
lets elements follow. -/
theorem split_adjacent_elements : ¬ ∀ code, Nested '>' (.code '=') code →
    split '\x7d' (code ++ ['\x7d']) = some (code, []) := by
  intro h
  have hfirst : Nested '>' .element "<a/>".toList :=
    .selfClosing ['a'] (s := []) rfl rfl (.nil Region.noConfusion)
  have hsecond : Nested '>' .element "<b>'</b>".toList :=
    .paired ['b'] [] (s := []) (t := ['\'']) rfl (by decide) rfl
      (.nil Region.noConfusion) (.contentPlain rfl (.nil Region.noConfusion)) rfl
  have hcode : Nested '>' (.code '=') "<a/><b>'</b>".toList :=
    .markup rfl hfirst (.markup rfl hsecond (.nil Region.noConfusion))
  exact absurd (h _ hcode) (by decide)

end Code

end TsxLowering
