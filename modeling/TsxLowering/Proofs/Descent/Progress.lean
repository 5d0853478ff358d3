import TsxLowering.Proofs.Descent.Agreement
import TsxLowering.Proofs.Descent.ByteScan
import TsxLowering.Proofs.OpenCode.Reports
import TsxLowering.Proofs.TrimmedCode.Closing

/-!
The scanners on byte strings and on sources, and the progress of the reader.

On every byte string the scanners end without fault, inside it and past their start, and at the
offset that the one-pass scan gives. On the bytes of a source this is the offset at which the reader
goes on, so each event moves the cursor forward, and the last one brings it to the end.
-/

namespace TsxLowering.Code.Descent

open Markup (startsTagName parse Event bodyStart)
open Text (octets stringEnd regexEnd codeRest codeEnd templateRest templateEnd markupEnd tagEnd)

variable {s : Text}

/-! ### Bounds -/

/-- The scanners end without fault, and inside the text. All of them but two may meet the end of
the text before what they look for. -/
structure Bounded (s : Text) : Prop where
  code : ∀ start close, Meets True
    (fun i => start ≤ i ∧ i < s.length ∧ s[i]? = some close) (codeEnd s start close)
  template : ∀ start, Meets True
    (fun i => start < i ∧ i ≤ s.length ∧ s[i - 1]? = some '`') (templateEnd s start)
  markup : ∀ start, Meets True
    (fun i => start ≤ i ∧ i ≤ s.length ∧
      (s[start]? = some '<' → startsTagName (s.drop (start + 1)) = true → start < i))
    (markupEnd s start)
  tag : ∀ start ≤ s.length, Meets True
    (fun t => start ≤ t.nameStop ∧ t.nameStop < t.stop ∧ t.stop ≤ s.length) (tagEnd s start)
  string : ∀ start < s.length, Meets True
    (fun i => start < i ∧ i ≤ s.length) (stringEnd s start)
  blockComment : ∀ start, Meets True
    (fun i => start < i ∧ i ≤ s.length) (blockCommentEnd s start)
  /-- A line comment leaves the line break, so at a line break it is empty. -/
  lineComment : ∀ start < s.length, Meets False
    (fun i => start ≤ i ∧ i ≤ s.length ∧ (s[start]? ≠ some '\n' → start < i))
    (lineCommentEnd s start)
  regex : ∀ start < s.length, Meets False
    (fun i => start < i ∧ i ≤ s.length) (regexEnd s start)
  operand : ∀ i ≤ s.length, ∀ prev, Meets False (fun _ => True) (operandDue s prev i)

theorem bounded (s : Text) : Bounded s where
  code start close := by
    refine ((allEnd s start).code close 0 '=').mono (fun _ => trivial) fun i ⟨hle, hclose, _⟩ => ?_
    exact ⟨hle, lt_of_getElem? hclose, hclose⟩
  template start := by
    refine (allEnd s (start + 1)).template.mono (fun _ => trivial) fun i ⟨hlt, hclose, _⟩ => ?_
    have := lt_of_getElem? hclose
    exact ⟨by omega, by omega, hclose⟩
  markup start := by
    refine ((allEnd s start).markup 0).mono (fun _ => trivial) fun i ⟨hle, hlen, hlt, _⟩ => ?_
    exact ⟨hle, hlen, fun hless _ => hlt (by simp [hless])⟩
  tag start h := by
    refine (tagEnd_meets h fun j _ => (allEnd s j).tag).mono (fun _ => trivial)
      fun t ⟨hname, hlt, hlen, _⟩ => ?_
    exact ⟨by omega, hlt, hlen⟩
  string start h := stringEnd_meets h
  blockComment start := by
    refine (blockCommentEnd_meets s start).mono (fun _ => trivial) fun i ⟨hle, hlen, _⟩ => ?_
    exact ⟨by omega, hlen⟩
  lineComment start h := by
    refine (lineCommentEnd_meets (Nat.le_of_lt h)).mono id fun i ⟨hle, hlen, hi⟩ => ?_
    refine ⟨hle, hlen, fun hline => ?_⟩
    have hc : s[start]? = some s[start] := List.getElem?_eq_getElem h
    have hbreak : s[start] ≠ '\n' := fun heq => hline (heq ▸ hc)
    rw [hi, drop_of_getElem? hc, lineCommentLength_cons hbreak]
    omega
  regex start h := regexEnd_meets h
  operand i h prev := by
    rw [operandDue_eq h]
    exact .pure _ trivial

/-! ### The one-pass scan -/

/-- Code ends where the one-pass scan ends. -/
theorem codeEnd_eq (s : Text) (start : Nat) (close : Char) :
    codeEnd s start close =
      liftOption ((scanFrom s [.code close 0 '='] start).map (·.1.length)) := by
  have hends := (allEnd s start).code close 0 '='
  rw [codeEnd]
  generalize codeRest s close 0 '=' start = x at hends
  cases hends with
  | failure hnone =>
    rw [hnone []]
    rfl
  | pure i hi =>
    obtain ⟨-, hclose, hscan⟩ := hi
    have hlength : (s.take i).length = i :=
      List.length_take_of_le (Nat.le_of_lt (lt_of_getElem? hclose))
    rw [hscan [], leave, scanPast, Option.map_some, hlength]
    rfl

/-- A template literal ends past the backtick at which the one-pass scan ends. -/
theorem templateEnd_eq (s : Text) (start : Nat) :
    templateEnd s start =
      liftOption ((scanFrom s [.template] (start + 1)).map (·.1.length + 1)) := by
  have hends := (allEnd s (start + 1)).template
  rw [templateEnd]
  generalize templateRest s (start + 1) = x at hends
  cases hends with
  | failure hnone =>
    rw [hnone []]
    rfl
  | pure i hi =>
    obtain ⟨hlt, hclose, hscan⟩ := hi
    have hlength : (s.take (i - 1)).length = i - 1 :=
      List.length_take_of_le (Nat.le_of_lt (lt_of_getElem? hclose))
    rw [hscan [], leave, scanPast, Option.map_some, hlength, Nat.sub_add_cancel (by omega)]
    rfl

/-! ### Sources -/

lemma isPrefixOf?_append_cons {pattern : Text} {x : Char} (hx : x ∉ pattern) (s l : Text) :
    pattern.isPrefixOf? (s ++ x :: l) = (pattern.isPrefixOf? s).map (· ++ x :: l) := by
  induction pattern generalizing s with
  | nil => rfl
  | cons y pattern ih =>
    rw [List.mem_cons, not_or] at hx
    cases s with
    | nil =>
      have hnone : (y :: pattern).isPrefixOf? [] = none := rfl
      rw [hnone, List.nil_append, List.isPrefixOf?, beq_false_of_ne (Ne.symm hx.1)]
      rfl
    | cons c s =>
      rw [List.cons_append, List.isPrefixOf?, List.isPrefixOf?, ih hx.2]
      split <;> rfl

/-- No word reaches over the brace or the backtick in front of code. -/
lemma followsReturn_append_cons {x : Char} (hx : x = '\x7b' ∨ x = '`') (l before : Text) :
    followsReturn (before ++ x :: l) = followsReturn before := by
  have hword : x ∉ ['n', 'r', 'u', 't', 'e', 'r'] := by rcases hx with rfl | rfl <;> decide
  have hblank : isAsciiBlank x = false := by rcases hx with rfl | rfl <;> rfl
  have hdrop : (before ++ x :: l).dropWhile isAsciiBlank =
      before.dropWhile isAsciiBlank ++ x :: l := by
    rw [List.dropWhile_append]
    split
    · next hempty =>
      rw [List.isEmpty_iff.mp hempty, List.dropWhile_cons, hblank]
      rfl
    · rfl
  rw [followsReturn, hdrop, isPrefixOf?_append_cons hword, followsReturn]
  cases ['n', 'r', 'u', 't', 'e', 'r'].isPrefixOf? (before.dropWhile isAsciiBlank) with
  | none => rfl
  | some rest =>
    cases rest with
    | nil => rcases hx with rfl | rfl <;> rfl
    | cons c rest => rfl

lemma scanFrom_octets {x : Char} (hx : x = '\x7b' ∨ x = '`') (before r : Text)
    (frames : List Frame) :
    scanFrom (octets (before ++ x :: r)) frames (before.size + 1) =
      (run 0 frames [] r).map fun (inner, rest) =>
        (octets (before ++ x :: inner), octets rest) := by
  have hascii : isHigh x = false := by rcases hx with rfl | rfl <;> rfl
  have hsource : octets (before ++ x :: r) = octets (before ++ [x]) ++ octets r := by
    rw [← octets_append, List.append_assoc, List.singleton_append]
  have hlength : (octets (before ++ [x])).length = before.size + 1 := by
    rw [length_octets, Text.size_append, Text.size_cons, utf8Size_of_ascii hascii]
    rfl
  -- first from bytes to characters, then without the text in front
  have hbytes := run_octets (List.forall₂_same.mpr fun f (_ : f ∈ frames) => .refl f) 0
    (before ++ [x]).reverse r
  have hbefore := run_append_before (l := x :: before.reverse)
    (followsReturn_append_cons hx before.reverse) 0 frames [] r
  rw [List.reverse_reverse] at hbytes
  rw [scanFrom, hsource, List.take_left' hlength, List.drop_left' hlength]
  refine hbytes.trans ?_
  rw [List.reverse_append, List.reverse_singleton, List.singleton_append,
    ← List.nil_append (x :: _), hbefore, Option.map_map]
  refine congrArg (Option.map · _) (funext fun r => ?_)
  simp

/-- At this place of the source, the scanners give on its bytes the offset that the reader takes
from the one-pass scan over its text. -/
structure ScansAt (source : Text) (c : Cursor) : Prop where
  code : ∀ s, c.rest = '\x7b' :: s → codeEnd source.octets (c.pos + 1) '\x7d' =
    liftOption ((split '\x7d' s).map fun (inner, _) => c.pos + 1 + inner.size)
  template : ∀ s, c.rest = '`' :: s → templateEnd source.octets c.pos =
    liftOption ((splitTemplate s).map fun (inner, _) => c.pos + 1 + inner.size + 1)

lemma scansAt {source : Text} {c : Cursor} (hc : c.In source) : ScansAt source c := by
  obtain ⟨before, hsource, hpos⟩ := hc
  have hsize {x : Char} (hx : isHigh x = false) (inner : Text) :
      (octets (before ++ x :: inner)).length = before.size + 1 + inner.size := by
    rw [length_octets, Text.size_append, Text.size_cons, utf8Size_of_ascii hx, Nat.add_assoc]
  refine ⟨fun s hrest => ?_, fun s hrest => ?_⟩
  · rw [hsource, hrest, hpos, codeEnd_eq, scanFrom_octets (.inl rfl), Option.map_map]
    refine congrArg liftOption (congrArg (Option.map · _) (funext fun (inner, _) => ?_))
    exact hsize rfl inner
  · rw [hsource, hrest, hpos, templateEnd_eq, scanFrom_octets (.inr rfl), Option.map_map]
    refine congrArg liftOption (congrArg (Option.map · _) (funext fun (inner, _) => ?_))
    exact congrArg (· + 1) (hsize rfl inner)

/-! ### Progress -/

/-- The reader goes forward with each event, and comes to the end of the source. -/
structure Advances (source : Text) : Prop where
  read_lt : ∀ c : Cursor, c.In source → c.rest ≠ [] →
    c.pos < (Event.read c).next.pos ∧ (Event.read c).next.In source
  chain : List.IsChain (· < ·)
    ((bodyStart source).pos :: (Event.stream (bodyStart source)).map (·.next.pos))
  last : ((bodyStart source).pos :: (Event.stream (bodyStart source)).map (·.next.pos)).getLast? =
    some source.size

lemma read_lt {source : Text} {c : Cursor} (hc : c.In source) (hne : c.rest ≠ []) :
    c.pos < (Event.read c).next.pos ∧ (Event.read c).next.In source := by
  have hreaches := (Event.read_readAt hc).reaches
  exact ⟨hreaches.pos_lt (Event.read_rest_lt hne), hc.reaches hreaches⟩

lemma stream_advances {source : Text} {c : Cursor} (hc : c.In source) :
    List.IsChain (· < ·) (c.pos :: (Event.stream c).map (·.next.pos)) ∧
      (c.pos :: (Event.stream c).map (·.next.pos)).getLast? = some source.size := by
  fun_induction Event.stream c with
  | case1 c hrest =>
    have hsize := hc.pos_add_size
    rw [hrest] at hsize
    exact ⟨.singleton _, congrArg some hsize⟩
  | case2 c hrest ih =>
    obtain ⟨hlt, hnext⟩ := read_lt hc hrest
    obtain ⟨hchain, hlast⟩ := ih hnext
    exact ⟨.cons_cons hlt hchain, by rw [List.map_cons, List.getLast?_cons_cons, hlast]⟩

lemma advances (source : Text) : Advances source :=
  have hstart : (bodyStart source).In source := (Markup.Frontmatter.read_readFrom source).inside
  ⟨fun _ hc hne => read_lt hc hne, (stream_advances hstart).1, (stream_advances hstart).2⟩

/-- **The scanners end and stay in bounds** on every byte string, where code ends as the one-pass
scan says. On the bytes of a source they give what the reader of its text goes by. This reader
goes forward with each event, and comes to the end of all sources that offsets can count. -/
theorem scanners_bounded (bytes : List UInt8) (source : Text) :
    Bounded (Text.ofBytes bytes) ∧
      (∀ start close, codeEnd (Text.ofBytes bytes) start close =
        liftOption ((scanFrom (Text.ofBytes bytes) [.code close 0 '='] start).map (·.1.length))) ∧
      (∀ c : Cursor, c.In source → ScansAt source c) ∧ Advances source ∧
      (source.size ≤ Offset.limit → ∃ p, parse source = .ok p) :=
  ⟨bounded _, codeEnd_eq _, fun _ hc => scansAt hc, advances source, Markup.exists_parse_eq_ok⟩

/-- Code with a closing brace in an attribute, in a template literal and in a regular expression,
and with one that ends an element inside it. -/
def nestedCode : Text :=
  "ok && <p t='\x7d'>\x7b`\x7d$\x7bx\x7d`\x7dit's \x7b<i>\x7d</p> || /[\x7d]/".toList

theorem scanners_bounded_nested :
    Bounded (Text.ofBytes [0x60, 0xFF, 0x5C]) ∧
      codeEnd (Text.octets ('é' :: '\x7b' :: (nestedCode ++ ['\x7d', '!']))) 3 '\x7d' = pure 50 ∧
      ∃ p, parse ('é' :: '\x7b' :: (nestedCode ++ ['\x7d', '!'])) = .ok p := by
  obtain ⟨hbounded, -, hscans, -, hparse⟩ :=
    scanners_bounded [0x60, 0xFF, 0x5C] ('é' :: '\x7b' :: (nestedCode ++ ['\x7d', '!']))
  have hsplit : (split '\x7d' (nestedCode ++ ['\x7d', '!'])).map
      (fun (inner, _) => 2 + 1 + Text.size inner) = some 50 := by decide +kernel
  refine ⟨hbounded, ?_, hparse (by decide +kernel)⟩
  have hcode := (hscans ⟨2, '\x7b' :: (nestedCode ++ ['\x7d', '!'])⟩ ⟨['é'], rfl, rfl⟩).code _ rfl
  exact hcode.trans (congrArg liftOption hsplit)

end TsxLowering.Code.Descent
