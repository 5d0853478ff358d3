import TsxLowering.Proofs.Faithful.Reports
import TsxLowering.Proofs.RoundTrip.Document

/-!
The fences around a script.

A source has a script when it can be taken apart into blanks, a fence, the rest of its line, whole
lines, and a second fence. The second fence is the first one that starts a line, so there is only
one way to do this. Main statement: a script is found exactly in such a source, it is the text
between the two fences, and a first fence without a second one is reported once.
-/

namespace TsxLowering.Markup

variable {source : Text}

def fence : Text := ['-', '-', '-']

/-- No line is broken off: the text is empty, or it ends in a line break. -/
def WholeLines (s : Text) : Prop := s = [] ∨ s.getLast? = some '\n'

/-- A source with a script between two fences, taken apart. -/
structure Fences (source : Text) where
  /-- The blanks before the first fence. -/
  blanks : Text
  /-- The rest of the line of the first fence. -/
  line : Text
  /-- The lines between the fences. -/
  script : Text
  /-- All behind the second fence. -/
  rest : Text
  source_eq : source = blanks ++ fence ++ line ++ ['\n'] ++ script ++ fence ++ rest
  blanks_blank : blanks.isBlank = true
  line_blank : line.isBlank = true
  line_unbroken : '\n' ∉ line
  script_lines : WholeLines script
  script_unfenced : ∀ before after, script = before ++ after → WholeLines before →
    ¬ fence <+: after

/-- A fence at the start of a source, with nothing but blanks on its line, and no line behind that
starts with a fence. -/
def OpenFence (source : Text) : Prop :=
  ∃ blanks line rest, source = blanks ++ fence ++ line ++ rest ∧ blanks.isBlank = true ∧
    line.isBlank = true ∧ '\n' ∉ line ∧ rest.head?.all (· == '\n') = true ∧
    ∀ before after, rest = '\n' :: before ++ fence ++ after → ¬ WholeLines before

namespace Fences

/-- The offset behind the second fence. -/
def stop (x : Fences source) : Nat :=
  (x.blanks ++ fence ++ x.line ++ ['\n'] ++ x.script ++ fence).size

/-- The script is in the document as it stands in the source. The line of the second fence is
markup, from that fence on, unless the rest of it is blank. -/
structure ReadIn (x : Fences source) (d : Document) : Prop where
  found : ∃ f, d.frontmatter = some f ∧ f.span = ⟨x.blanks.size, d.bodySpan.start⟩ ∧
    f.content.text = x.line ++ '\n' :: x.script ∧ f.content.text.getLast? = some '\n'
  body : ∀ tail after, x.rest = tail ++ after → '\n' ∉ tail → after.head?.all (· == '\n') = true →
    d.bodySpan.start = if tail.isBlank then x.stop + (tail ++ after.take 1).size else x.stop

end Fences

/-! ### The first line that starts with a fence -/

/-- Whether a line starts behind the text, where `first` says whether one starts with it. -/
def endsLine (first : Bool) (s : Text) : Bool := s.getLast?.elim first (· == '\n')

lemma endsLine_cons (first : Bool) (c : Char) (s : Text) :
    endsLine first (c :: s) = endsLine (c == '\n') s := by
  rw [endsLine, List.getLast?_cons, endsLine]
  cases s.getLast? <;> rfl

lemma getLast?_of_endsLine {first : Bool} {c : Char} {s : Text}
    (h : endsLine first (c :: s) = true) : (c :: s).getLast? = some '\n' := by
  simpa [endsLine, List.getLast?_cons] using h

lemma endsLine_true_iff {s : Text} : endsLine true s = true ↔ WholeLines s := by
  cases s with
  | nil => simp [endsLine, WholeLines]
  | cons c s => simp [endsLine, WholeLines, List.getLast?_cons]

lemma fence_prefix_of_append {s t : Text} (hs : s.getLast? = some '\n') (h : fence <+: s ++ t) :
    fence <+: s := by
  match s with
  | [] => cases hs
  | [a] =>
    obtain rfl : a = '\n' := by simpa using hs
    simp [fence] at h
  | [a, b] =>
    obtain rfl : b = '\n' := by simpa using hs
    simp [fence] at h
  | a :: b :: c :: s => simpa [fence] using h

/-- No line in the text starts with a fence. -/
def Unfenced (first : Bool) (s : Text) : Prop :=
  ∀ before after, s = before ++ after → endsLine first before = true → ¬ fence <+: after

lemma unfenced_nil (first : Bool) : Unfenced first [] := by
  intro before after h _
  obtain ⟨-, rfl⟩ := List.nil_eq_append_iff.mp h
  simp [fence]

lemma unfenced_cons {first : Bool} {c : Char} {s : Text} :
    Unfenced first (c :: s) ↔ (first = true → ¬ fence <+: c :: s) ∧ Unfenced (c == '\n') s := by
  constructor
  · intro h
    refine ⟨fun hfirst => h [] (c :: s) rfl hfirst, fun before after hs hbefore => ?_⟩
    refine h (c :: before) after (by rw [hs, List.cons_append]) ?_
    rwa [endsLine_cons]
  · rintro ⟨hfirst, hrest⟩ before after hs hbefore
    cases before with
    | nil =>
      obtain rfl : c :: s = after := hs
      exact hfirst hbefore
    | cons d before =>
      obtain ⟨rfl, hs'⟩ := List.cons.inj hs
      rw [endsLine_cons] at hbefore
      exact hrest before after hs' hbefore

namespace Frontmatter

lemma splitFence_cons (first : Bool) (c : Char) (s : Text) :
    splitFence first (c :: s) =
      if first = true ∧ fence <+: c :: s then some ([], s.drop 2)
      else (splitFence (c == '\n') s).map fun (before, rest) => (c :: before, rest) := by
  by_cases hfence : first = true ∧ fence <+: c :: s
  · rw [if_pos hfence]
    obtain ⟨rfl, rest, hrest⟩ := hfence
    obtain ⟨rfl, rfl⟩ := List.cons.inj hrest
    rfl
  · rw [if_neg hfence, splitFence]
    rintro rest rfl rfl rfl
    exact hfence ⟨rfl, rest, rfl⟩

lemma splitFence_eq_some_iff {first : Bool} {s before rest : Text} :
    splitFence first s = some (before, rest) ↔
      s = before ++ fence ++ rest ∧ endsLine first before = true ∧ Unfenced first before := by
  induction s generalizing first before with
  | nil => simp [splitFence, fence]
  | cons c s ih =>
    rw [splitFence_cons]
    constructor
    · intro h
      split at h
      · next hfence =>
        obtain ⟨hfirst, t, ht⟩ := hfence
        obtain ⟨rfl, rfl⟩ := List.cons.inj ht
        cases h
        exact ⟨rfl, hfirst, unfenced_nil first⟩
      · next hfence =>
        obtain ⟨⟨u, r⟩, hsplit, hcons⟩ := Option.map_eq_some_iff.mp h
        cases hcons
        obtain ⟨rfl, hends, hunfenced⟩ := ih.mp hsplit
        refine ⟨rfl, by rwa [endsLine_cons],
          unfenced_cons.mpr ⟨fun hfirst hprefix => ?_, hunfenced⟩⟩
        refine hfence ⟨hfirst, hprefix.trans ?_⟩
        rw [List.append_assoc]
        exact List.prefix_append (c :: u) _
    · rintro ⟨hs, hends, hunfenced⟩
      cases before with
      | nil =>
        rw [if_pos ⟨hends, rest, hs.symm⟩]
        obtain ⟨-, rfl⟩ := List.cons.inj hs
        rfl
      | cons d before =>
        rw [List.cons_append, List.cons_append] at hs
        obtain ⟨rfl, rfl⟩ := List.cons.inj hs
        -- a fence right here would lie in the lines before the cut
        rw [if_neg, ih.mpr ⟨rfl, by rwa [endsLine_cons] at hends, (unfenced_cons.mp hunfenced).2⟩]
        · rfl
        · rintro ⟨hfirst, hprefix⟩
          rw [List.append_assoc, ← List.cons_append] at hprefix
          exact (unfenced_cons.mp hunfenced).1 hfirst
            (fence_prefix_of_append (getLast?_of_endsLine hends) hprefix)

lemma endsLine_of_splitFence {first : Bool} {s before rest : Text}
    (h : splitFence first s = none) (hs : s = before ++ fence ++ rest) :
    endsLine first before = false := by
  induction s generalizing first before with
  | nil => simp [fence] at hs
  | cons c s ih =>
    rw [splitFence_cons] at h
    split at h
    · cases h
    · next hfence =>
      cases before with
      | nil =>
        by_contra hfirst
        exact hfence ⟨Bool.not_eq_false _ ▸ hfirst, rest, hs.symm⟩
      | cons d before =>
        obtain ⟨rfl, hrest⟩ := List.cons.inj hs
        rw [endsLine_cons]
        exact ih (Option.map_eq_none_iff.mp h) hrest

/-! ### Lines -/

section line

variable {line rest : Text} (hline : '\n' ∉ line) (hrest : rest.head?.all (· == '\n') = true)

include hline hrest

lemma takeWhile_line : (line ++ rest).takeWhile (· != '\n') = line := by
  have hend : rest.takeWhile (· != '\n') = [] := by
    cases rest with
    | nil => rfl
    | cons c rest =>
      obtain rfl : c = '\n' := by simpa using hrest
      rfl
  rw [List.takeWhile_append_of_pos, hend, List.append_nil]
  intro c hc
  simpa using ne_of_mem_of_not_mem hc hline

lemma lineLength_line : lineLength (line ++ rest) = line.length := by
  rw [lineLength, takeWhile_line hline hrest]

lemma isBlankLine_line : isBlankLine (line ++ rest) = line.isBlank := by
  rw [isBlankLine, lineLength_line hline hrest, List.take_left]

end line

lemma exists_line (s : Text) :
    ∃ line rest, s = line ++ rest ∧ '\n' ∉ line ∧ rest.head?.all (· == '\n') = true := by
  refine ⟨s.takeWhile (· != '\n'), s.dropWhile (· != '\n'),
    List.takeWhile_append_dropWhile.symm, fun hmem => ?_, ?_⟩
  · exact absurd (List.all_eq_true.mp List.all_takeWhile _ hmem) (by decide)
  · have := List.head?_dropWhile_not (p := (· != '\n')) s
    cases hhead : (s.dropWhile (· != '\n')).head? with
    | none => rfl
    | some c => simpa [hhead] using this

lemma skipWhile_blanks {blanks s : Text} (hsource : source = blanks ++ fence ++ s)
    (hblanks : blanks.isBlank = true) :
    (Cursor.ofText source).skipWhile isBlank = ⟨blanks.size, '-' :: '-' :: '-' :: s⟩ := by
  subst hsource
  have hrest : (Cursor.ofText (blanks ++ fence ++ s)).rest = blanks ++ '-' :: '-' :: '-' :: s :=
    List.append_assoc ..
  have htake : (blanks ++ '-' :: '-' :: '-' :: s).takeWhile isBlank = blanks := by
    rw [List.takeWhile_append_of_pos (List.all_eq_true.mp hblanks),
      List.takeWhile_cons_of_neg (by decide), List.append_nil]
  rw [Cursor.skipWhile, hrest, htake, Cursor.advance_eq_of_rest hrest]
  simp [Cursor.ofText]

end Frontmatter

/-! ### Reading -/

open Frontmatter

namespace Fences

variable (x : Fences source)

/-- All behind the first fence. -/
def opening : Text := x.line ++ '\n' :: (x.script ++ fence ++ x.rest)

/-- Where the markup starts. -/
def next : Cursor :=
  let close : Cursor := ⟨x.stop, x.rest⟩
  if isBlankLine x.rest then close.advance (lineLength x.rest + 1) else close

lemma source_eq_opening : source = x.blanks ++ fence ++ x.opening :=
  x.source_eq.trans (by simp [opening])

lemma lineLength_opening : lineLength x.opening = x.line.length :=
  lineLength_line x.line_unbroken rfl

lemma isBlankLine_opening : isBlankLine x.opening = true :=
  (isBlankLine_line x.line_unbroken rfl).trans x.line_blank

lemma splitFence_opening :
    splitFence true (x.opening.drop (x.line.length + 1)) = some (x.script, x.rest) := by
  have hdrop : x.opening.drop (x.line.length + 1) = x.script ++ fence ++ x.rest := by
    simp [opening, List.drop_append]
  rw [hdrop, splitFence_eq_some_iff]
  exact ⟨rfl, endsLine_true_iff.mpr x.script_lines, fun before after h hbefore =>
    x.script_unfenced before after h (endsLine_true_iff.mp hbefore)⟩

lemma advance_opening :
    (⟨x.blanks.size + 3, x.opening⟩ : Cursor).advance (x.line.length + 1 + x.script.length + 3) =
      ⟨x.stop, x.rest⟩ := by
  have hlength : x.line.length + 1 + x.script.length + 3 =
      (x.line ++ '\n' :: (x.script ++ fence)).length := by
    simp only [List.length_append, List.length_cons, fence, List.length_nil]
    omega
  have hsize : x.blanks.size + 3 + Text.size (x.line ++ '\n' :: (x.script ++ fence)) = x.stop := by
    have hnewline : '\n'.utf8Size = 1 := rfl
    have hfence : fence.size = 3 := rfl
    simp only [stop, Text.size_append, Text.size_cons, Text.size_nil, hnewline, hfence]
    omega
  rw [hlength, Cursor.advance_eq_of_rest (s := x.rest) (by simp [opening]), hsize]

/-- **A script between fences** is read. -/
theorem read_eq :
    ∃ content : Excerpt, content.text = x.line ++ '\n' :: x.script ∧
      Frontmatter.read source = ⟨some ⟨⟨x.blanks.size, x.next.pos⟩, content⟩, [], x.next⟩ := by
  have hcontent : (⟨x.blanks.size, '-' :: '-' :: '-' :: x.opening⟩ : Cursor).advance 3 =
      ⟨x.blanks.size + 3, x.opening⟩ := Cursor.advance_eq_of_rest (t := fence) rfl
  refine ⟨(⟨x.blanks.size + 3, x.opening⟩ : Cursor).excerpt (x.line.length + 1 + x.script.length),
    ?_, ?_⟩
  · refine Cursor.text_excerpt_of_rest (t := fence ++ x.rest) (by simp [opening]) ?_
    simp only [List.length_append, List.length_cons]
    omega
  · have hskip := skipWhile_blanks x.source_eq_opening x.blanks_blank
    simp only [Frontmatter.read, hskip, x.isBlankLine_opening, if_true, x.lineLength_opening,
      x.splitFence_opening, hcontent, x.advance_opening]
    rfl

lemma pos_next {tail after : Text} (hrest : x.rest = tail ++ after) (htail : '\n' ∉ tail)
    (hafter : after.head?.all (· == '\n') = true) :
    x.next.pos = if tail.isBlank then x.stop + (tail ++ after.take 1).size else x.stop := by
  have htake : (tail ++ after).take (tail.length + 1) = tail ++ after.take 1 := by
    simp [List.take_append, List.take_of_length_le]
  rw [next, hrest, isBlankLine_line htail hafter, lineLength_line htail hafter]
  split
  · simp only [Cursor.advance, htake]
  · rfl

end Fences

/-- **A fence without a second one** is reported. -/
theorem OpenFence.read_eq (h : OpenFence source) :
    ∃ span, Frontmatter.read source = ⟨none, [⟨.unclosedFrontmatter, span⟩], .ofText source⟩ := by
  obtain ⟨blanks, line, rest, hsource, hblanks, hblank, hline, hrest, hopen⟩ := h
  rw [List.append_assoc] at hsource
  have hdrop : (line ++ rest).drop (line.length + 1) = rest.drop 1 := by
    simp [List.drop_append]
  have hsplit : splitFence true (rest.drop 1) = none := by
    refine Option.eq_none_iff_forall_ne_some.mpr fun ⟨before, after⟩ hsome => ?_
    obtain ⟨hcut, hends, -⟩ := splitFence_eq_some_iff.mp hsome
    cases rest with
    | nil => simp [fence] at hcut
    | cons c rest =>
      obtain rfl : c = '\n' := by simpa using hrest
      exact hopen before after (congrArg ('\n' :: ·) hcut) (endsLine_true_iff.mp hends)
  refine ⟨⟨blanks.size, blanks.size + 3⟩, ?_⟩
  simp only [Frontmatter.read, skipWhile_blanks hsource hblanks, isBlankLine_line hline hrest,
    hblank, if_true, lineLength_line hline hrest, hdrop, hsplit]
  rfl

/-- **All other sources** are markup from the start. -/
theorem read_cases (source : Text) :
    Nonempty (Fences source) ∨ OpenFence source ∨
      Frontmatter.read source = ⟨none, [], .ofText source⟩ := by
  by_cases hfence : fence <+: source.trimStart
  · obtain ⟨opening, hopening⟩ := hfence
    have hblanks : Text.isBlank (source.takeWhile isBlank) = true := List.all_takeWhile
    obtain ⟨line, rest, rfl, hline, hrest⟩ := exists_line opening
    have hsource : source = source.takeWhile isBlank ++ fence ++ (line ++ rest) := by
      rw [List.append_assoc, hopening]
      exact List.takeWhile_append_dropWhile.symm
    -- the rest of the first line decides, and then whether there is a second fence
    generalize source.takeWhile isBlank = blanks at hblanks hsource
    by_cases hblank : line.isBlank = true
    · cases rest with
      | nil =>
        refine .inr (.inl ⟨blanks, line, [], by simp [hsource], hblanks, hblank, hline, rfl, ?_⟩)
        simp
      | cons c rest =>
        obtain rfl : c = '\n' := by simpa using hrest
        cases hsplit : splitFence true rest with
        | none =>
          refine .inr (.inl ⟨blanks, line, '\n' :: rest, by simp [hsource], hblanks, hblank, hline,
            rfl, fun before after hcut hbefore => ?_⟩)
          have hends := endsLine_of_splitFence hsplit (List.cons.inj hcut).2
          simp [endsLine_true_iff.mpr hbefore] at hends
        | some cut =>
          obtain ⟨script, after⟩ := cut
          obtain ⟨rfl, hends, hunfenced⟩ := splitFence_eq_some_iff.mp hsplit
          refine .inl ⟨⟨blanks, line, script, after, by simp [hsource], hblanks, hblank, hline,
            endsLine_true_iff.mp hends, fun u v huv hu => ?_⟩⟩
          exact hunfenced u v huv (endsLine_true_iff.mpr hu)
    · refine .inr (.inr ?_)
      simp only [Frontmatter.read, skipWhile_blanks hsource hblanks, isBlankLine_line hline hrest,
        hblank]
      rfl
  · exact .inr (.inr (Frontmatter.read_of_not_fence hfence))

/-- **There is one way** to take a source apart. -/
theorem subsingleton_fences (source : Text) : Subsingleton (Fences source) := by
  refine ⟨fun x y => ?_⟩
  have hcursor := (skipWhile_blanks x.source_eq_opening x.blanks_blank).symm.trans
    (skipWhile_blanks y.source_eq_opening y.blanks_blank)
  have hopening : x.opening = y.opening := by
    simpa using congrArg Cursor.rest hcursor
  have hblanks : x.blanks = y.blanks := by
    have h := x.source_eq_opening.symm.trans y.source_eq_opening
    rw [hopening] at h
    exact List.append_cancel_right (List.append_cancel_right h)
  have hline : x.line = y.line :=
    calc x.line = x.opening.takeWhile (· != '\n') := (takeWhile_line x.line_unbroken rfl).symm
      _ = y.opening.takeWhile (· != '\n') := by rw [hopening]
      _ = y.line := takeWhile_line y.line_unbroken rfl
  -- both scripts end at the first fence that starts a line
  have hsplit := x.splitFence_opening
  rw [hopening, hline, y.splitFence_opening] at hsplit
  obtain ⟨hscript, hrest⟩ := Prod.mk.inj (Option.some.inj hsplit)
  cases x
  cases y
  congr
  · exact hscript.symm
  · exact hrest.symm

/-! ### Reports -/

/-- The number of reports of a fence without a second one. -/
def Parsed.openFences (p : Parsed) : Nat :=
  p.diagnostics.countP (·.problem == .unclosedFrontmatter)

lemma warns_not_fence :
    Nesting.Warns (Event.Sound source) (·.problem ≠ .unclosedFrontmatter) where
  event event d hd := by
    rcases event.comes.problem_cases d hd with h | h | ⟨name, h⟩ | ⟨name, h⟩ <;> simp [h]
  stray _ := Problem.noConfusion
  mismatched _ := Problem.noConfusion
  unclosed _ := Problem.noConfusion

lemma openFences_eq {p : Parsed} (h : parse source = .ok p) :
    p.openFences =
      (Frontmatter.read source).diagnostics.countP (·.problem == .unclosedFrontmatter) := by
  obtain ⟨n, -, hbuilt, -, hdiagnostics⟩ := parse_built_sound h
  have hmarkup : n.diagnostics.reverse.countP (·.problem == .unclosedFrontmatter) = 0 := by
    refine List.countP_eq_zero.mpr fun d hd => ?_
    simpa using hbuilt.forall_diagnostics warns_not_fence d (List.mem_reverse.mp hd)
  rw [Parsed.openFences, hdiagnostics, List.countP_append, hmarkup, Nat.add_zero]

/-! ### The document -/

/-- What there is to know about the script of a source. -/
structure Parsed.FindsScript (source : Text) (p : Parsed) : Prop where
  unique : Subsingleton (Fences source)
  found_iff : p.document.frontmatter.isSome = true ↔ Nonempty (Fences source)
  readIn : ∀ x : Fences source, x.ReadIn p.document
  otherwise : p.document.frontmatter = none → p.document.bodySpan.start = 0
  reported_iff : p.openFences = 1 ↔ OpenFence source
  unreported : ¬ OpenFence source → p.openFences = 0

lemma parse_script {p : Parsed} (h : parse source = .ok p) :
    p.document.frontmatter = (Frontmatter.read source).value ∧
      p.document.bodySpan.start = (Frontmatter.read source).next.pos := by
  simp only [parse, parse_eq_ok h, if_true] at h
  cases h
  exact ⟨rfl, rfl⟩

lemma Fences.readIn {p : Parsed} (x : Fences source) (h : parse source = .ok p) :
    x.ReadIn p.document := by
  obtain ⟨content, hcontent, hread⟩ := x.read_eq
  obtain ⟨hscript, hstart⟩ := parse_script h
  rw [hread] at hscript hstart
  refine ⟨⟨_, hscript, by rw [hstart], hcontent, ?_⟩, fun tail after hrest htail hafter => ?_⟩
  · rcases x.script_lines with hnil | hlast
    · simp [hcontent, hnil]
    · simp [hcontent, List.getLast?_cons, hlast]
  · exact hstart.trans (x.pos_next hrest htail hafter)

lemma parse_cases {p : Parsed} (h : parse source = .ok p) :
    Nonempty (Fences source) ∧ p.document.frontmatter.isSome = true ∧ p.openFences = 0 ∨
      p.document.frontmatter = none ∧ p.document.bodySpan.start = 0 ∧
        (p.openFences = 0 ∨ OpenFence source ∧ p.openFences = 1) := by
  obtain ⟨hscript, hstart⟩ := parse_script h
  have hreports := openFences_eq h
  rcases read_cases source with ⟨⟨x⟩⟩ | hopen | hread
  · obtain ⟨content, -, hread⟩ := x.read_eq
    rw [hread] at hscript hreports
    exact .inl ⟨⟨x⟩, by rw [hscript]; rfl, hreports⟩
  · obtain ⟨span, hread⟩ := hopen.read_eq
    rw [hread] at hscript hstart hreports
    exact .inr ⟨hscript, hstart, .inr ⟨hopen, hreports⟩⟩
  · rw [hread] at hscript hstart hreports
    exact .inr ⟨hscript, hstart, .inl hreports⟩

lemma nonempty_fences {p : Parsed} (h : parse source = .ok p)
    (hfound : p.document.frontmatter.isSome = true) : Nonempty (Fences source) := by
  rcases parse_cases h with ⟨hx, -⟩ | ⟨hnone, -⟩
  · exact hx
  · simp [hnone] at hfound

lemma getLast?_script {p : Parsed} {f : Frontmatter} (h : parse source = .ok p)
    (hf : p.document.frontmatter = some f) : f.content.text.getLast? = some '\n' := by
  obtain ⟨x⟩ := nonempty_fences h (by rw [hf]; rfl)
  obtain ⟨g, hg, -, -, hlast⟩ := (x.readIn h).found
  cases hf.symm.trans hg
  exact hlast

/-- **Fences are found** where they are, and only there: a script is read exactly if there are two
of them, and one without the other is reported once. -/
theorem parse_finds_script (source : Text) :
    (source.size ≤ Offset.limit → ∃ p, parse source = .ok p) ∧
      ∀ p, parse source = .ok p → p.FindsScript source := by
  refine ⟨exists_parse_eq_ok, fun p h => ⟨subsingleton_fences source, ⟨nonempty_fences h, ?_⟩,
    fun x => x.readIn h, fun hnone => ?_, ⟨fun hone => ?_, fun hopen => ?_⟩, fun hopen => ?_⟩⟩
  · rintro ⟨x⟩
    obtain ⟨f, hf, -⟩ := (x.readIn h).found
    rw [hf]
    rfl
  · rcases parse_cases h with ⟨-, hsome, -⟩ | ⟨-, hstart, -⟩
    · simp [hnone] at hsome
    · exact hstart
  · rcases parse_cases h with ⟨-, -, hzero⟩ | ⟨-, -, hzero | ⟨hopen, -⟩⟩
    · omega
    · omega
    · exact hopen
  · obtain ⟨span, hread⟩ := hopen.read_eq
    rw [openFences_eq h, hread]
    rfl
  · rcases parse_cases h with ⟨-, -, hzero⟩ | ⟨-, -, hzero | ⟨hopen', -⟩⟩
    · exact hzero
    · exact hzero
    · exact absurd hopen' hopen

/-- A fence behind blanks, a line that is too short for a fence, one that does not start with it,
and blanks behind the second fence. -/
def indented : Text := " ---\t\n--\n ---\n---\u00a0\n<p/>".toList

theorem parse_finds_indented :
    indented.size ≤ Offset.limit ∧ ∃ p, parse indented = .ok p ∧ p.FindsScript indented ∧
      Nonempty (Fences indented) ∧ ¬ OpenFence indented ∧
      p.document.frontmatter.map (·.content.text) = some "\t\n--\n ---\n".toList ∧
      p.document.bodySpan.start = 20 := by
  have hsize : indented.size ≤ Offset.limit := by decide
  obtain ⟨p, hp⟩ := (parse_finds_script indented).1 hsize
  have hfinds := (parse_finds_script indented).2 p hp
  have hread : (parse indented).toOption.map (fun p => (p.document.frontmatter.map (·.content.text),
      p.document.bodySpan.start, p.openFences)) =
        some (some "\t\n--\n ---\n".toList, 20, 0) := by decide +kernel
  rw [hp] at hread
  simp only [Except.toOption, Option.map_some, Option.some.injEq, Prod.mk.injEq] at hread
  obtain ⟨hcontent, hstart, hsilent⟩ := hread
  refine ⟨hsize, p, hp, hfinds, hfinds.found_iff.mp ?_, fun hopen => ?_, hcontent, hstart⟩
  · cases hscript : p.document.frontmatter with
    | none => simp [hscript] at hcontent
    | some f => rfl
  · rw [hfinds.reported_iff.mpr hopen] at hsilent
    cases hsilent

end TsxLowering.Markup
