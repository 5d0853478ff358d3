import TsxLowering.Component
import TsxLowering.Proofs.CodePoints
import TsxLowering.Proofs.RoundTrip.Outline

/-!
Names of components as identifiers.

A component's name is made of letters and numbers, which Unicode takes in a wider sense than it
does for identifiers: `²` is a number and `ⓐ` a letter, and neither may stand in an identifier.
Upper case does not change that, but for one letter. Main statement:
`isIdentifier_functionName_iff`, which function names are identifiers.
-/

namespace TsxLowering.Unicode

open NameClass Markup

/-! ### Upper case -/

variable {c : Char} {n : Nat}

namespace CaseRun

def upper (run : CaseRun) (n : Nat) : Nat := (n + run.shift).toNat

def members (run : CaseRun) : List Nat :=
  (List.range ((run.last - run.first) / run.stride + 1)).map (run.first + run.stride * ·)

/-- All code points of the run may start an identifier, and so may all their upper cases. -/
def startsIdentifiers (run : CaseRun) : Bool :=
  -- no one range need hold the upper cases: where the run has gaps, they may have too
  identifierStartRanges.covers run.first run.last &&
    (identifierStartRanges.covers (run.upper run.first) (run.upper run.last) ||
      run.members.all fun n => identifierStartRanges.covers (run.upper n) (run.upper n))

variable {run : CaseRun}

lemma contains_iff : run.contains n = true ↔
    run.first ≤ n ∧ n ≤ run.last ∧ (n - run.first) % run.stride = 0 := by
  simp only [contains, Bool.and_eq_true, decide_eq_true_eq, beq_iff_eq, and_assoc]

lemma mem_members (h : run.contains n = true) : n ∈ run.members := by
  obtain ⟨hfirst, hlast, hstride⟩ := contains_iff.mp h
  refine List.mem_map.mpr ⟨(n - run.first) / run.stride, List.mem_range.mpr ?_, ?_⟩
  · exact Nat.lt_succ_of_le (Nat.div_le_div_right (Nat.sub_le_sub_right hlast _))
  · rw [Nat.mul_div_cancel' (Nat.dvd_of_mod_eq_zero hstride), Nat.add_sub_cancel' hfirst]

/-- In all runs but two, only what may start an identifier has an upper case, and that may start
one too. The circled letters may not stand in one at all, and the iota that is written below
another letter may not start one, while its upper case, the capital iota, may. -/
lemma kinds (h : run ∈ caseRuns) : run.startsIdentifiers = true ∨
    (run.first = 0x24D0 ∧ run.last = 0x24E9 ∧ run.shift = -26) ∨
    run.first = 0x345 ∧ run.last = 0x345 := by
  have hkinds : (caseRuns.all fun run => run.startsIdentifiers ||
      (run.first == 0x24D0 && run.last == 0x24E9 && run.shift == -26) ||
      (run.first == 0x345 && run.last == 0x345)) = true := by decide +kernel
  simpa only [Bool.or_eq_true, Bool.and_eq_true, beq_iff_eq, and_assoc, or_assoc] using
    List.all_eq_true.mp hkinds run h

lemma isIdentifierStart_of_startsIdentifiers (h : run.startsIdentifiers = true)
    (hc : run.contains c.toNat = true) : NameClass.isIdentifierStart c = true ∧
      NameClass.isIdentifierStart (Char.ofNat (run.upper c.toNat)) = true := by
  obtain ⟨hfirst, hlast, _⟩ := contains_iff.mp hc
  rw [startsIdentifiers, Bool.and_eq_true, Bool.or_eq_true, List.all_eq_true] at h
  have hstart : Unicode.isIdentifierStart c = true :=
    Ranges.contains_of_covers h.1 hfirst hlast
  have hupper : Unicode.isIdentifierStart (Char.ofNat (run.upper c.toNat)) = true := by
    rcases h.2 with hrun | hmembers
    · exact Ranges.contains_ofNat identifierStartRanges_isOfChars hrun
        (by simp only [upper]; omega) (by simp only [upper]; omega)
    · exact Ranges.contains_ofNat identifierStartRanges_isOfChars
        (hmembers _ (mem_members hc)) (Nat.le_refl _) (Nat.le_refl _)
  simp [NameClass.isIdentifierStart, hstart, hupper]

end CaseRun

lemma isIdentifierPart_circled (hfirst : 0x24B6 ≤ c.toNat) (hlast : c.toNat ≤ 0x24E9) :
    isIdentifierPart c = false ∧ NameClass.isIdentifierStart c = false := by
  have hapart : identifierContinueRanges.isApart 0x24B6 0x24E9 = true := by decide +kernel
  have hcontinue : isIdentifierContinue c = false :=
    Bool.eq_false_iff.mpr (Ranges.not_contains_of_isApart hapart hfirst hlast)
  have hother : ∀ d : Char, d.toNat < 0x24B6 → (c == d) = false := by
    rintro d hd
    rw [beq_eq_false_iff_ne]
    rintro rfl
    omega
  have hpart : isIdentifierPart c = false := by
    simp [isIdentifierPart, hcontinue, hother '$' (by decide), hother '\u200c' (by decide),
      hother '\u200d' (by decide)]
  refine ⟨hpart, Bool.eq_false_iff.mpr fun hstart => ?_⟩
  rw [isIdentifierPart_of_isIdentifierStart hstart] at hpart
  cases hpart

lemma isIdentifier_longUppercase {codes : List Nat} (h : (n, codes) ∈ longUppercase) :
    identifierStartRanges.covers n n = true ∧ isIdentifier (codes.map Char.ofNat) = true := by
  have hsweep : identifierStartRanges.sweep (longUppercase.map fun entry => (entry.1, entry.1)) =
      [] := by decide +kernel
  have hcodes : (longUppercase.all fun entry =>
      entry.2.head?.any (fun n => identifierStartRanges.covers n n) &&
        entry.2.tail.all fun n => identifierContinueRanges.covers n n) = true := by decide +kernel
  refine ⟨Ranges.covers_of_sweep hsweep (n, n) (List.mem_map.mpr ⟨_, h, rfl⟩), ?_⟩
  have hentry := List.all_eq_true.mp hcodes _ h
  cases codes with
  | nil => cases hentry
  | cons n codes =>
    simp only [List.head?_cons, Option.any_some, List.tail_cons, Bool.and_eq_true,
      List.all_eq_true] at hentry
    simp only [List.map_cons, isIdentifier, Bool.and_eq_true, List.all_map, List.all_eq_true]
    constructor
    · have hstart := Ranges.contains_ofNat identifierStartRanges_isOfChars hentry.1
        (Nat.le_refl n) (Nat.le_refl n)
      simp [NameClass.isIdentifierStart, Unicode.isIdentifierStart, hstart]
    · intro m hm
      have hpart := Ranges.contains_ofNat identifierContinueRanges_isOfChars (hentry.2 m hm)
        (Nat.le_refl m) (Nat.le_refl m)
      simp [isIdentifierPart, isIdentifierContinue, hpart]

/-- The text may stand in an identifier exactly if `c` may, and may start one exactly if `c` may
or is the iota that is written below another letter. -/
structure StandsFor (s : Text) (c : Char) : Prop where
  ne_nil : s ≠ []
  parts : s.all isIdentifierPart = isIdentifierPart c
  start : isIdentifier s = (NameClass.isIdentifierStart c || c == '\u0345')

lemma StandsFor.of_isIdentifier {s : Text} (hc : NameClass.isIdentifierStart c = true)
    (hs : isIdentifier s = true) : StandsFor s c := by
  cases s with
  | nil => cases hs
  | cons d s =>
    refine ⟨List.cons_ne_nil _ _, ?_, by rw [hs, hc, Bool.true_or]⟩
    rw [isIdentifier, Bool.and_eq_true] at hs
    rw [List.all_cons, isIdentifierPart_of_isIdentifierStart hs.1, hs.2,
      isIdentifierPart_of_isIdentifierStart hc, Bool.true_and]

lemma StandsFor.singleton {d : Char} (hc : c ≠ '\u0345')
    (hpart : isIdentifierPart d = isIdentifierPart c)
    (hstart : NameClass.isIdentifierStart d = NameClass.isIdentifierStart c) :
    StandsFor [d] c :=
  ⟨List.cons_ne_nil _ _, by simp [hpart], by simp [isIdentifier, hstart, hc]⟩

lemma standsFor_circled (hfirst : 0x24D0 ≤ c.toNat) (hlast : c.toNat ≤ 0x24E9) :
    StandsFor [Char.ofNat (c.toNat + (-26) : Int).toNat] c := by
  have hcode : (Char.ofNat (c.toNat + (-26) : Int).toNat).toNat = c.toNat - 26 := by
    rw [toNat_ofNat_of_isValidChar (.inl (by omega))]
    omega
  obtain ⟨hpart, hstart⟩ := isIdentifierPart_circled (c := c) (by omega) (by omega)
  obtain ⟨hpart', hstart'⟩ := isIdentifierPart_circled
    (c := Char.ofNat (c.toNat + (-26) : Int).toNat) (by omega) (by omega)
  refine .singleton ?_ (hpart'.trans hpart.symm) (hstart'.trans hstart.symm)
  rintro rfl
  exact absurd hfirst (by decide)

lemma standsFor_uppercase (c : Char) : StandsFor (uppercase c) c := by
  -- the one character whose upper case differs from it, so set apart from the run it is in
  by_cases hiota : c = '\u0345'
  · subst hiota
    exact ⟨by decide +kernel, by decide +kernel, by decide +kernel⟩
  rw [uppercase]
  split
  next codes hlong =>
    obtain ⟨before, behind, htable, _⟩ := List.lookup_eq_some_iff.mp hlong
    have hentry : (c.toNat, codes) ∈ longUppercase := by simp [htable]
    obtain ⟨hcovers, hcodes⟩ := isIdentifier_longUppercase hentry
    have hstart : Unicode.isIdentifierStart c = true :=
      Ranges.contains_of_covers hcovers (Nat.le_refl _) (Nat.le_refl _)
    exact .of_isIdentifier (by simp [NameClass.isIdentifierStart, hstart]) hcodes
  next =>
    split
    next run hrun =>
      have hc := List.find?_some hrun
      obtain ⟨hfirst, hlast, _⟩ := CaseRun.contains_iff.mp hc
      rcases CaseRun.kinds (List.mem_of_find?_eq_some hrun) with
        hstarts | ⟨hf, hl, hshift⟩ | ⟨hf, hl⟩
      · obtain ⟨hstart, hupper⟩ := CaseRun.isIdentifierStart_of_startsIdentifiers hstarts hc
        exact .of_isIdentifier hstart (by simpa [isIdentifier, CaseRun.upper] using hupper)
      · rw [hshift]
        exact standsFor_circled (hf ▸ hfirst) (hl ▸ hlast)
      · have hcode : c.toNat = 0x345 := by omega
        exact absurd (Char.toNat_inj.mp hcode) hiota
    next => exact .singleton hiota rfl rfl

end TsxLowering.Unicode

namespace TsxLowering.Component

open NameClass Markup

/-- The characters of a file's name that its component's name is made of: those of its words,
from the first letter on. -/
def wordChars (path : Text) : Text :=
  match fileName? path with
  | some file => ((stem file).dropWhile (!Unicode.isAlphabetic ·)).filter isWordChar
  | none => []

lemma isIdentifier_append {s t : Text} (h : s ≠ []) :
    isIdentifier (s ++ t) = (isIdentifier s && t.all isIdentifierPart) := by
  cases s with
  | nil => exact absurd rfl h
  | cons c s => simp [isIdentifier, Bool.and_assoc]

lemma all_joinWords (atWordStart : Bool) (s : Text) :
    (joinWords atWordStart s).all isIdentifierPart =
      (s.filter isWordChar).all isIdentifierPart := by
  fun_induction joinWords atWordStart s with
  | case1 => rfl
  | case2 atWordStart c s hword ih =>
    rw [List.filter_cons_of_pos hword, List.all_append, List.all_cons, ih]
    congr 1
    split
    · exact (Unicode.standsFor_uppercase c).parts
    · simp
  | case3 atWordStart c s hword ih => rw [List.filter_cons_of_neg hword, ih]

lemma isIdentifier_joinWords {c : Char} {s : Text} (hc : isWordChar c = true) :
    isIdentifier (joinWords true (c :: s) ++ functionSuffix) =
      ((isIdentifierStart c || c == '\u0345') &&
        (s.filter isWordChar).all isIdentifierPart) := by
  have hsuffix : functionSuffix.all isIdentifierPart = true := by decide +kernel
  have hupper := Unicode.standsFor_uppercase c
  rw [joinWords, if_pos hc, if_pos rfl, List.append_assoc, isIdentifier_append hupper.ne_nil,
    hupper.start, List.all_append, all_joinWords, hsuffix, Bool.and_true]

/-- **Function names.** The function of a component has an identifier for a name exactly if all
characters of the name's words may stand in an identifier and the first may start one, or is the
iota that upper case makes able to. -/
theorem isIdentifier_functionName_iff (path : Text) :
    isIdentifier (functionName path) = true ↔
      (∀ c ∈ wordChars path, isIdentifierPart c = true) ∧
        ∀ c, (wordChars path).head? = some c → isIdentifierStart c = true ∨ c = '\u0345' := by
  have hsuffix : isIdentifier functionSuffix = true := by decide +kernel
  rw [functionName, name, wordChars]
  cases fileName? path with
  | none => simp [hsuffix]
  | some file =>
    have hletter := List.head?_dropWhile_not (!Unicode.isAlphabetic ·) (stem file)
    dsimp only
    cases hletters : (stem file).dropWhile (!Unicode.isAlphabetic ·) with
    | nil => simp [joinWords, hsuffix]
    | cons c s =>
      rw [hletters] at hletter
      have halphabetic : Unicode.isAlphabetic c = true := by simpa using hletter
      have hc : isWordChar c = true := by simp [isWordChar, halphabetic]
      rw [isIdentifier_joinWords hc, List.filter_cons_of_pos hc, Bool.and_eq_true, Bool.or_eq_true,
        beq_iff_eq, List.all_eq_true, List.forall_mem_cons, List.head?_cons]
      constructor
      · rintro ⟨hstart, hparts⟩
        refine ⟨⟨?_, hparts⟩, fun d hd => Option.some.inj hd ▸ hstart⟩
        rcases hstart with hstart | rfl
        · exact Unicode.isIdentifierPart_of_isIdentifierStart hstart
        · -- the combining iota may not start an identifier, but stand in one
          decide +kernel
      · rintro ⟨⟨_, hparts⟩, hstart⟩
        exact ⟨hstart c rfl, hparts⟩

/-- A number above the line is kept, though no identifier may hold it. -/
theorem functionName_superscript :
    functionName "a².astro".toList = "A²__AstroComponent_".toList ∧
      isIdentifier (functionName "a².astro".toList) = false := by
  decide +kernel

end TsxLowering.Component
