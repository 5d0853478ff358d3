import TsxLowering.Proofs.Emission.Lead
import TsxLowering.Proofs.Fences
import TsxLowering.Proofs.NestedCode

/-!
The statement between a script and the wrapper.

A script is a sequence of lexemes: blanks, comments, strings, templates, and single characters. The
last of them that is neither blank nor a comment says whether the script ends in a semicolon. A
semicolon in a string, a quote in a comment or a comment in a template does not count. Main
statement: the separator is written exactly if there is such a lexeme and it is no semicolon, and
right before the wrapper.
-/

namespace TsxLowering

open Markup (Frontmatter Parsed WholeLines)

lemma Markup.WholeLines.of_append {s t : Text} (h : WholeLines (s ++ t)) : WholeLines t := by
  cases t with
  | nil => exact .inl rfl
  | cons c t => simpa [WholeLines, List.getLast?_append] using h

/-! ### Lexemes -/

namespace Code

/-- The text between the backticks of a template, where code in it is not looked into. -/
inductive TemplateBody : Text → Prop
  | nil : TemplateBody []
  | escape {c : Char} {s : Text} (rest : TemplateBody s) : TemplateBody ('\\' :: c :: s)
  | char {c : Char} {s : Text} (backtick_ne : c ≠ '`') (backslash_ne : c ≠ '\\')
      (rest : TemplateBody s) : TemplateBody (c :: s)

/-- A part of a script that is skipped or counts as a whole. -/
inductive Lexeme where
  | blank (c : Char)
  | lineComment (body : Text)
  | blockComment (body : Text)
  | string (quote : Char) (body : Text)
  | template (body : Text)
  | other (c : Char)
  deriving DecidableEq

namespace Lexeme

def text : Lexeme → Text
  | .blank c | .other c => [c]
  | .lineComment body => '/' :: '/' :: body
  | .blockComment body => '/' :: '*' :: (body ++ ['*', '/'])
  | .string quote body => quote :: (body ++ [quote])
  | .template body => '`' :: (body ++ ['`'])

/-- The lexeme may stand before `rest`. -/
def Stands : Lexeme → Text → Prop
  | .blank c, _ => isBlank c = true
  | .lineComment body, rest => '\n' ∉ body ∧ rest.head?.all (· == '\n') = true
  | .blockComment body, _ => ¬ ['*', '/'] <:+: body
  | .string quote body, _ => (quote = '"' ∨ quote = '\'') ∧ StringBody quote body
  | .template body, _ => TemplateBody body
  | .other c, rest => isBlank c = false ∧ c ∉ ['"', '\'', '`'] ∧
    (c = '/' → rest.head? ≠ some '/' ∧ rest.head? ≠ some '*')

/-- The lexeme is neither blank nor a comment. -/
def isSignificant : Lexeme → Bool
  | .blank _ | .lineComment _ | .blockComment _ => false
  | .string .. | .template _ | .other _ => true

/-- The last character of the lexeme. -/
def mark : Lexeme → Char
  | .blank c | .other c => c
  | .lineComment _ | .blockComment _ => '/'
  | .string quote _ => quote
  | .template _ => '`'

end Lexeme

/-- The script is the sequence of lexemes. -/
inductive Lexes : List Lexeme → Text → Prop
  | nil : Lexes [] []
  | cons {l : Lexeme} {lexemes : List Lexeme} {rest : Text} (stands : l.Stands rest)
      (lexes : Lexes lexemes rest) : Lexes (l :: lexemes) (l.text ++ rest)

/-- The last lexeme that is neither blank nor a comment is no semicolon. -/
def isUnterminated (lexemes : List Lexeme) : Bool :=
  (lexemes.filter Lexeme.isSignificant).getLast?.any (· != .other ';')

/-! ### Their order -/

lemma quotedLength_template {s : Text} (h : TemplateBody s) (t : Text) :
    quotedLength '`' (s ++ '`' :: t) = some (s.length + 1) := by
  induction h with
  | nil => cases t <;> simp [quotedLength]
  | escape _ ih => simp [quotedLength, ih]
  | char backtick_ne backslash_ne _ ih => simp [quotedLength, backtick_ne, backslash_ne, ih]

/-- What stands at the end of a text may be followed by a line break, and so may whole lines by
anything. -/
lemma Lexeme.Stands.append {l : Lexeme} {rest t : Text} (h : l.Stands rest)
    (hseam : WholeLines (l.text ++ rest) ∨ t.head? = some '\n') : l.Stands (rest ++ t) := by
  cases rest with
  | cons c rest => cases l <;> exact h
  | nil =>
    cases l with
    | lineComment body =>
      refine ⟨h.1, ?_⟩
      rcases hseam with hlines | hhead
      · -- the comment would hold the line break that ends it
        have hlast : ('/' :: '/' :: body).getLast? = some '\n' := by
          simpa [WholeLines, text] using hlines
        have hmem := List.mem_of_getLast? hlast
        simp [h.1] at hmem
      · simp [hhead]
    | other c =>
      refine ⟨h.1, h.2.1, ?_⟩
      rintro rfl
      rcases hseam with hlines | hhead
      · simp [WholeLines, text] at hlines
      · simp [hhead]
    | _ => exact h

lemma Lexeme.Stands.mark_eq_iff {l : Lexeme} {rest : Text} (h : l.Stands rest)
    (hl : l.isSignificant = true) : l.mark = ';' ↔ l = .other ';' := by
  cases l with
  | string quote body => rcases h.1 with rfl | rfl <;> simp [mark]
  | template body => simp [mark]
  | other c => simp [mark]
  | _ => cases hl

lemma Lexes.append {lexemes more : List Lexeme} {s t : Text} (h : Lexes lexemes s)
    (hmore : Lexes more t) (hseam : WholeLines s ∨ t.head? = some '\n') :
    Lexes (lexemes ++ more) (s ++ t) := by
  induction h with
  | nil => exact hmore
  | @cons l lexemes rest stands lexes ih =>
    rw [List.append_assoc]
    exact .cons (stands.append hseam) (ih (hseam.imp_left WholeLines.of_append))

lemma Lexes.exists_stands {lexemes : List Lexeme} {s : Text} (h : Lexes lexemes s) :
    ∀ l ∈ lexemes, ∃ rest, l.Stands rest := by
  induction h with
  | nil => simp
  | cons stands _ ih => exact List.forall_mem_cons.mpr ⟨⟨_, stands⟩, ih⟩

end Code

open Code (Lexeme Lexes isUnterminated)

/-! ### The last character that counts -/

namespace Emission

lemma lastSignificant_skip (last : Option Char) (s t : Text) :
    lastSignificant s.length last (s ++ t) = lastSignificant 0 last t := by
  induction s with
  | nil => rfl
  | cons c s ih => exact ih

lemma lastSignificant_char {c : Char} {rest : Text} (last : Option Char)
    (hquote : c ∉ ['"', '\'', '`'])
    (hslash : c = '/' → rest.head? ≠ some '/' ∧ rest.head? ≠ some '*') :
    lastSignificant 0 last (c :: rest) =
      lastSignificant 0 (if isBlank c then last else some c) rest := by
  conv_lhs => unfold lastSignificant
  dsimp only
  split
  · exact absurd rfl (hslash rfl).1
  · exact absurd rfl (hslash rfl).2
  · simp at hquote
  · simp at hquote
  · simp at hquote
  · rfl

lemma lastSignificant_quoted {quote : Char} {body : Text} (rest : Text) (last : Option Char)
    (hquote : quote ∈ ['"', '\'', '`'])
    (hlength : Code.quotedLength quote (body ++ quote :: rest) = some (body.length + 1)) :
    lastSignificant 0 last (quote :: (body ++ [quote]) ++ rest) =
      lastSignificant 0 (some quote) rest := by
  have hskip : lastSignificant ((Code.quotedLength quote (body ++ [quote] ++ rest)).getD
      (body ++ [quote] ++ rest).length) (some quote) (body ++ [quote] ++ rest) =
        lastSignificant 0 (some quote) rest := by
    have hlength' : Code.quotedLength quote (body ++ [quote] ++ rest) =
        some (body ++ [quote]).length := by
      rw [List.append_assoc, List.length_append]
      exact hlength
    rw [hlength']
    exact lastSignificant_skip (some quote) (body ++ [quote]) rest
  simp only [List.mem_cons, List.not_mem_nil, or_false] at hquote
  rcases hquote with rfl | rfl | rfl <;> exact hskip

lemma lastSignificant_lineComment {body rest : Text} (last : Option Char) (hbody : '\n' ∉ body)
    (hrest : rest.head?.all (· == '\n') = true) :
    lastSignificant 0 last ('/' :: '/' :: body ++ rest) = lastSignificant 0 last rest := by
  have hlength : Code.lineCommentLength ('/' :: body ++ rest) = ('/' :: body).length := by
    rw [Code.lineCommentLength, Frontmatter.takeWhile_line (by simp [hbody]) hrest]
  show lastSignificant (Code.lineCommentLength ('/' :: body ++ rest)) last ('/' :: body ++ rest) = _
  rw [hlength, lastSignificant_skip]

lemma lastSignificant_blockComment {body : Text} (rest : Text) (last : Option Char)
    (hbody : ¬ ['*', '/'] <:+: body) :
    lastSignificant 0 last ('/' :: '*' :: (body ++ ['*', '/']) ++ rest) =
      lastSignificant 0 last rest := by
  have hsplit : Text.splitOnce (body ++ '*' :: '/' :: rest) ['*', '/'] = some (body, rest) :=
    Text.splitOnce_append (p := ['*']) (by decide) hbody
  have hlength : Code.blockCommentLength (body ++ ['*', '/'] ++ rest) =
      some (body ++ ['*', '/']).length := by
    rw [List.append_assoc, Code.blockCommentLength, List.length_append]
    exact congrArg (Option.map _) hsplit
  show lastSignificant ((Code.blockCommentLength (body ++ ['*', '/'] ++ rest)).elim
    ('*' :: (body ++ ['*', '/']) ++ rest).length (· + 1)) last ('*' :: (body ++ ['*', '/']) ++ rest)
      = _
  rw [hlength]
  exact lastSignificant_skip last ('*' :: (body ++ ['*', '/'])) rest

/-- **One lexeme** is read as a whole. -/
lemma lastSignificant_lexeme {l : Lexeme} {rest : Text} (h : l.Stands rest) (last : Option Char) :
    lastSignificant 0 last (l.text ++ rest) =
      lastSignificant 0 (if l.isSignificant then some l.mark else last) rest := by
  cases l with
  | blank c =>
    have hblank : isBlank c = true := h
    have hchar : lastSignificant 0 last (c :: rest) =
        lastSignificant 0 (if isBlank c then last else some c) rest := by
      refine lastSignificant_char last (fun hc => ?_) ?_
      · simp only [List.mem_cons, List.not_mem_nil, or_false] at hc
        rcases hc with rfl | rfl | rfl <;> cases hblank
      · rintro rfl
        cases hblank
    rw [hblank] at hchar
    exact hchar
  | lineComment body => exact lastSignificant_lineComment last h.1 h.2
  | blockComment body => exact lastSignificant_blockComment rest last h
  | string quote body =>
    obtain ⟨hquote, hbody⟩ := h
    refine lastSignificant_quoted rest last ?_ (Code.quotedLength_append hbody rest hquote)
    rcases hquote with rfl | rfl <;> simp
  | template body =>
    exact lastSignificant_quoted rest last (by simp) (Code.quotedLength_template h rest)
  | other c =>
    obtain ⟨hblank, hquote, hslash⟩ := h
    have hchar := lastSignificant_char last hquote hslash
    rw [hblank] at hchar
    exact hchar

/-- **A sequence of lexemes** leaves the mark of the last one that counts. -/
lemma lastSignificant_lexes {lexemes : List Lexeme} {s : Text} (h : Lexes lexemes s)
    (last : Option Char) :
    lastSignificant 0 last s =
      ((lexemes.filter Lexeme.isSignificant).getLast?.map Lexeme.mark).or last := by
  induction h generalizing last with
  | nil => rfl
  | @cons l lexemes rest stands lexes ih =>
    rw [lastSignificant_lexeme stands, ih]
    cases hl : l.isSignificant with
    | false => simp [hl]
    | true =>
      rw [List.filter_cons_of_pos hl, List.getLast?_cons]
      cases (lexemes.filter Lexeme.isSignificant).getLast? <;> rfl

lemma needsSeparator_lexes {lexemes : List Lexeme} {s : Text} (h : Lexes lexemes s) :
    needsSeparator s = isUnterminated lexemes := by
  rw [needsSeparator, lastSignificant_lexes h, Option.or_none, isUnterminated]
  cases hlast : (lexemes.filter Lexeme.isSignificant).getLast? with
  | none => rfl
  | some l =>
    obtain ⟨hmem, hl⟩ := List.mem_filter.mp (List.mem_of_getLast? hlast)
    obtain ⟨rest, hstands⟩ := h.exists_stands l hmem
    show (l.mark != ';') = (l != .other ';')
    rw [Bool.eq_iff_iff, bne_iff_ne, bne_iff_ne]
    exact not_congr (hstands.mark_eq_iff hl)

lemma needsSeparator_append {lexemes more : List Lexeme} {s t : Text} (h : Lexes lexemes s)
    (hmore : Lexes more t) (hseam : WholeLines s ∨ t.head? = some '\n')
    (hskipped : ∀ l ∈ more, l.isSignificant = false) :
    needsSeparator (s ++ t) = needsSeparator s := by
  have hnone : more.filter Lexeme.isSignificant = [] := by simpa using hskipped
  rw [needsSeparator_lexes h, needsSeparator_lexes (h.append hmore hseam), isUnterminated,
    List.filter_append, hnone, List.append_nil, isUnterminated]

end Emission

/-! ### The code -/

lemma not_separator_suffix {source : Text} {p : Parsed} {f : Frontmatter} {lead : Text}
    (h : Markup.parse source = .ok p) (hf : p.document.frontmatter = some f)
    (hlead : Emission.IsLead source p lead) :
    ¬ "\"\";".toList <:+ f.content.text ++ lead := by
  rintro ⟨before, hbefore⟩
  have hlast : (f.content.text ++ lead).getLast? = some ';' := by
    rw [← hbefore, List.getLast?_append]
    rfl
  rw [List.getLast?_append, Markup.getLast?_script h hf] at hlast
  cases hc : lead.getLast? with
  | none => simp [hc] at hlast
  | some c =>
    obtain rfl : c = ';' := by simpa [hc] using hlast
    cases hlead.last_blank _ hc

/-- **The separator** is written exactly behind a script whose last lexeme that counts is no
semicolon, and right before the wrapper. -/
theorem separator_iff_unterminated {lexemes : List Lexeme} {script : Text}
    (h : Lexes lexemes script) :
    Emission.needsSeparator script = isUnterminated lexemes ∧
    (∀ more trivia, Lexes more trivia → (∀ l ∈ more, l.isSignificant = false) →
      WholeLines script ∨ trivia.head? = some '\n' →
      Emission.needsSeparator (script ++ trivia) = Emission.needsSeparator script) ∧
    ∀ source options parsed f, Markup.parse source = .ok parsed →
      parsed.document.frontmatter = some f → f.content.text = script →
      ((componentCode source options parsed.document).size ≤ Offset.limit →
        ∃ converted, convert source options = .ok converted) ∧
      ∀ converted, convert source options = .ok converted →
        ∃ lead after, Emission.IsLead source parsed lead ∧
          converted.code = script ++ lead ++
            (if isUnterminated lexemes then "\"\";".toList else []) ++
            "<Fragment>\n".toList ++
            generatedCode source (Emission.bodyPieces source parsed.document) ++
            "\n</Fragment>\n".toList ++ after ∧
          ¬ "\"\";".toList <:+ script ++ lead := by
  have hrule := Emission.needsSeparator_lexes h
  refine ⟨hrule, fun more trivia hmore hskipped hseam =>
    Emission.needsSeparator_append h hmore hseam hskipped, ?_⟩
  rintro source options parsed f hparse hf rfl
  refine ⟨exists_convert_eq_ok hparse, fun converted hconvert => ?_⟩
  obtain ⟨after, hcode⟩ := code_layout hparse hconvert
  have hlead := Emission.isLead_slice hparse
  have hscript : parsed.document.script = f.content.text := by
    simp [Markup.Document.script, hf]
  have hseparator : parsed.document.separator =
      if isUnterminated lexemes then "\"\";".toList else [] := by
    simp [Markup.Document.separator, hf, hrule]
  rw [hscript, hseparator] at hcode
  exact ⟨_, after, hlead, hcode, not_separator_suffix hparse hf hlead⟩

/-- Comments, strings and templates that hold what starts or ends the others. -/
def entangled : List Lexeme :=
  [.blank '\n', .template ['/', '/'], .other '/', .string '\'' ['\\', '\'', ';'],
    .blockComment ['"'], .blank ' ', .lineComment [' ', ';'], .blank '\n']

def entangledScript : Text := entangled.flatMap Lexeme.text

def entangledSource : Text := "---".toList ++ entangledScript ++ "---\n<p/>".toList

theorem separator_iff_unterminated_entangled :
    Lexes entangled entangledScript ∧ isUnterminated entangled = true ∧
      Emission.needsSeparator entangledScript = true ∧
      (Lexes [.blockComment [], .lineComment [';']] ['/', '*', '*', '/', '/', '/', ';'] ∧
        WholeLines entangledScript ∧
        Emission.needsSeparator (entangledScript ++ ['/', '*', '*', '/', '/', '/', ';']) =
          Emission.needsSeparator entangledScript) ∧
      ∃ parsed f converted lead after, Markup.parse entangledSource = .ok parsed ∧
        parsed.document.frontmatter = some f ∧ f.content.text = entangledScript ∧
        (componentCode entangledSource ⟨none, .omitted⟩ parsed.document).size ≤ Offset.limit ∧
        convert entangledSource ⟨none, .omitted⟩ = .ok converted ∧
        Emission.IsLead entangledSource parsed lead ∧
        converted.code = entangledScript ++ lead ++ "\"\";".toList ++ "<Fragment>\n".toList ++
          generatedCode entangledSource (Emission.bodyPieces entangledSource parsed.document) ++
          "\n</Fragment>\n".toList ++ after := by
  have htemplate : Code.TemplateBody ['/', '/'] :=
    .char (by decide) (by decide) (.char (by decide) (by decide) .nil)
  have hstring : Code.StringBody '\'' ['\\', '\'', ';'] :=
    .escape (.char (by decide) (by decide) (by decide) .nil)
  have hcomment : ∀ body ∈ [[], ['"']], ¬ ['*', '/'] <:+: body := by decide
  have hlexes : Lexes entangled entangledScript :=
    .cons rfl <| .cons htemplate <| .cons ⟨rfl, by decide, fun _ => by decide⟩ <|
      .cons ⟨.inr rfl, hstring⟩ <| .cons (hcomment _ (by simp)) <| .cons rfl <|
      .cons ⟨by decide, rfl⟩ <| .cons rfl .nil
  have htrivia : Lexes [.blockComment [], .lineComment [';']] ['/', '*', '*', '/', '/', '/', ';'] :=
    .cons (hcomment _ (by simp)) <| .cons ⟨by decide, rfl⟩ .nil
  have hlines : WholeLines entangledScript := .inr (by decide)
  obtain ⟨hneeds, hmore, hcode⟩ := separator_iff_unterminated hlexes
  obtain ⟨parsed, hparse⟩ : ∃ parsed, Markup.parse entangledSource = .ok parsed :=
    Markup.exists_parse_eq_ok (by decide)
  have hread : (Markup.parse entangledSource).toOption.map (fun p =>
      (p.document.frontmatter.map (·.content.text),
        (componentCode entangledSource ⟨none, .omitted⟩ p.document).size)) =
          some (some entangledScript, 131) := by decide +kernel
  rw [hparse] at hread
  simp only [Except.toOption, Option.map_some, Option.some.injEq, Prod.mk.injEq] at hread
  obtain ⟨hcontent, hsize⟩ := hread
  obtain ⟨f, hf, hscript⟩ := Option.map_eq_some_iff.mp hcontent
  have hlimit :
      (componentCode entangledSource ⟨none, .omitted⟩ parsed.document).size ≤ Offset.limit :=
    hsize.le.trans (by decide)
  obtain ⟨hreturns, hlayout⟩ := hcode entangledSource ⟨none, .omitted⟩ parsed f hparse hf hscript
  obtain ⟨converted, hconvert⟩ := hreturns hlimit
  obtain ⟨lead, after, hlead, hlayout, -⟩ := hlayout converted hconvert
  exact ⟨hlexes, rfl, hneeds, ⟨htrivia, hlines, hmore _ _ htrivia (by decide) (.inl hlines)⟩,
    parsed, f, converted, lead, after, hparse, hf, hscript, hlimit, hconvert, hlead, hlayout⟩

end TsxLowering
