import TsxLowering.Proofs.RoundTrip.Spelling

/-!
The tokens of a source.

A token is the longest text at its place that is spelled as one, and a character at which no token
is spelled makes one of its own. Between two tokens only skipped characters are left out, and no
token depends on what stands before it. So the tokens behind a token are those of a reader that
starts there, and a parser may look for the next one from wherever its cursor stands. Main
statement: `streamFrom_tokenizes`.
-/

namespace TsxLowering

variable {source : Text} {c : Cursor}

lemma Cursor.In.dropBytes_pos (h : c.In source) : source.dropBytes c.pos = some c.rest := by
  obtain ⟨before, hsource, hpos⟩ := h
  rw [hsource, hpos, Text.dropBytes_size_append]

namespace Markup.Token

/-! ### Longest tokens -/

/-- The spellings of the tokens of a kind. -/
def Kind.Spells : Kind → Text → Prop
  | .tagOpen, t => t = ['<']
  | .closingTagOpen, t => t = ['<', '/']
  | .declarationOpen, t => t = ['<', '!']
  | .commentOpen, t => t = ['<', '!', '-', '-']
  | .tagEnd, t => t = ['>']
  | .selfClosingEnd, t => t = ['/', '>']
  | .equals, t => t = ['=']
  | .braceOpen, t => t = ['\x7b']
  | .lineBreak, t => t = ['\n']
  | .name, t => IsName t
  | .endOfInput, _ | .invalid, _ => False

/-- What the token at the start of `s` is: the longest that is spelled there, or one character if
none is. -/
inductive Munches (s : Text) : Kind → Text → Prop
  | longest {k : Kind} {t : Text} (starts : t <+: s) (spelled : k.Spells t)
      (longest : ∀ (k' : Kind) (u : Text), k'.Spells u → u <+: s →
        u.length < t.length ∨ k' = k ∧ u = t) : Munches s k t
  | stray {x : Char} {rest : Text} (eq_cons : s = x :: rest)
      (none_spelled : ∀ (k : Kind) (u : Text), k.Spells u → ¬ u <+: s) : Munches s .invalid [x]

variable {s t u : Text} {k : Kind}

lemma isNameChar_of_begins {x : Char} (hname : IsName u) (h : u <+: x :: s) :
    isNameChar x = true := by
  obtain ⟨y, r, rfl, hy⟩ := hname.exists_cons
  rwa [← (List.cons_prefix_cons.mp h).1]

lemma Munches.of_punctuation {x : Char} (hx : isNameChar x = false) (hstarts : t <+: x :: s)
    (hk : k.Spells t) (hlongest : ∀ (k' : Kind) (u : Text), k' ≠ .name → k'.Spells u →
      u <+: x :: s → u.length < t.length ∨ k' = k ∧ u = t) : Munches (x :: s) k t := by
  refine .longest hstarts hk fun k' u hu hbegins => ?_
  by_cases hname : k' = .name
  · subst hname
    rw [isNameChar_of_begins hu hbegins] at hx
    cases hx
  · exact hlongest k' u hname hu hbegins

lemma Munches.of_name {x : Char} (hx : isNameChar x = true) (s : Text) :
    Munches (x :: s) .name (x :: s.takeWhile isNameChar) := by
  have htake : (x :: s).takeWhile isNameChar = x :: s.takeWhile isNameChar :=
    List.takeWhile_cons_of_pos hx
  refine .longest (htake ▸ List.takeWhile_prefix _) ⟨List.cons_ne_nil _ _, ?_⟩ ?_
  · intro y hy
    exact List.mem_takeWhile_imp (htake ▸ hy)
  · intro k u hu hbegins
    cases k with
    | name =>
      have hle : u <+: x :: s.takeWhile isNameChar := by
        obtain ⟨r, hr⟩ := hbegins
        rw [← htake, ← hr, List.takeWhile_append_of_pos hu.chars]
        exact List.prefix_append _ _
      exact (Nat.lt_or_eq_of_le hle.length_le).imp_right fun heq => ⟨rfl, hle.eq_of_length heq⟩
    | endOfInput => exact hu.elim
    | invalid => exact hu.elim
    | _ =>
      obtain rfl := hu
      obtain ⟨rfl, -⟩ := List.cons_prefix_cons.mp hbegins
      -- punctuation does not begin with a character of names
      exact absurd hx (by decide)

/-- **The longest token**: there is no other way to read what stands at the start of a text. -/
lemma munches_lexeme (h : s ≠ []) : Munches s (lexeme s).1 (s.take (lexeme s).2) := by
  fun_cases lexeme s with
  | case1 => exact absurd rfl h
  | case11 x s _ _ _ _ _ _ _ _ _ hx =>
    have htake : (x :: s).take ((s.takeWhile isNameChar).length + 1) =
        x :: s.takeWhile isNameChar := by
      rw [List.take_succ_cons, ← List.prefix_iff_eq_take.mp (List.takeWhile_prefix _)]
    rw [htake]
    exact .of_name hx s
  | case12 x s _ _ _ _ hself _ _ _ _ hx =>
    refine .stray rfl fun k u hu hbegins => ?_
    cases k with
    | name => exact hx (isNameChar_of_begins hu hbegins)
    | endOfInput => exact hu
    | invalid => exact hu
    | selfClosingEnd =>
      obtain rfl := hu
      obtain ⟨rfl, r, rfl⟩ := List.cons_prefix_cons.mp hbegins
      exact hself r rfl rfl
    | _ =>
      obtain rfl := hu
      obtain ⟨rfl, -⟩ := List.cons_prefix_cons.mp hbegins
      contradiction
  | case3 r hcomment =>
    -- the one longer token that begins like this opens a comment
    have hopen : ¬ ['-', '-'] <+: r := by
      rintro ⟨t, rfl⟩
      exact hcomment t rfl
    refine .of_punctuation rfl ⟨_, rfl⟩ rfl fun k' u hname hu hbegins => ?_
    cases k' <;> simp_all [Kind.Spells]
  | case5 r _ hdeclaration hclosing =>
    -- all longer tokens begin with `<!` or `</`
    have hbang : ∀ u, ¬ '!' :: u <+: r := by
      rintro u ⟨t, rfl⟩
      exact hdeclaration (u ++ t) rfl
    have hslash : ¬ ['/'] <+: r := by
      rintro ⟨t, rfl⟩
      exact hclosing t rfl
    refine .of_punctuation rfl ⟨_, rfl⟩ rfl fun k' u hname hu hbegins => ?_
    cases k' <;> simp_all [Kind.Spells]
  | _ =>
    refine .of_punctuation rfl ⟨_, rfl⟩ rfl fun k' u hname hu hbegins => ?_
    cases k' <;> simp_all [Kind.Spells]

/-! ### The next token -/

/-- Only skipped characters stand between the two spans. -/
def Gap (source : Text) (s t : Span) : Prop :=
  ∃ gap, source.slice? s.stop t.start = some gap ∧ gap.all isSkipped = true

/-- What a token in `source` is, unless it is the end. -/
structure Stands (source : Text) (t : Token) : Prop where
  nonempty : t.span.start < t.span.stop
  slice : source.slice? t.span.start t.span.stop = some t.text
  munches : ∃ rest, source.dropBytes t.span.start = some rest ∧ Munches rest t.kind t.text
  /-- No following character extends a name. -/
  name_ends : t.kind = .name → ∀ x rest, source.dropBytes t.span.stop = some (x :: rest) →
    isNameChar x = false

/-- The token at the end of `source`. -/
def atEnd (source : Text) : Token := ⟨.endOfInput, ⟨source.size, source.size⟩, []⟩

lemma kind_next (c : Cursor) : (next c).1.kind = (lexeme (c.skipWhile isSkipped).rest).1 := rfl

lemma stop_next (c : Cursor) : (next c).1.span.stop = (next c).2.pos := rfl

lemma gap_next (h : c.In source) (s : Span) (hs : s.stop = c.pos) :
    Gap source s (next c).1.span := by
  refine ⟨c.rest.takeWhile isSkipped, ?_, List.all_takeWhile⟩
  rw [hs]
  exact h.slice?_skipWhile isSkipped

lemma next_eq_atEnd (h : c.In source) (hend : (next c).1.kind = .endOfInput) :
    (next c).1 = atEnd source := by
  have hin := h.reaches (c.reaches_skipWhile isSkipped)
  rw [kind_next, lexeme_endOfInput_iff] at hend
  have hlexeme : lexeme (c.skipWhile isSkipped).rest = (.endOfInput, 0) := by rw [hend]; rfl
  have hpos : (c.skipWhile isSkipped).pos = source.size := by
    simpa [hend] using hin.pos_add_size
  simp only [next, hlexeme, Cursor.excerpt, Cursor.spanTo, Cursor.advance_zero, hpos,
    List.take_zero, atEnd]

lemma Munches.not_isNameChar {x : Char} {rest : Text} (h : Munches (t ++ x :: rest) .name t) :
    isNameChar x = false := by
  by_contra hx
  rw [Bool.not_eq_false] at hx
  obtain ⟨-, hname, hlongest⟩ := h
  have hlonger : IsName (t ++ [x]) :=
    ⟨by simp, List.forall_mem_append.mpr ⟨hname.chars, by simpa using hx⟩⟩
  rcases hlongest .name (t ++ [x]) hlonger ⟨rest, by simp⟩ with hlt | ⟨-, heq⟩
  · rw [List.length_append] at hlt
    omega
  · simp at heq

lemma stands_next (h : c.In source) (hend : (next c).1.kind ≠ .endOfInput) :
    (next c).1.Stands source := by
  rw [kind_next, Ne, lexeme_endOfInput_iff] at hend
  have hin := h.reaches (c.reaches_skipWhile isSkipped)
  have hmunches : Munches (c.skipWhile isSkipped).rest (next c).1.kind (next c).1.text :=
    munches_lexeme hend
  constructor
  · exact Cursor.pos_lt_advance (lexeme_pos hend) hend
  · exact hin.excerpt _
  · exact ⟨_, hin.dropBytes_pos, hmunches⟩
  · intro hkind x rest hrest
    rw [stop_next, (h.reaches (next_reaches c)).dropBytes_pos, Option.some.injEq] at hrest
    have hsplit : (c.skipWhile isSkipped).rest = (next c).1.text ++ x :: rest := by
      rw [← hrest]
      exact (List.take_append_drop _ _).symm
    rw [hkind, hsplit] at hmunches
    exact hmunches.not_isNameChar

/-! ### All tokens -/

/-- The tokens of `source` from `offset` on. -/
structure Tokenizes (source : Text) (offset : Nat) (ts : List Token) : Prop where
  ends : ∃ inner, ts = inner ++ [atEnd source] ∧ ∀ t ∈ inner, t.Stands source
  gaps : List.IsChain (Gap source) (⟨offset, offset⟩ :: ts.map Token.span)
  in_order : ts.Pairwise fun t u => t.span.stop ≤ u.span.start
  /-- The tokens behind a token are those of a reader that starts there. -/
  restarts : ∀ before t after, ts = before ++ t :: after → t.kind ≠ .endOfInput →
    streamFrom source t.span.stop = after

lemma streamFrom_pos (h : c.In source) : streamFrom source c.pos = stream c := by
  rw [streamFrom, h.dropBytes_pos]

lemma pos_le_start (h : c.In source) : ∀ t ∈ stream c, c.pos ≤ t.span.start := by
  have hfirst : ∀ c : Cursor, c.pos ≤ (next c).1.span.start := fun c =>
    (c.reaches_skipWhile isSkipped).pos_le
  fun_induction stream c with
  | case1 c _ => simp [hfirst]
  | case2 c hend ih =>
    intro t ht
    rcases List.mem_cons.mp ht with rfl | ht
    · exact hfirst c
    · exact (next_reaches c).pos_le.trans (ih (h.reaches (next_reaches c)) t ht)

/-- **The tokens from a cursor on.** -/
lemma tokenizes_stream (h : c.In source) : Tokenizes source c.pos (stream c) := by
  fun_induction stream c with
  | case1 c hend =>
    have hlast := next_eq_atEnd h hend
    constructor
    · exact ⟨[], by rw [hlast]; rfl, by simp⟩
    · exact .cons_cons (gap_next h _ rfl) (.singleton _)
    · exact List.pairwise_singleton _ _
    · intro before t after heq ht
      have hmem : t ∈ [(next c).1] := heq ▸ by simp
      rw [List.mem_singleton.mp hmem] at ht
      exact absurd hend ht
  | case2 c hend ih =>
    have hnext := h.reaches (next_reaches c)
    obtain ⟨⟨inner, hinner, hstands⟩, hgaps, horder, hrestarts⟩ := ih hnext
    constructor
    · refine ⟨(next c).1 :: inner, by rw [hinner]; rfl, ?_⟩
      exact List.forall_mem_cons.mpr ⟨stands_next h hend, hstands⟩
    · have hgap : ∀ t, Gap source ⟨(next c).2.pos, (next c).2.pos⟩ t →
          Gap source (next c).1.span t := fun _ h => h
      exact .cons_cons (gap_next h _ rfl) (.cons_of_imp hgap hgaps)
    · exact List.pairwise_cons.mpr ⟨pos_le_start hnext, horder⟩
    · rintro (_ | ⟨first, before⟩) t after heq ht
      · obtain ⟨rfl, rfl⟩ := List.cons.inj heq
        rw [stop_next, streamFrom_pos hnext]
      · exact hrestarts before t after (List.cons.inj heq).2 ht

/-- **Tokens tile a source**, and reading may start again behind each of them. At every cursor of a
parser, the next token is the first of those from there on. -/
theorem streamFrom_tokenizes {offset : Nat} (h : source.Boundary offset) :
    Tokenizes source offset (streamFrom source offset) ∧
      ∀ c : Cursor, c.In source → (streamFrom source c.pos).head? = some (next c).1 := by
  constructor
  · obtain ⟨before, after, hsource, hoffset⟩ := h
    have hin : Cursor.In source ⟨offset, after⟩ := ⟨before, hsource, hoffset⟩
    exact streamFrom_pos hin ▸ tokenizes_stream hin
  · intro c hc
    rw [streamFrom_pos hc, stream]
    split <;> rfl

/-- A declaration that no comment goes on with, a name and a stray blank of several bytes. -/
def wideTokens : Text := "é <!-é=\u2003\n/>".toList

theorem streamFrom_tokenizes_wideTokens :
    wideTokens.Boundary 2 ∧
      (streamFrom wideTokens 2).map (fun t => (t.kind, t.span)) =
        [(.declarationOpen, ⟨3, 5⟩), (.name, ⟨5, 8⟩), (.equals, ⟨8, 9⟩), (.invalid, ⟨9, 12⟩),
          (.lineBreak, ⟨12, 13⟩), (.selfClosingEnd, ⟨13, 15⟩), (.endOfInput, ⟨15, 15⟩)] ∧
      Tokenizes wideTokens 2 (streamFrom wideTokens 2) := by
  have hboundary : wideTokens.Boundary 2 := ⟨['é'], wideTokens.drop 1, rfl, rfl⟩
  refine ⟨hboundary, ?_, (streamFrom_tokenizes hboundary).1⟩
  decide +kernel

end Markup.Token

end TsxLowering
