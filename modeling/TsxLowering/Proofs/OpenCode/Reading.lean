import TsxLowering.Proofs.RoundTrip.Document
import TsxLowering.Proofs.TagReports

/-!
Reading code that is never closed.

Such code runs to the end of the source, so nothing is read behind it. A brace in a start tag
that opens such code cuts the tag off: the reader goes back behind the last attribute, passes
over what stands between as text, and comes to the brace once more, now as an expression.
-/

namespace TsxLowering.Markup

variable {source : Text}

/-! ### Open code and its reports -/

/-- The code, if it is never closed. -/
def Enclosed.ifOpen (e : Enclosed) : List Enclosed := if e.closed then [] else [e]

def Attribute.openCode : Attribute → List Enclosed
  | .normal _ _ (.expression code) => code.ifOpen
  | _ => []

def StartTag.openCode (t : StartTag) : List Enclosed := t.attributes.flatMap Attribute.openCode

/-- The code of a node itself that is never closed. -/
def Node.openCode : Node → List Enclosed
  | .element e _ => e.startTag.openCode
  | .expression code => code.ifOpen
  | _ => []

def Enclosed.report (e : Enclosed) : Diagnostic := ⟨.unclosedExpression, e.span⟩

/-- The reports of code that is never closed. -/
def codeReports (ds : List Diagnostic) : List Diagnostic :=
  ds.filter fun d => d.problem = .unclosedExpression

@[simp] lemma codeReports_nil : codeReports [] = [] := rfl

@[simp] lemma codeReports_append (ds es : List Diagnostic) :
    codeReports (ds ++ es) = codeReports ds ++ codeReports es := List.filter_append ..

lemma codeReports_reverse (ds : List Diagnostic) :
    codeReports ds.reverse = (codeReports ds).reverse := List.filter_reverse ..

lemma codeReports_cons_of_ne {d : Diagnostic} (h : d.problem ≠ .unclosedExpression)
    (ds : List Diagnostic) : codeReports (d :: ds) = codeReports ds :=
  List.filter_cons_of_neg (by simpa using h)

/-- The nodes that an event brings with it. -/
def Event.leaves : Event → List Node
  | .leaf node => [node]
  | _ => []

/-! ### What a start tag passes over -/

/-- From `c` to `d` nothing stands that code or markup could begin with. -/
def Clears (c d : Cursor) : Prop :=
  ∃ gap rest : Text, c.rest = gap ++ rest ∧ '<' ∉ gap ∧ '\x7b' ∉ gap ∧ d = ⟨c.pos + gap.size, rest⟩

/-- There is markup at the cursor, or else nothing. -/
def BeforeMarkup (c : Cursor) : Prop := c.rest = [] ∨ ∃ s, c.rest = '<' :: s

/-- There is code at the cursor that is never closed. -/
def OpensCode (c : Cursor) : Prop := ∃ s, c.rest = '\x7b' :: s ∧ Code.split '\x7d' s = none

namespace Clears

variable {c d e : Cursor}

lemma refl (c : Cursor) : Clears c c := ⟨[], c.rest, rfl, by simp, by simp, rfl⟩

lemma trans (h : Clears c d) (h' : Clears d e) : Clears c e := by
  obtain ⟨gap, rest, hrest, hmarkup, hcode, rfl⟩ := h
  obtain ⟨gap', rest', rfl, hmarkup', hcode', rfl⟩ := h'
  refine ⟨gap ++ gap', rest', by simp [hrest], by simp [hmarkup, hmarkup'],
    by simp [hcode, hcode'], ?_⟩
  rw [Text.size_append, Nat.add_assoc]

lemma of_skipWhile {p : Char → Bool} (hmarkup : p '<' = false) (hcode : p '\x7b' = false)
    (c : Cursor) : Clears c (c.skipWhile p) := by
  have hrest := (List.takeWhile_append_dropWhile (p := p) (l := c.rest)).symm
  have hall := List.all_eq_true.mp (List.all_takeWhile (p := p) (l := c.rest))
  refine ⟨_, _, hrest, fun h => ?_, fun h => ?_, Cursor.advance_eq_of_rest hrest⟩
  · rw [hall _ h] at hmarkup
    cases hmarkup
  · rw [hall _ h] at hcode
    cases hcode

lemma atEnd_eq (h : Clears c d) : d.atEnd = c.atEnd := by
  obtain ⟨gap, rest, hrest, -, -, rfl⟩ := h
  simp only [Cursor.atEnd, Cursor.advance, List.take_length, List.drop_length, hrest,
    Text.size_append, Nat.add_assoc]

end Clears

namespace Token

lemma lexeme_of_stray {s : Text}
    (h : (lexeme s).1 = .equals ∨ (lexeme s).1 = .lineBreak ∨ (lexeme s).1 = .invalid) :
    ∃ x r, s = x :: r ∧ x ≠ '<' ∧ x ≠ '\x7b' ∧ (lexeme s).2 = 1 := by
  revert h
  fun_cases lexeme s <;> simp_all

lemma lexeme_of_braceOpen {s : Text} (h : (lexeme s).1 = .braceOpen) :
    ∃ r, s = '\x7b' :: r ∧ (lexeme s).2 = 1 := by
  revert h
  fun_cases lexeme s <;> simp

lemma lexeme_of_startsMarkup {s : Text} (h : (lexeme s).1.startsMarkup = true) :
    ∃ r, s = '<' :: r := by
  revert h
  fun_cases lexeme s <;> simp [Kind.startsMarkup]

end Token

/-! ### What a reading leaves to be read -/

/-- How a reading stands to code that is never closed: it holds `code`, has `reports` about such
code, and `cut` says whether it is a start tag that was cut off. -/
inductive Outcome (cut : Prop) (code : List Enclosed) (reports : List Diagnostic) (next : Cursor) :
    Prop
  /-- The text goes on with markup if a tag was cut off, not with code. -/
  | quiet (code_eq : code = []) (reports_eq : reports = [])
      (passed : cut → ∃ d, Clears next d ∧ BeforeMarkup d)
  /-- It holds such code, and so goes to the end of the text. -/
  | toEnd (e : Enclosed) (code_eq : code = [e]) (reports_eq : reports = [e.report])
      (rest_eq : next.rest = [])
  /-- It reports such code and leaves it to be read again. -/
  | atBrace (d : Cursor) (cut_off : cut) (code_eq : code = [])
      (reports_eq : reports = [⟨.unclosedExpression, d.spanTo d.atEnd⟩]) (clears : Clears next d)
      (opens : OpensCode d)

lemma Outcome.codeReports_eq {cut : Prop} {code : List Enclosed} {reports : List Diagnostic}
    {next : Cursor} (h : Outcome cut code reports next) : codeReports reports = reports := by
  cases h with
  | quiet _ reports_eq => rw [reports_eq]; rfl
  | toEnd _ _ reports_eq => rw [reports_eq]; rfl
  | atBrace _ _ _ reports_eq => rw [reports_eq]; rfl

lemma Enclosed.readCode_outcome (c : Cursor) :
    Outcome False (readCode c).value.ifOpen (readCode c).diagnostics (readCode c).next := by
  have hrest : (readCode c).value.closed = false → (readCode c).next.rest = [] := read_unclosed
  cases hclosed : (readCode c).value.closed with
  | true => exact .quiet (by simp [ifOpen, hclosed]) (by simp_all [readCode]) False.elim
  | false =>
    exact .toEnd (readCode c).value (by simp [ifOpen, hclosed]) (by simp_all [readCode, report])
      (hrest hclosed)

lemma Attribute.readNamed_outcome (name : Excerpt) (c : Cursor) :
    Outcome False (readNamed name c).value.openCode (readNamed name c).diagnostics
      (readNamed name c).next := by
  unfold readNamed
  dsimp only
  split
  · simp only [Value.read]
    split
    iterate 3
      · exact .quiet rfl rfl False.elim
    · exact Enclosed.readCode_outcome _
    · exact .quiet rfl rfl False.elim
  · exact .quiet rfl rfl False.elim

lemma Attribute.openCode_ofBraces (start : Nat) (c : Cursor) (inner : Text) :
    (ofBraces start c inner).openCode = [] := by
  unfold ofBraces
  dsimp only
  split <;> rfl

namespace StartTag

variable {c : Cursor}

lemma Item.attribute_outcome {a : Reading Attribute} (h : Item.read c = .attribute a) :
    Outcome False a.value.openCode a.diagnostics a.next := by
  unfold Item.read at h
  dsimp only at h
  split at h
  · cases h
    exact Attribute.readNamed_outcome ..
  · split at h <;> cases h
    exact .quiet (Attribute.openCode_ofBraces ..) rfl False.elim
  all_goals cases h

lemma Item.stray_clears {next : Cursor} (h : Item.read c = .stray next) : Clears c next := by
  have hskip := Clears.of_skipWhile (p := Token.isSkipped) rfl rfl c
  have hstray (hkind : (Token.next c).1.kind = .equals ∨ (Token.next c).1.kind = .lineBreak ∨
      (Token.next c).1.kind = .invalid) : Clears c (Token.next c).2 := by
    obtain ⟨x, r, hrest, hmarkup, hcode, hlength⟩ := Token.lexeme_of_stray hkind
    rw [Token.next_snd, hlength]
    exact hskip.trans ⟨[x], r, hrest, by simpa using hmarkup.symm, by simpa using hcode.symm,
      Cursor.advance_eq_of_rest (t := [x]) hrest⟩
  unfold Item.read at h
  dsimp only at h
  split at h
  · cases h
  · split at h <;> cases h
  all_goals
    next hkind =>
    cases h
    try exact hstray (by simp [hkind])

lemma Item.missing_cases {ds : List Diagnostic} (h : Item.read c = .missing ds) :
    ∃ d, Clears c d ∧ (ds = [] ∧ BeforeMarkup d ∨
      OpensCode d ∧ ds = [⟨.unclosedExpression, d.spanTo d.atEnd⟩]) := by
  have hskip := Clears.of_skipWhile (p := Token.isSkipped) rfl rfl c
  have hmarkup (hkind : (Token.next c).1.kind.startsMarkup = true) :
      BeforeMarkup (c.skipWhile Token.isSkipped) := .inr (Token.lexeme_of_startsMarkup hkind)
  refine ⟨_, hskip, ?_⟩
  unfold Item.read at h
  dsimp only at h
  split at h
  · cases h
  · next hkind =>
    obtain ⟨r, hrest, hlength⟩ := Token.lexeme_of_braceOpen hkind
    split at h <;> cases h
    next hsplit =>
    rw [Token.next_snd, hlength, Cursor.advance_one_of_rest hrest] at hsplit
    refine .inr ⟨⟨r, hrest, hsplit⟩, ?_⟩
    rw [hskip.atEnd_eq]
    rfl
  iterate 5
    · cases h
  -- tokens that begin markup end the tag, and nothing is reported with them
  iterate 4
    · next hkind =>
      cases h
      exact .inl ⟨rfl, hmarkup (by rw [hkind]; rfl)⟩
  · next hkind =>
    cases h
    exact .inl ⟨rfl, .inl (Token.lexeme_endOfInput_iff.mp hkind)⟩

lemma Tail.read_eq_of_nil {last : Cursor} (h : c.rest = []) :
    Tail.read last c = ⟨⟨[], .unclosed⟩, [], last⟩ := by
  rw [Tail.read_eq, Item.read_of_nil h]

/-- **The outcome of a start tag** from behind its name on. The induction runs over its items;
all since the last attribute has been passed over. -/
theorem Tail.read_outcome (last : Cursor) (hc : c.In source) (hclears : Clears last c) :
    Outcome ((Tail.read last c).value.ending = .unclosed)
      ((Tail.read last c).value.attributes.flatMap Attribute.openCode)
      (Tail.read last c).diagnostics (Tail.read last c).next := by
  fun_induction Tail.read last c with
  | case1 last c a h ih =>
    simp only [Tail.cons, List.flatMap_cons]
    cases Item.attribute_outcome h with
    | quiet code_eq reports_eq =>
      rw [code_eq, reports_eq]
      exact ih (hc.reaches (Item.read_attribute hc h).reaches) (Clears.refl _)
    | toEnd e code_eq reports_eq rest_eq =>
      rw [code_eq, reports_eq, Tail.read_eq_of_nil rest_eq]
      exact .toEnd e rfl rfl rest_eq
    | atBrace _ cut => exact cut.elim
  | case2 last c next h ih =>
    exact ih (hc.reaches (Item.read_stray h)) (hclears.trans (Item.stray_clears h))
  | case3 last c ending next h =>
    exact .quiet rfl rfl fun hcut => absurd hcut (Item.read_tagEnd hc h).2.1
  | case4 last c ds h =>
    -- a tag is cut off by markup, or by a brace that is never closed
    obtain ⟨d, hd, ⟨rfl, hmarkup⟩ | ⟨hopens, rfl⟩⟩ := Item.missing_cases h
    · exact .quiet rfl rfl fun _ => ⟨d, hclears.trans hd, hmarkup⟩
    · exact .atBrace d rfl rfl rfl (hclears.trans hd) hopens

lemma codeReports_unclosedReport (t : StartTag) : codeReports t.unclosedReport = [] := by
  unfold unclosedReport
  split <;> rfl

lemma read_outcome (hc : c.In source) :
    Outcome ((read c).value.ending = .unclosed) (read c).value.openCode
      (codeReports (read c).diagnostics) (read c).next := by
  let afterName := (c.advance 1).advance ((c.advance 1).rest.takeWhile isNameChar).length
  have htail : Outcome _ _ _ _ :=
    Tail.read_outcome afterName ((hc.advance 1).advance _) (Clears.refl _)
  have hreports : codeReports (read c).diagnostics =
      codeReports (Tail.read afterName afterName).diagnostics ++
        codeReports (read c).value.unclosedReport := codeReports_append ..
  rw [hreports, codeReports_unclosedReport, List.append_nil, htail.codeReports_eq]
  exact htail

lemma Faithful.openCode_eq_nil {t : StartTag} (h : t.Faithful source)
    (hending : t.ending ≠ .unclosed) : t.openCode = [] := by
  refine List.flatMap_eq_nil_iff.mpr fun a ha => ?_
  have hclosed := h.tail.closed hending a ha
  unfold Attribute.openCode
  split
  · next code =>
    have : code.closed = true := hclosed
    simp [Enclosed.ifOpen, this]
  · rfl

end StartTag

/-! ### Events -/

namespace Event

variable {c : Cursor}

/-- The event is a start tag that was cut off. -/
def isCutOff : Event → Bool
  | .leaf (.element e _) => e.isCutOff
  | _ => false

lemma readText_outcome (c : Cursor) :
    Outcome ((readText c).value.isCutOff = true) ((readText c).value.leaves.flatMap Node.openCode)
      (codeReports (readText c).diagnostics) (readText c).next :=
  .quiet rfl rfl (by simp [readText, isCutOff])

lemma readElement_outcome {s : Text} (hc : c.In source) (hrest : c.rest = '<' :: s) :
    Outcome ((readElement c).value.isCutOff = true)
      ((readElement c).value.leaves.flatMap Node.openCode)
      (codeReports (readElement c).diagnostics) (readElement c).next := by
  have htag := StartTag.read_outcome hc
  have hfaithful := StartTag.read_faithful hc hrest
  simp only [readElement]
  split
  · next hending =>
    simpa [isCutOff, Element.isCutOff, leaves, Node.openCode, hending] using htag
  · next hending =>
    -- a tag that ends is quiet
    have hcode := hfaithful.openCode_eq_nil hending
    have hreports : codeReports (StartTag.read c).diagnostics = [] := by
      cases htag with
      | quiet _ reports_eq => exact reports_eq
      | toEnd e code_eq => simp [hcode] at code_eq
      | atBrace _ cut => exact absurd cut hending
    have hcut : ((StartTag.read c).value.ending == .unclosed) = false := by simpa using hending
    split
    · exact .quiet (by simp [leaves, Node.openCode, hcode]) hreports
        (by simp [isCutOff, Element.isCutOff, hcut])
    · split
      · refine .quiet (by simp [leaves, Node.openCode, hcode]) ?_
          (by simp [isCutOff, Element.isCutOff, hcut])
        rw [codeReports_append, hreports, readRawText]
        split <;> rfl
      · exact .quiet rfl hreports (by simp [isCutOff])

/-- **The outcome of an event**, read anywhere in a source. -/
theorem read_outcome (hc : c.In source) :
    Outcome ((read c).value.isCutOff = true) ((read c).value.leaves.flatMap Node.openCode)
      (codeReports (read c).diagnostics) (read c).next := by
  unfold read
  split
  · have hcode := Enclosed.readCode_outcome c
    have hleaves : (readExpression c).value.leaves.flatMap Node.openCode =
        (Enclosed.readCode c).value.ifOpen := List.append_nil _
    have hreports : codeReports (readExpression c).diagnostics =
        (Enclosed.readCode c).diagnostics := hcode.codeReports_eq
    rw [hleaves, hreports]
    simpa [readExpression, isCutOff] using hcode
  · unfold readComment
    dsimp only
    split <;> exact .quiet rfl rfl (by simp [isCutOff])
  · exact .quiet rfl rfl (by simp [readDoctype, isCutOff])
  · split
    · exact .quiet rfl rfl (by simp [readClosing, isCutOff])
    · exact readText_outcome c
  · next hrest =>
    split
    · exact readElement_outcome hc hrest
    · exact readText_outcome c
  · exact readText_outcome c

end Event

/-! ### All events of a source -/

/-- If the node is a start tag that was cut off, no code comes behind it before other markup. -/
def Node.Passed (source : Text) (n : Node) : Prop :=
  ∀ e children, n = .element e children → e.isCutOff = true →
    ∃ c d : Cursor, c.In source ∧ c.pos = e.span.stop ∧ Clears c d ∧ BeforeMarkup d

/-- The node is a start tag that was cut off by the opening brace of `code`. -/
def Node.CutBy (source : Text) (code : Enclosed) (n : Node) : Prop :=
  ∃ e children, n = .element e children ∧ e.isCutOff = true ∧
    ∃ c d : Cursor, c.In source ∧ c.pos = e.span.stop ∧ Clears c d ∧ d.pos = code.span.start

namespace Event

variable {c d : Cursor}

/-- The nodes that the events from a cursor on bring with them. -/
def streamLeaves (c : Cursor) : List Node := (stream c).flatMap fun r => r.value.leaves

/-- The reports that the events from a cursor on bring with them, of code that is never closed. -/
def streamReports (c : Cursor) : List Diagnostic :=
  (stream c).flatMap fun r => codeReports r.diagnostics

/-- What the events from a cursor on come to, by the nodes and the reports they bring. -/
inductive Settled (source : Text) (leaves : List Node) (reports : List Diagnostic) : Prop
  | closed (code_eq : leaves.flatMap Node.openCode = []) (reports_eq : reports = [])
  | once (code : Enclosed) (code_eq : leaves.flatMap Node.openCode = [code])
      (reports_eq : reports = [code.report]) (passed : ∀ n ∈ leaves, n.Passed source)
  | twice (code : Enclosed) (code_eq : leaves.flatMap Node.openCode = [code])
      (reports_eq : reports = [code.report, code.report])
      (cutBy : ∃ n ∈ leaves, n.CutBy source code)

lemma streamLeaves_cons (h : c.rest ≠ []) :
    streamLeaves c = (read c).value.leaves ++ streamLeaves (read c).next := by
  rw [streamLeaves, stream, dif_neg h, List.flatMap_cons]
  rfl

lemma streamReports_cons (h : c.rest ≠ []) :
    streamReports c = codeReports (read c).diagnostics ++ streamReports (read c).next := by
  rw [streamReports, stream, dif_neg h, List.flatMap_cons]
  rfl

lemma stream_of_nil (h : c.rest = []) : streamLeaves c = [] ∧ streamReports c = [] := by
  have hstream : stream c = [] := by rw [stream, dif_pos h]
  simp [streamLeaves, streamReports, hstream]

lemma stream_of_opensCode (h : OpensCode d) :
    ∃ code : Enclosed, code.span = d.spanTo d.atEnd ∧
      (streamLeaves d).flatMap Node.openCode = [code] ∧ streamReports d = [code.report] := by
  obtain ⟨s, hrest, hsplit⟩ := h
  let code : Enclosed := ⟨d.spanTo d.atEnd, s, false⟩
  have hread : read d = ⟨.leaf (.expression code), [code.report], d.atEnd⟩ := by
    simp [read, hrest, readExpression, Enclosed.readCode, Enclosed.read, hsplit, code,
      Enclosed.report]
  have hne : d.rest ≠ [] := by simp [hrest]
  obtain ⟨hleaves, hreports⟩ := @stream_of_nil d.atEnd (by simp [Cursor.atEnd])
  refine ⟨code, rfl, ?_, ?_⟩
  · rw [streamLeaves_cons hne, hread, hleaves]
    rfl
  · rw [streamReports_cons hne, hread, hreports]
    rfl

lemma stream_of_clears (h : Clears c d) (hd : OpensCode d) :
    ∃ code : Enclosed, code.span = d.spanTo d.atEnd ∧
      (streamLeaves c).flatMap Node.openCode = [code] ∧ streamReports c = [code.report] := by
  obtain ⟨code, hspan, hleaves, hreports⟩ := stream_of_opensCode hd
  obtain ⟨gap, rest, hrest, hmarkup, hcode, rfl⟩ := h
  obtain ⟨s, hs, -⟩ := hd
  by_cases hgap : gap = []
  · subst hgap
    obtain rfl : rest = c.rest := hrest.symm
    exact ⟨code, hspan, hleaves, hreports⟩
  · -- the gap is a text of its own, which ends at the brace
    have htail : textRun rest = [] := by
      obtain rfl : rest = '\x7b' :: s := hs
      rfl
    have hne : c.rest ≠ [] := by simp [hrest, hgap]
    have hread := read_text hrest hgap hmarkup hcode htail
    rw [Cursor.advance_eq_of_rest hrest] at hread
    refine ⟨code, hspan, ?_, ?_⟩
    · rw [streamLeaves_cons hne, hread]
      exact hleaves
    · rw [streamReports_cons hne, hread]
      exact hreports

lemma eq_leaf_of_mem {e : Event} {n : Node} (h : n ∈ e.leaves) : e = .leaf n := by
  cases e with
  | leaf node => rw [List.mem_singleton.mp h]
  | opening tag => cases h
  | closing tag => cases h

lemma exists_of_isCutOff {e : Event} (h : e.isCutOff = true) :
    ∃ f children, e = .leaf (.element f children) ∧ f.isCutOff = true := by
  cases e with
  | leaf node =>
    cases node with
    | element f children => exact ⟨f, children, rfl, h⟩
    | _ => cases h
  | opening tag => cases h
  | closing tag => cases h

lemma stop_of_leaf {e : Element} {children : List Node} (hc : c.In source)
    (h : (read c).value = .leaf (.element e children)) : (read c).next.pos = e.span.stop := by
  have hspan := (read_readAt hc).span_eq
  rw [h] at hspan
  exact (congrArg Span.stop hspan).symm

lemma passed_of_outcome (hc : c.In source)
    (h : (read c).value.isCutOff = true → ∃ d, Clears (read c).next d ∧ BeforeMarkup d) :
    ∀ n ∈ (read c).value.leaves, n.Passed source := by
  rintro n hn e children rfl hcut
  have hleaf := eq_leaf_of_mem hn
  obtain ⟨d, hd, hmarkup⟩ := h (by rw [hleaf]; exact hcut)
  exact ⟨_, d, hc.reaches (read_readAt hc).reaches, stop_of_leaf hc hleaf, hd, hmarkup⟩

/-- **Open code ends the events**, and is reported once, or twice where it cut off a start tag. The
induction runs over the events. -/
theorem stream_settled (hc : c.In source) : Settled source (streamLeaves c) (streamReports c) := by
  fun_induction stream c with
  | case1 c hrest =>
    obtain ⟨hleaves, hreports⟩ := stream_of_nil hrest
    rw [hleaves, hreports]
    exact .closed rfl rfl
  | case2 c hrest ih =>
    have hnext := hc.reaches (read_readAt hc).reaches
    rw [streamLeaves_cons hrest, streamReports_cons hrest]
    cases read_outcome hc with
    | quiet code_eq reports_eq passed =>
      rw [reports_eq]
      have hcode (leaves : List Node) :
          ((read c).value.leaves ++ leaves).flatMap Node.openCode =
            leaves.flatMap Node.openCode := by rw [List.flatMap_append, code_eq, List.nil_append]
      cases ih hnext with
      | closed code_eq' reports_eq' => exact .closed ((hcode _).trans code_eq') reports_eq'
      | once code code_eq' reports_eq' passed' =>
        exact .once code ((hcode _).trans code_eq') reports_eq'
          (List.forall_mem_append.mpr ⟨passed_of_outcome hc passed, passed'⟩)
      | twice code code_eq' reports_eq' cutBy =>
        obtain ⟨n, hn, hcut⟩ := cutBy
        exact .twice code ((hcode _).trans code_eq') reports_eq'
          ⟨n, List.mem_append_right _ hn, hcut⟩
    | toEnd code code_eq reports_eq rest_eq =>
      obtain ⟨hleaves, hreports⟩ := stream_of_nil rest_eq
      rw [hleaves, hreports, List.append_nil, List.append_nil]
      exact .once code code_eq reports_eq
        (passed_of_outcome hc fun _ => ⟨_, Clears.refl _, .inl rest_eq⟩)
    | atBrace d cut code_eq reports_eq clears opens =>
      -- the brace that has cut off the tag is read again, now as an expression
      obtain ⟨code, hspan, hcode, hreports⟩ := stream_of_clears clears opens
      refine .twice code ?_ ?_ ?_
      · rw [List.flatMap_append, code_eq, hcode]
        rfl
      · rw [reports_eq, hreports, Enclosed.report, hspan]
        rfl
      · obtain ⟨e, children, hleaf, hcut⟩ := exists_of_isCutOff cut
        refine ⟨.element e children, by simp [hleaf, leaves], e, children, rfl, hcut, ?_⟩
        exact ⟨_, d, hnext, stop_of_leaf hc hleaf, clears, by rw [hspan]; rfl⟩

end Event

end TsxLowering.Markup
