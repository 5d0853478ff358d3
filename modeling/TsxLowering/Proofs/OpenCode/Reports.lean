import TsxLowering.Proofs.OpenCode.Reading
import TsxLowering.Proofs.Spans

/-!
Reports of code that is never closed.

A tree holds one piece of such code at most, and it is reported when it is read. The brace that
has cut off a start tag is read twice, and so reported twice.
-/

namespace TsxLowering.Markup

variable {source : Text}

/-! ### Open code in a tree -/

/-- All code in a tree that is never closed. -/
def openCode (nodes : List Node) : List Enclosed := (Node.descendants nodes).flatMap Node.openCode

/-- The code stands behind a start tag that was cut off, and no other markup begins in between. -/
def Enclosed.follows (source : Text) (code : Enclosed) : Node → Bool
  | .element e _ => e.isCutOff && decide (e.span.stop ≤ code.span.start) &&
      !(Span.slice ⟨e.span.stop, code.span.start⟩ source).contains '<'
  | _ => false

/-- The opening brace was read before, in a start tag which it cut off. -/
def Enclosed.isReread (source : Text) (nodes : List Node) (code : Enclosed) : Bool :=
  (Node.descendants nodes).any (code.follows source)

namespace Parsed

/-- Code that is never closed and its reports correspond to each other, one to one. -/
structure ReportsOnce (p : Parsed) : Prop where
  distinct : ((codeReports p.diagnostics).map Diagnostic.span).Nodup
  reports : codeReports p.diagnostics = (openCode p.document.nodes).map Enclosed.report

/-- What is reported about the code in a tree that is never closed. -/
structure OpenCodeReported (source : Text) (p : Parsed) : Prop where
  atMostOne : (openCode p.document.nodes).length ≤ 1
  toEnd : ∀ e ∈ openCode p.document.nodes, e.closed = false ∧ e.Within source '\x7b' '\x7d'
  reports : codeReports p.diagnostics = (openCode p.document.nodes).flatMap fun e =>
    List.replicate (if e.isReread source p.document.nodes then 2 else 1) e.report

end Parsed

/-! ### What the nodes of a tree have from its events -/

namespace Nesting

variable {α : Type} {f : Node → List α}

/-- All that `f` finds in the nodes that have their place. -/
def gather (f : Node → List α) (n : Nesting) : List α := (Node.descendants n.placed).flatMap f

/-- There is nothing for `f` in an element with this start tag, however it ends. -/
def Silent (f : Node → List α) (tag : StartTag) : Prop :=
  ∀ siblings nodes endTag stop, f (Level.element ⟨tag, siblings⟩ nodes endTag stop) = []

/-- What has been found and reported on the way from one construction to a later one. -/
structure Gathers (f : Node → List α) (n n' : Nesting) (found : List α)
    (reports : List Diagnostic) : Prop where
  nodes : (n'.gather f).Perm (found ++ n.gather f)
  reports : codeReports n'.diagnostics.reverse = codeReports n.diagnostics.reverse ++ reports
  silent : ∀ l ∈ n'.levels, Silent f l.tag

lemma Gathers.trans {n n' n'' : Nesting} {found found' : List α} {ds ds' : List Diagnostic}
    (h : Gathers f n n' found ds) (h' : Gathers f n' n'' found' ds') :
    Gathers f n n'' (found ++ found') (ds ++ ds') where
  nodes := by
    rw [List.append_assoc]
    exact h'.nodes.trans ((h.nodes.append_left _).trans (List.perm_append_comm_assoc ..))
  reports := by rw [h'.reports, h.reports, List.append_assoc]
  silent := h'.silent

/-- The innermost open element ends, which is reported as a tag that is missing or not at all. -/
lemma gathers_end {level : Level} {levels : List Level}
    (hsilent : ∀ l ∈ level :: levels, Silent f l.tag) (nodes : List Node) (endTag : Option Span)
    (pos : Nat) {ds ds' : List Diagnostic} (hds : codeReports ds' = codeReports ds) :
    Gathers f ⟨nodes, level :: levels, ds⟩
      ⟨level.element nodes endTag pos :: level.siblings, levels, ds'⟩ [] [] where
  nodes := by
    obtain ⟨hlevel, -⟩ := List.forall_mem_cons.mp hsilent
    have h := (descendants_placed_end level levels nodes endTag pos ds' ds).flatMap_right f
    rwa [List.flatMap_cons, hlevel level.siblings nodes endTag pos] at h
  reports := by simp [codeReports_reverse, hds]
  silent := (List.forall_mem_cons.mp hsilent).2

lemma closeThrough_gathers (tag : ClosingTag) (nodes : List Node) (ds : List Diagnostic)
    (levels : List Level) (hsilent : ∀ l ∈ levels, Silent f l.tag) :
    Gathers f ⟨nodes, levels, ds⟩ (closeThrough tag nodes ds levels) [] [] := by
  induction levels generalizing nodes ds with
  | nil => exact ⟨.refl _, by simp [closeThrough], by simp [closeThrough]⟩
  | cons level levels ih =>
    simp only [closeThrough]
    split
    · exact gathers_end hsilent nodes _ _ rfl
    · exact (gathers_end hsilent nodes none _ (codeReports_cons_of_ne (by simp) ds)).trans
        (ih _ _ (List.forall_mem_cons.mp hsilent).2)

lemma closeAll_gathers (stop : Nat) (nodes : List Node) (ds : List Diagnostic)
    (levels : List Level) (hsilent : ∀ l ∈ levels, Silent f l.tag) :
    Gathers f ⟨nodes, levels, ds⟩ (closeAll stop nodes ds levels) [] [] := by
  induction levels generalizing nodes ds with
  | nil => exact ⟨.refl _, by simp [closeAll], by simp [closeAll]⟩
  | cons level levels ih =>
    exact (gathers_end hsilent nodes none _ (codeReports_cons_of_ne (by simp) ds)).trans
      (ih _ _ (List.forall_mem_cons.mp hsilent).2)

lemma addReading_gathers {n : Nesting} {r : Reading Event}
    (hsilent : ∀ l ∈ n.levels, Silent f l.tag)
    (hf : ∀ {tag ds}, Event.Sound source (.opening tag) ds → Silent f tag)
    (hr : r.value.Sound source r.diagnostics) :
    Gathers f n (n.addReading r) (r.value.leaves.flatMap f) (codeReports r.diagnostics) := by
  obtain ⟨e, ds, next⟩ := r
  cases e with
  | leaf node =>
    refine ⟨?_, by simp [addReading, add], hsilent⟩
    have hplaced : placed (n.addReading ⟨.leaf node, ds, next⟩) = node :: n.placed := rfl
    rw [gather, hplaced, Node.descendants_cons, hr.descendants_leaf, List.flatMap_append]
    exact .refl _
  | opening tag =>
    exact ⟨.refl _, by simp [addReading, add], List.forall_mem_cons.mpr ⟨hf hr, hsilent⟩⟩
  | closing tag =>
    -- a closing tag comes without reports
    obtain rfl : ds = [] := hr.closing_quiet
    simp only [addReading, add, List.reverse_nil, List.nil_append]
    split
    · exact closeThrough_gathers tag n.nodes n.diagnostics n.levels hsilent
    · refine ⟨.refl _, ?_, hsilent⟩
      rw [codeReports_reverse, codeReports_cons_of_ne (by simp), codeReports_reverse]
      simp

/-- **A tree holds what its events have brought**, and reports what they had to report. -/
theorem ofEvents_gathers {events : List (Reading Event)} (stop : Nat)
    (hf : ∀ {tag ds}, Event.Sound source (.opening tag) ds → Silent f tag)
    (hevents : ∀ r ∈ events, r.value.Sound source r.diagnostics) :
    Gathers f .empty (ofEvents events stop) (events.flatMap fun r => r.value.leaves.flatMap f)
      (events.flatMap fun r => codeReports r.diagnostics) := by
  have hfold (n : Nesting) (hn : ∀ l ∈ n.levels, Silent f l.tag) :
      Gathers f n (events.foldl addReading n) (events.flatMap fun r => r.value.leaves.flatMap f)
        (events.flatMap fun r => codeReports r.diagnostics) := by
    induction events generalizing n with
    | nil => exact ⟨.refl _, by simp, hn⟩
    | cons r events ih =>
      obtain ⟨hr, hevents⟩ := List.forall_mem_cons.mp hevents
      have hstep := addReading_gathers hn hf hr
      exact hstep.trans (ih hevents _ hstep.silent)
  have hopen := hfold .empty (by simp [Nesting.empty])
  have hclosed := hopen.trans (closeAll_gathers stop _ _ _ hopen.silent)
  rwa [List.append_nil, List.append_nil] at hclosed

end Nesting

lemma Frontmatter.codeReports_read (source : Text) :
    codeReports (Frontmatter.read source).diagnostics = [] := by
  unfold read
  dsimp only
  split
  · split
    · split <;> rfl
    · rfl
  · rfl

/-- Where the markup of a source begins. -/
def bodyStart (source : Text) : Cursor := (Frontmatter.read source).next

lemma parse_gathers {α : Type} {f : Node → List α} {p : Parsed}
    (hf : ∀ {tag ds}, Event.Sound source (.opening tag) ds → Nesting.Silent f tag)
    (h : parse source = .ok p) :
    ((Node.descendants p.document.nodes).flatMap f).Perm
        ((Event.streamLeaves (bodyStart source)).flatMap f) ∧
      codeReports p.diagnostics = Event.streamReports (bodyStart source) := by
  have hinside := (Frontmatter.read_readFrom source).inside
  have hevents := Event.forall_stream (Q := fun r => r.value.Sound source r.diagnostics)
    (fun _ => Event.read_sound) hinside
  have hlevels := (@Nesting.ofEvents_built _ source.size _ Event.Sound.closing_quiet hevents).1
  have hgathers := Nesting.ofEvents_gathers source.size hf hevents
  simp only [parse, parse_eq_ok h, if_true] at h
  cases h
  constructor
  · have hnodes := hgathers.nodes
    rw [Nesting.gather, Nesting.placed_of_levels_nil hlevels] at hnodes
    refine ((Node.descendants_reverse_perm _).flatMap_right f).trans (hnodes.trans ?_)
    rw [Event.streamLeaves, List.flatMap_assoc]
    exact .of_eq (List.append_nil _)
  · rw [codeReports_append, Frontmatter.codeReports_read]
    exact hgathers.reports

/-! ### Code behind a start tag that was cut off -/

namespace Node

variable {n : Node} {code : Enclosed}

lemma CutBy.follows (h : n.CutBy source code) : code.follows source n = true := by
  obtain ⟨e, children, rfl, hcut, c, d, ⟨before, hsource, hpos⟩, hstop, hclears, hstart⟩ := h
  obtain ⟨gap, rest, hrest, hmarkup, -, rfl⟩ := hclears
  have hslice : source.slice? e.span.stop code.span.start = some gap := by
    refine Text.slice?_eq_some_iff.mpr ⟨before, rest, ?_, ?_, ?_⟩
    · rw [hsource, hrest, List.append_assoc]
    · rw [← hstop, hpos]
    · rw [← hstart, hpos]
  have hle : e.span.stop ≤ code.span.start := by
    rw [← hstop, ← hstart]
    exact Nat.le_add_right ..
  simp [Enclosed.follows, hcut, hle, Span.slice, hslice, hmarkup]

lemma markup_of_append_eq {gap rest before after : Text}
    (h : gap ++ rest = before ++ '\x7b' :: after) (hcode : '\x7b' ∉ gap)
    (hrest : rest = [] ∨ ∃ s, rest = '<' :: s) : '<' ∈ before := by
  -- the brace is not in the gap, so it stands behind what follows the gap
  rcases List.append_eq_append_iff.mp h with ⟨w, rfl, hw⟩ | ⟨w, rfl, hw⟩
  · rcases hrest with rfl | ⟨s, rfl⟩
    · simp at hw
    · cases w with
      | nil => simp at hw
      | cons x w =>
        obtain rfl : '<' = x := (List.cons.inj hw).1
        simp
  · cases w with
    | nil =>
      rcases hrest with rfl | ⟨s, rfl⟩
      · simp at hw
      · simp at hw
    | cons x w =>
      obtain rfl : '\x7b' = x := (List.cons.inj hw).1
      simp at hcode

lemma Passed.not_follows (h : n.Passed source) (hcode : code.Within source '\x7b' '\x7d') :
    code.follows source n = false := by
  cases n with
  | element e children =>
    cases hcut : e.isCutOff with
    | false => simp [Enclosed.follows, hcut]
    | true =>
      obtain ⟨c, d, ⟨before, hsource, hpos⟩, hstop, ⟨gap, rest, hrest, -, hgap, rfl⟩, hmarkup⟩ :=
        h e children rfl hcut
      by_cases hle : e.span.stop ≤ code.span.start
      · obtain ⟨u, v, hwritten, hu, -⟩ := Text.slice?_eq_some_iff.mp hcode.written
        rw [List.append_assoc] at hwritten
        obtain ⟨between, hslice⟩ := Text.exists_slice? ⟨before, _, hsource, hstop.symm.trans hpos⟩
          ⟨u, _, hwritten, hu⟩ hle
        -- what is between the tag and the brace starts behind the one and ends before the other
        obtain ⟨x, y, hxy, hx, hy⟩ := Text.slice?_eq_some_iff.mp hslice
        obtain ⟨-, hleft⟩ := Text.append_inj_of_size_eq (hwritten.symm.trans hxy)
          (by rw [← hu, hy, Text.size_append])
        rw [List.append_assoc] at hxy
        obtain ⟨-, hright⟩ := Text.append_inj_of_size_eq (hsource.symm.trans hxy)
          (by rw [← hpos, hstop, hx])
        rw [hrest, ← hleft] at hright
        have hmem := markup_of_append_eq hright hgap hmarkup
        simp [Enclosed.follows, Span.slice, hslice, hmem]
      · simp [Enclosed.follows, hle]
  | _ => rfl

lemma Delimited.openCode (h : n.Delimited source) (hcode : code ∈ n.openCode) :
    code.closed = false ∧ code.Within source '\x7b' '\x7d' := by
  have hopen {e : Enclosed} (he : e.Within source '\x7b' '\x7d') (hmem : code ∈ e.ifOpen) :
      code.closed = false ∧ code.Within source '\x7b' '\x7d' := by
    unfold Enclosed.ifOpen at hmem
    split at hmem
    · cases hmem
    · next hclosed =>
      obtain rfl := List.mem_singleton.mp hmem
      exact ⟨by simpa using hclosed, he⟩
  cases n with
  | element e children =>
    obtain ⟨a, ha, hmem⟩ := List.mem_flatMap.mp hcode
    have hdelimited := (h a ha).1
    unfold Attribute.openCode at hmem
    split at hmem
    · exact hopen hdelimited hmem
    · cases hmem
  | expression e => exact hopen h hcode
  | _ => cases hcode

end Node

/-! ### The reports of a source -/

lemma silent_openCode {tag : StartTag} {ds : List Diagnostic}
    (h : Event.Sound source (.opening tag) ds) : Nesting.Silent Node.openCode tag := by
  intro siblings nodes endTag stop
  have holds := h.holdsNodes
  obtain ⟨_ | ⟨htag, -⟩, -, -⟩ := h
  exact htag.openCode_eq_nil (by simp [holds.1])

lemma parse_isReread_iff {p : Parsed} (h : parse source = .ok p) (code : Enclosed) :
    code.isReread source p.document.nodes = false ↔
      ∀ n ∈ Event.streamLeaves (bodyStart source), code.follows source n = false := by
  let f : Node → List Unit := fun n => if code.follows source n then [()] else []
  have hsilent {tag : StartTag} {ds : List Diagnostic}
      (h : Event.Sound source (.opening tag) ds) : Nesting.Silent f tag := by
    intro siblings nodes endTag stop
    simp [f, Level.element, Enclosed.follows, Element.isCutOff, h.holdsNodes.1]
  have hnil (nodes : List Node) :
      (∀ n ∈ nodes, code.follows source n = false) ↔ nodes.flatMap f = [] := by
    simp [f, List.flatMap_eq_nil_iff]
  have hperm := (parse_gathers hsilent h).1
  have hany : code.isReread source p.document.nodes = false ↔
      ∀ n ∈ Node.descendants p.document.nodes, code.follows source n = false := by
    simp [Enclosed.isReread, List.any_eq_false]
  rw [hany, hnil, hnil]
  constructor
  · exact fun hn => (hperm.symm.trans (.of_eq hn)).eq_nil
  · exact fun hn => (hperm.trans (.of_eq hn)).eq_nil

lemma parse_openCodeReported {p : Parsed} (h : parse source = .ok p) :
    p.OpenCodeReported source := by
  obtain ⟨hperm, hreports⟩ := parse_gathers silent_openCode h
  have hwithin : ∀ e ∈ openCode p.document.nodes,
      e.closed = false ∧ e.Within source '\x7b' '\x7d' := by
    intro e he
    obtain ⟨n, hn, hmem⟩ := List.mem_flatMap.mp he
    exact (parse_delimited h n hn).openCode hmem
  have hinside : (bodyStart source).In source := (Frontmatter.read_readFrom source).inside
  cases Event.stream_settled hinside with
  | closed code_eq reports_eq =>
    have hcode : openCode p.document.nodes = [] := (hperm.trans (.of_eq code_eq)).eq_nil
    exact ⟨by simp [hcode], hwithin, by rw [hreports, hcode]; exact reports_eq⟩
  | once code code_eq reports_eq passed =>
    have hcode : openCode p.document.nodes = [code] :=
      List.perm_singleton.mp (hperm.trans (.of_eq code_eq))
    have hreread : code.isReread source p.document.nodes = false := by
      refine (parse_isReread_iff h code).mpr fun n hn => ?_
      exact (passed n hn).not_follows (hwithin code (by simp [hcode])).2
    refine ⟨by simp [hcode], hwithin, ?_⟩
    rw [hreports, hcode]
    simpa [hreread] using reports_eq
  | twice code code_eq reports_eq cutBy =>
    have hcode : openCode p.document.nodes = [code] :=
      List.perm_singleton.mp (hperm.trans (.of_eq code_eq))
    have hreread : code.isReread source p.document.nodes = true := by
      obtain ⟨n, hn, hcut⟩ := cutBy
      by_contra hnot
      have := (parse_isReread_iff h code).mp (by simpa using hnot) n hn
      cases this.symm.trans hcut.follows
    refine ⟨by simp [hcode], hwithin, ?_⟩
    rw [hreports, hcode]
    simpa [hreread] using reports_eq

lemma Parsed.OpenCodeReported.reportsOnce_iff {p : Parsed} (h : p.OpenCodeReported source) :
    p.ReportsOnce ↔
      ∀ e ∈ openCode p.document.nodes, e.isReread source p.document.nodes = false := by
  have hreports := h.reports
  cases hcode : openCode p.document.nodes with
  | nil =>
    rw [hcode] at hreports
    exact iff_of_true ⟨by simp [hreports], by rw [hreports, hcode]; rfl⟩ (by simp)
  | cons e rest =>
    have hrest : rest = [] := by simpa [hcode] using h.atMostOne
    subst hrest
    rw [hcode] at hreports
    cases hreread : e.isReread source p.document.nodes with
    | false =>
      refine iff_of_true ⟨?_, ?_⟩ (by simp [hreread])
      · simp [hreports, hreread]
      · simp [hreports, hreread, hcode]
    | true =>
      refine iff_of_false (fun honce => ?_) (by simp [hreread])
      have := honce.distinct
      simp [hreports, hreread] at this

/-- **Code that is never closed is reported** from its brace to the end of the source, twice if the
brace has cut off a start tag and once if not. -/
theorem openCode_reported (h : source.size ≤ Offset.limit) :
    ∃ p, parse source = .ok p ∧ p.OpenCodeReported source ∧
      (p.ReportsOnce ↔
        ∀ e ∈ openCode p.document.nodes, e.isReread source p.document.nodes = false) := by
  obtain ⟨p, hp⟩ := exists_parse_eq_ok h
  have hreported := parse_openCodeReported hp
  exact ⟨p, hp, hreported, hreported.reportsOnce_iff⟩

/-- One start tag is cut off by another, which a brace cuts off behind a line break and stray
punctuation. -/
def cutOffTwice : Text := "<i \x7bé\x7d <p q\n=?\x7bé".toList

theorem openCode_reported_cutOffTwice :
    cutOffTwice.size ≤ Offset.limit ∧ ∃ p, parse cutOffTwice = .ok p ∧
      openCode p.document.nodes = [⟨⟨15, 18⟩, ['é'], false⟩] ∧
      codeReports p.diagnostics =
        [⟨.unclosedExpression, ⟨15, 18⟩⟩, ⟨.unclosedExpression, ⟨15, 18⟩⟩] ∧ ¬ p.ReportsOnce := by
  refine ⟨by decide, ?_⟩
  obtain ⟨p, hp, hreported, honce⟩ := @openCode_reported cutOffTwice (by decide)
  let code : Enclosed := ⟨⟨15, 18⟩, ['é'], false⟩
  have hboth : (parse cutOffTwice).toOption.map (fun p => (openCode p.document.nodes,
      code.isReread cutOffTwice p.document.nodes)) = some ([code], true) := by decide +kernel
  rw [hp] at hboth
  obtain ⟨hcode, hreread⟩ : openCode p.document.nodes = [code] ∧
      code.isReread cutOffTwice p.document.nodes = true := Prod.mk.inj (Option.some.inj hboth)
  refine ⟨p, hp, hcode, ?_, ?_⟩
  · rw [hreported.reports, hcode]
    simp [hreread, code, Enclosed.report]
  · rw [honce, hcode]
    simp [hreread]

/-- **A brace that cuts off a start tag is reported twice.** -/
theorem openCode_reported_twice :
    ¬ ∀ (source : Text) (p : Parsed), parse source = .ok p → p.ReportsOnce := by
  intro h
  obtain ⟨p, hp⟩ : ∃ p, parse "<p \x7ba".toList = .ok p := exists_parse_eq_ok (by decide)
  have hspans : (parse "<p \x7ba".toList).toOption.map
      (fun p => (codeReports p.diagnostics).map Diagnostic.span) = some [⟨3, 5⟩, ⟨3, 5⟩] := by
    decide +kernel
  rw [hp] at hspans
  have hreports : (codeReports p.diagnostics).map Diagnostic.span = [⟨3, 5⟩, ⟨3, 5⟩] :=
    Option.some.inj hspans
  have hdistinct := (h _ p hp).distinct
  simp [hreports] at hdistinct

end TsxLowering.Markup
