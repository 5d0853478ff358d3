import TsxLowering.Proofs.Emission.Passthrough
import TsxLowering.Proofs.Faithful.Reports

/-!
The source before the wrapper.

The blank texts at the start of the markup are counted, and the source up to the end of the last
of them is copied in one piece. Between two texts nothing can stand but closing tags that close
nothing, since these leave no node behind. Main statement: the copy is blank exactly if there is no
such tag in it, and all of it that is not blank belongs to such tags.
-/

namespace TsxLowering

open Markup (Document Node Parsed Tiling strays)

variable {source : Text}

/-! ### Closing tags that close nothing -/

namespace Markup

lemma closingName?_of_strays {p : Parsed} (h : parse source = .ok p) :
    ∀ s ∈ strays p.diagnostics, (closingName? source s).isSome = true :=
  parse_forall_strays (Q := fun _ => True) (fun _ _ => trivial)
    (fun he => by rw [he.1.closing_name]; rfl) h

lemma isBlank_of_closingName? {s : Span} (h : (closingName? source s).isSome = true) :
    (s.slice source).isBlank = false := by
  unfold closingName? at h
  split at h
  · next hslice =>
    rw [hslice]
    rfl
  · cases h

end Markup

/-! ### Blank nodes -/

lemma Text.isBlank_append (s t : Text) : (s ++ t).isBlank = (s.isBlank && t.isBlank) :=
  List.all_append

lemma Text.append_eq_append_cons {s t before after : Text} {c : Char}
    (h : s ++ t = before ++ c :: after) :
    (∃ u, s = before ++ c :: u) ∨ ∃ u, before = s ++ u ∧ t = u ++ c :: after := by
  rcases List.append_eq_append_iff.mp h with ⟨u, hbefore, ht⟩ | ⟨u, hs, hrest⟩
  · exact .inr ⟨u, hbefore, ht⟩
  · cases u with
    | nil => exact .inr ⟨[], by simpa using hs.symm, hrest.symm⟩
    | cons d u =>
      obtain ⟨rfl, -⟩ := List.cons.inj hrest
      exact .inl ⟨u, hs⟩

lemma Span.Fits.start_add_size_slice {s : Span} (h : s.Fits source) :
    s.start + (s.slice source).size = s.stop := by
  rw [h.size_slice, Nat.add_sub_of_le h.start_le]

namespace Emission

lemma slice_of_blank {n : Node} (h : n.Leaf source) (hblank : isBlankNode n = true) :
    (n.span.slice source).isBlank = true := by
  cases h with
  | text h => exact h.slice_eq.symm ▸ hblank
  | _ => cases hblank

variable {a b : Nat} {nodes : List Node} {spans : List Span}

lemma leaf_of_blank (h : Tiling source a nodes spans b)
    (hblank : ∀ n ∈ nodes, isBlankNode n = true) : ∀ n ∈ nodes, n.Leaf source := by
  intro n hn
  rcases h.placed n (by rwa [descendants_of_blank hblank]) with hleaf | _
  · exact hleaf
  · cases hblank _ hn

lemma slice_of_rest {s : Span} (fits : s.Fits source) (rest : Tiling source s.stop nodes spans b) :
    Span.slice ⟨s.start, b⟩ source = s.slice source ++ Span.slice ⟨s.stop, b⟩ source :=
  have hstop := fits.stop_boundary
  (Span.slice_append_slice fits.start_boundary hstop (rest.boundary hstop) fits.start_le
    rest.le).symm

lemma isBlank_slice_iff (h : Tiling source a nodes spans b)
    (hblank : ∀ n ∈ nodes, isBlankNode n = true)
    (hspans : ∀ s ∈ spans, (s.slice source).isBlank = false) :
    (Span.slice ⟨a, b⟩ source).isBlank = true ↔ spans = [] := by
  induction h with
  | nil a => simp [Span.slice_empty, Text.isBlank]
  | stray fits lt rest ih =>
    rw [slice_of_rest fits rest, Text.isBlank_append, (List.forall_mem_cons.mp hspans).1]
    simp
  | leaf hn lt rest ih =>
    obtain ⟨hfirst, hrest⟩ := List.forall_mem_cons.mp hblank
    rw [slice_of_rest hn.fits rest, Text.isBlank_append, slice_of_blank hn hfirst, Bool.true_and]
    exact ih hrest hspans
  | element => cases (List.forall_mem_cons.mp hblank).1

lemma exists_stray_of_not_blank (h : Tiling source a nodes spans b)
    (hblank : ∀ n ∈ nodes, isBlankNode n = true) {before after : Text} {c : Char}
    (hslice : Span.slice ⟨a, b⟩ source = before ++ c :: after) (hc : isBlank c = false) :
    ∃ s ∈ spans, s.contains (a + before.size) = true := by
  -- the character is in the first part of the tiling, or behind it
  induction h generalizing before with
  | nil a => simp [Span.slice_empty] at hslice
  | @stray s nodes spans b fits lt rest ih =>
    have hsize := fits.start_add_size_slice
    rw [slice_of_rest fits rest] at hslice
    rcases Text.append_eq_append_cons hslice with ⟨u, hin⟩ | ⟨u, rfl, hbehind⟩
    · refine ⟨s, by simp, Span.contains_iff.mpr ⟨by omega, ?_⟩⟩
      have := c.utf8Size_pos
      rw [hin, Text.size_append, Text.size_cons] at hsize
      omega
    · obtain ⟨s', hs', hcontains⟩ := ih hblank hbehind
      refine ⟨s', by simp [hs'], ?_⟩
      rwa [Text.size_append, ← Nat.add_assoc, hsize]
  | @leaf n nodes spans b hn lt rest ih =>
    obtain ⟨hfirst, hrest⟩ := List.forall_mem_cons.mp hblank
    rw [slice_of_rest hn.fits rest] at hslice
    rcases Text.append_eq_append_cons hslice with ⟨u, hin⟩ | ⟨u, rfl, hbehind⟩
    · have hall := slice_of_blank hn hfirst
      simp [hin, Text.isBlank, hc] at hall
    · obtain ⟨s', hs', hcontains⟩ := ih hrest hbehind
      refine ⟨s', hs', ?_⟩
      rwa [Text.size_append, ← Nat.add_assoc, hn.fits.start_add_size_slice]
  | element => cases (List.forall_mem_cons.mp hblank).1

/-! ### The lead of a document -/

/-- What there is to know about the source before the wrapper. It ends in a blank, and what is not
blank in it are closing tags that close nothing. -/
structure IsLead (source : Text) (p : Parsed) (lead : Text) : Prop where
  slice : source.slice? p.document.bodySpan.start (wrapperStart p.document) = some lead
  isBlank_iff : lead.isBlank = true ↔
    ∀ s ∈ strays p.diagnostics, wrapperStart p.document ≤ s.start
  not_blank : ∀ (before after : Text) (c : Char), lead = before ++ c :: after → isBlank c = false →
    ∃ s ∈ strays p.diagnostics, s.contains (p.document.bodySpan.start + before.size) = true
  last_blank : ∀ c, lead.getLast? = some c → isBlank c = true

lemma isBlank_of_getLast? {d : Document} (h : d.Faithful source spans) {c : Char}
    (hc : ((leadSpan d).slice source).getLast? = some c) : isBlank c = true := by
  obtain ⟨first, -, -, hfirst, -⟩ := tiling_wrapper h
  have hblank := isBlankNode_leadingBlank d.nodes
  have hleaf := leaf_of_blank hfirst hblank
  rw [leadSpan, wrapperStart] at hc
  rcases List.eq_nil_or_concat (leadingBlank d.nodes) with hnil | ⟨before, n, hconcat⟩
  · simp [hnil, Span.slice_empty] at hc
  have hn : n ∈ leadingBlank d.nodes := by simp [hconcat]
  obtain ⟨hle, hlt, -⟩ := hfirst.node_bounds n hn
  have hfits := (hleaf n hn).fits
  -- the lead ends with the last blank node, and that is not empty
  have hslice : Span.slice ⟨d.bodySpan.start, n.span.stop⟩ source =
      Span.slice ⟨d.bodySpan.start, n.span.start⟩ source ++ n.span.slice source :=
    (Span.slice_append_slice h.body_start hfits.start_boundary hfits.stop_boundary hle
      hfits.start_le).symm
  have hstop : ((leadingBlank d.nodes).getLast?.map (·.span.stop)).getD d.bodySpan.start =
      n.span.stop := by simp [hconcat]
  rw [hstop, hslice, List.getLast?_append] at hc
  cases hlast : (n.span.slice source).getLast? with
  | none =>
    have hsize := hfits.size_slice
    rw [List.getLast?_eq_none_iff.mp hlast, Text.size_nil] at hsize
    omega
  | some e =>
    obtain rfl : e = c := by simpa [hlast] using hc
    exact List.all_eq_true.mp (slice_of_blank (hleaf n hn) (hblank n hn)) _
      (List.mem_of_getLast? hlast)

lemma isLead_slice {p : Parsed} (h : Markup.parse source = .ok p) :
    IsLead source p ((leadSpan p.document).slice source) := by
  have hfaithful := Markup.parse_faithful h
  have hclosing := Markup.closingName?_of_strays h
  obtain ⟨first, rest, hspans, hfirst, hrest⟩ := tiling_wrapper hfaithful
  have hblank := isBlankNode_leadingBlank p.document.nodes
  rw [hspans] at hclosing
  refine ⟨(leadSpan_fits hfaithful).slice?_eq, ?_, fun before after c hlead hc => ?_,
    fun c => isBlank_of_getLast? hfaithful⟩
  · -- the stray closing tags before the wrapper are those that start before it
    have hfirst_iff : first = [] ↔ ∀ s ∈ first ++ rest, wrapperStart p.document ≤ s.start := by
      constructor
      · rintro rfl s hs
        exact (hrest.span_bounds s hs).1
      · intro hbehind
        refine List.eq_nil_iff_forall_not_mem.mpr fun s hs => ?_
        have := hfirst.span_bounds s hs
        have := hbehind s (List.mem_append_left _ hs)
        omega
    rw [hspans, ← hfirst_iff]
    exact isBlank_slice_iff hfirst hblank fun s hs =>
      Markup.isBlank_of_closingName? (hclosing s (List.mem_append_left _ hs))
  · obtain ⟨s, hs, hcontains⟩ := exists_stray_of_not_blank hfirst hblank hlead hc
    rw [hspans]
    exact ⟨s, List.mem_append_left _ hs, hcontains⟩

end Emission

/-! ### The code -/

lemma exists_convert_eq_ok {options : Options} {parsed : Parsed}
    (hparse : Markup.parse source = .ok parsed)
    (hsize : (componentCode source options parsed.document).size ≤ Offset.limit) :
    ∃ converted, convert source options = .ok converted := by
  obtain ⟨segments, -, hconvert⟩ := convert_eq hparse hsize
  exact ⟨_, hconvert⟩

lemma exists_parse_of_convert {options : Options} {converted : Converted}
    (h : convert source options = .ok converted) : ∃ parsed, Markup.parse source = .ok parsed := by
  unfold convert at h
  split at h
  · cases h
  · next parsed hparse => exact ⟨parsed, hparse⟩

/-- The script of a document, as it stands in the code. -/
def Markup.Document.script (d : Document) : Text := d.frontmatter.elim [] (·.content.text)

/-- What keeps the script of a document apart from the wrapper. -/
def Markup.Document.separator (d : Document) : Text :=
  if d.frontmatter.any fun f => Emission.needsSeparator f.content.text then "\"\";".toList else []

lemma code_layout {options : Options} {parsed : Parsed} {converted : Converted}
    (hparse : Markup.parse source = .ok parsed) (h : convert source options = .ok converted) :
    ∃ after, converted.code =
      parsed.document.script ++ (Emission.leadSpan parsed.document).slice source ++
        parsed.document.separator ++ "<Fragment>\n".toList ++
        generatedCode source (Emission.bodyPieces source parsed.document) ++
        "\n</Fragment>\n".toList ++ after := by
  obtain ⟨comment, hcomment⟩ := code_of_convert hparse h
  refine ⟨Component.exportDeclaration (options.filename.elim [] Component.name) ++ comment, ?_⟩
  rw [← hcomment, componentCode, componentPieces, Emission.generatedCode_documentPieces,
    Emission.generatedCode_scriptPieces (Markup.parse_faithful hparse)]
  simp only [Markup.Document.script, Markup.Document.separator, List.append_assoc]

/-- **The source before the wrapper** is blank, unless it holds closing tags that close nothing. -/
theorem convert_lead (source : Text) (options : Options) :
    (∀ parsed, Markup.parse source = .ok parsed →
      (componentCode source options parsed.document).size ≤ Offset.limit →
      ∃ converted, convert source options = .ok converted) ∧
    ∀ converted, convert source options = .ok converted →
      ∃ parsed lead after, Markup.parse source = .ok parsed ∧ Emission.IsLead source parsed lead ∧
        converted.code = parsed.document.script ++ lead ++ parsed.document.separator ++
          "<Fragment>\n".toList ++
          generatedCode source (Emission.bodyPieces source parsed.document) ++
          "\n</Fragment>\n".toList ++ after := by
  refine ⟨fun parsed => exists_convert_eq_ok, fun converted hconvert => ?_⟩
  obtain ⟨parsed, hparse⟩ := exists_parse_of_convert hconvert
  obtain ⟨after, hcode⟩ := code_layout hparse hconvert
  exact ⟨parsed, _, after, hparse, Emission.isLead_slice hparse, hcode⟩

/-- A script, blanks, and two closing tags that close nothing, in an element and behind it. -/
def trailing : Text := "---\nf\n---\n \n<p></b></p> </i>".toList

theorem convert_lead_trailing :
    ∃ parsed converted lead after, Markup.parse trailing = .ok parsed ∧
      (componentCode trailing ⟨none, .omitted⟩ parsed.document).size ≤ Offset.limit ∧
      convert trailing ⟨none, .omitted⟩ = .ok converted ∧
      strays parsed.diagnostics = [⟨15, 19⟩, ⟨24, 28⟩] ∧
      Emission.IsLead trailing parsed lead ∧ lead.isBlank = true ∧
      converted.code = "\nf\n".toList ++ lead ++ "\"\";".toList ++ "<Fragment>\n".toList ++
        "<p></b></p> </i>".toList ++ "\n</Fragment>\n".toList ++ after := by
  obtain ⟨parsed, hparse⟩ : ∃ parsed, Markup.parse trailing = .ok parsed :=
    Markup.exists_parse_eq_ok (by decide)
  have hplaces : (Markup.parse trailing).toOption.map (fun p => (strays p.diagnostics,
      Emission.wrapperStart p.document,
      (componentCode trailing ⟨none, .omitted⟩ p.document).size)) =
        some ([⟨15, 19⟩, ⟨24, 28⟩], 12, 126) := by decide +kernel
  have htexts : (Markup.parse trailing).toOption.map (fun p => (p.document.script,
      p.document.separator, generatedCode trailing (Emission.bodyPieces trailing p.document))) =
        some ("\nf\n".toList, "\"\";".toList, "<p></b></p> </i>".toList) := by decide +kernel
  rw [hparse] at hplaces htexts
  simp only [Except.toOption, Option.map_some, Option.some.injEq, Prod.mk.injEq] at hplaces htexts
  obtain ⟨hstrays, hstart, hsize⟩ := hplaces
  obtain ⟨hscript, hseparator, hbody⟩ := htexts
  have hlimit : (componentCode trailing ⟨none, .omitted⟩ parsed.document).size ≤ Offset.limit := by
    rw [hsize]
    decide
  obtain ⟨converted, hconvert⟩ := (convert_lead trailing ⟨none, .omitted⟩).1 parsed hparse hlimit
  obtain ⟨parsed', lead, after, hparse', hleads, hcode⟩ :=
    (convert_lead trailing ⟨none, .omitted⟩).2 converted hconvert
  obtain rfl : parsed = parsed' := Except.ok.inj (hparse.symm.trans hparse')
  rw [hscript, hseparator, hbody] at hcode
  refine ⟨parsed, converted, lead, after, hparse, hlimit, hconvert, hstrays, hleads, ?_, hcode⟩
  rw [hleads.isBlank_iff, hstrays, hstart]
  decide

/-- **A closing tag between blanks** is left outside of the wrapper. -/
theorem convert_strands_closing_tag :
    convert "\n</div>\n<p/>".toList ⟨none, .omitted⟩ =
        .ok ⟨"\n</div>\n".toList ++ "<Fragment>\n".toList ++ "<p/>".toList ++
          "\n</Fragment>\n".toList ++ Component.exportDeclaration [], none⟩ ∧
      Text.isBlank "\n</div>\n".toList = false := by
  decide +kernel

end TsxLowering
