import TsxLowering.Proofs.Emission.Passthrough
import TsxLowering.Proofs.RoundTrip.Document

/-!
Components with text between their tags.

Such a component is read as one element with the text inside, and stands in the code as it is in
the source, unless it has the name of a void or of a raw text element. Upper and lower case are the
same in these names, so that a component may have one: `Link` has no content, and that of `Style` is
not markup.
-/

namespace TsxLowering

open Markup (Document Element Node Parsed StartTag)

variable {name text tail : Text}

/-! ### Text between two tags -/

namespace Markup

/-- A capital letter, and letters and digits. -/
def isComponentName : Text → Bool
  | [] => false
  | x :: s => x.isUpper && s.all Char.isAlphanum

/-- Text between the tags of an element. -/
def tagged (name text : Text) : Text :=
  '<' :: (name ++ '>' :: (text ++ '<' :: '/' :: (name ++ ['>'])))

/-- The nodes of a text that has no markup in it. -/
def textNodes (start : Nat) (text : Text) : List Node :=
  if text = [] then [] else [.text ⟨⟨start, start + text.size⟩, text⟩]

/-- The start tag at the start of a source, without attributes. -/
def bareTag (name : Text) : StartTag :=
  ⟨⟨0, name.size + 2⟩, ⟨⟨1, name.size + 1⟩, name⟩, [], .closed⟩

/-- The element with its two tags, all of the source. -/
def taggedElement (name text : Text) : Element :=
  ⟨⟨0, (tagged name text).size⟩, bareTag name, none,
    some ⟨name.size + 2 + text.size, (tagged name text).size⟩⟩

def taggedDocument (name text : Text) : Document :=
  ⟨⟨0, (tagged name text).size⟩, none, ⟨0, (tagged name text).size⟩,
    [.element (taggedElement name text) (textNodes (name.size + 2) text)]⟩

lemma isTagName_of_isComponentName (h : isComponentName name = true)
    (hvoid : isVoidName name = false) (hraw : isRawTextName name = false) : IsTagName name := by
  cases name with
  | nil => cases h
  | cons x s =>
    rw [isComponentName, Bool.and_eq_true, List.all_eq_true] at h
    obtain ⟨hx, hs⟩ := h
    have hletter : x.isAlpha = true := Bool.or_eq_true_iff.mpr (.inl hx)
    refine ⟨⟨x, rfl, hletter⟩, List.forall_mem_cons.mpr ⟨?_, fun y hy => ?_⟩, hvoid, hraw⟩
    · exact isNameChar_of_isAlphanum (by simp [Char.isAlphanum, hletter])
    · exact isNameChar_of_isAlphanum (hs y hy)

lemma Nesting.after_text (n : Nesting) (pos : Nat) (hmarkup : '<' ∉ text) (hcode : '\x7b' ∉ text)
    (htail : Event.textRun tail = []) :
    n.after ⟨pos, text ++ tail⟩ =
      (n.append (textNodes pos text)).after ⟨pos + text.size, tail⟩ := by
  by_cases hne : text = []
  · subst hne
    rfl
  · have hread := Event.read_text (c := ⟨pos, text ++ tail⟩) rfl hne hmarkup hcode htail
    rw [after_eq n (by simp [hne]), hread, textNodes, if_neg hne]
    simp only [Cursor.advance_eq_of_rest (c := ⟨pos, text ++ tail⟩) rfl, Cursor.excerpt,
      Cursor.spanTo, List.take_left]
    rfl

lemma Event.read_bareTag (hname : IsTagName name) (tail : Text) :
    Event.read (.ofText ('<' :: (name ++ '>' :: tail))) =
      ⟨.opening (bareTag name), [], ⟨name.size + 2, tail⟩⟩ := by
  have hstart : StartTag.read (.ofText ('<' :: (name ++ '>' :: tail))) =
      ⟨bareTag name, [], ⟨name.size + 2, tail⟩⟩ := by
    rw [StartTag.read_name hname.isName rfl]
    simp only [Cursor.ofText, Nat.zero_add, bareTag]
  rw [Event.read_tag (hname.startsTagName_append _) rfl]
  simp [Event.readElement, hstart, bareTag, StartTag.isVoid, StartTag.isRawText, hname.not_void,
    hname.not_rawText]

lemma size_tagged (name text : Text) :
    (tagged name text).size = name.size + 2 + text.size + (name.size + 3) := by
  have hless : '<'.utf8Size = 1 := rfl
  have hmore : '>'.utf8Size = 1 := rfl
  have hslash : '/'.utf8Size = 1 := rfl
  simp only [tagged, Text.size_cons, Text.size_append, Text.size_nil, hless, hmore, hslash]
  omega

lemma Nesting.after_tagged (n : Nesting) (hname : IsTagName name) (hmarkup : '<' ∉ text)
    (hcode : '\x7b' ∉ text) :
    n.after (.ofText (tagged name text)) = n.append (taggedDocument name text).nodes := by
  have hopen : Event.read (.ofText (tagged name text)) = _ := Event.read_bareTag hname _
  have hclose := Event.read_closing
    (c := ⟨name.size + 2 + text.size, '<' :: '/' :: (name ++ '>' :: [])⟩) hname rfl
  rw [after_eq n (List.cons_ne_nil _ _), hopen,
    after_text _ _ hmarkup hcode (Event.textRun_closing hname _),
    after_eq _ (List.cons_ne_nil _ _), hclose, addReading_closing n _ _ _ rfl,
    after_of_rest_nil _ rfl, taggedDocument, taggedElement, size_tagged, bareTag]

/-- **Text between two tags** is read as one element. -/
theorem parse_tagged (hname : IsTagName name) (hmarkup : '<' ∉ text) (hcode : '\x7b' ∉ text)
    (hsize : (tagged name text).size ≤ Offset.limit) :
    parse (tagged name text) = .ok ⟨taggedDocument name text, []⟩ := by
  have hscript : Frontmatter.read (tagged name text) = ⟨none, [], .ofText (tagged name text)⟩ :=
    Frontmatter.read_of_tag _
  have htree : Nesting.ofEvents (Event.stream (.ofText (tagged name text)))
      (tagged name text).size = ⟨(taggedDocument name text).nodes.reverse, [], []⟩ := by
    have hafter := Nesting.after_tagged .empty hname hmarkup hcode
    rw [Nesting.after] at hafter
    simp only [Nesting.ofEvents, hafter]
    simp [Nesting.append, Nesting.empty, Nesting.closeAll]
  rw [parse, if_pos hsize]
  simp only [hscript, htree, List.reverse_reverse]
  rfl

end Markup

/-! ### The code of a component -/

open Markup (bareTag isRawTextName isVoidName tagged taggedDocument taggedElement textNodes)

/-- The code of markup that stays as it is. -/
def wrapped (options : Options) (markup : Text) : Text :=
  "<Fragment>\n".toList ++ markup ++ "\n</Fragment>\n".toList ++
    Component.exportDeclaration (options.filename.elim [] Component.name)

lemma exists_prefix_wrapped (options : Options) :
    ∃ before, ∀ {s markup : Text}, s <+: markup → before ++ s <+: wrapped options markup :=
  ⟨_, fun h => ((List.prefix_append_right_inj _).mpr h).trans
    ((List.prefix_append _ _).trans (List.prefix_append _ _))⟩

lemma size_le_wrapped (options : Options) (markup : Text) :
    markup.size ≤ (wrapped options markup).size := by
  obtain ⟨before, hwrapped⟩ := exists_prefix_wrapped options
  obtain ⟨after, hafter⟩ := hwrapped (List.prefix_rfl (l := markup))
  rw [← hafter, Text.size_append, Text.size_append]
  omega

lemma leadingBlank_taggedDocument :
    Emission.leadingBlank (taggedDocument name text).nodes = [] := by
  simp [Emission.leadingBlank, taggedDocument, Emission.isBlankNode]

lemma wrapperStart_taggedDocument : Emission.wrapperStart (taggedDocument name text) = 0 := by
  rw [Emission.wrapperStart, leadingBlank_taggedDocument]
  rfl

lemma componentCode_taggedDocument (source : Text) (options : Options) :
    componentCode source options (taggedDocument name text) =
      wrapped options
        (generatedCode source (Emission.bodyPieces source (taggedDocument name text))) := by
  have hscript : generatedCode source (Emission.scriptPieces (taggedDocument name text)) = [] := by
    have hnone : (taggedDocument name text).frontmatter = none := rfl
    have hstart : (taggedDocument name text).bodySpan.start = 0 := rfl
    rw [Emission.scriptPieces, wrapperStart_taggedDocument, hnone, hstart]
    simp [Piece.text, Span.slice_empty]
  have hcode := Emission.generatedCode_documentPieces source
    (options.filename.elim [] Component.name) (taggedDocument name text)
  rw [hscript] at hcode
  exact hcode

lemma isPlain_taggedDocument (hvoid : isVoidName name = false) :
    ∀ n ∈ Node.descendants (taggedDocument name text).nodes, n.isPlain = true := by
  simp only [taggedDocument, Node.descendants_element, Node.descendants_nil, List.append_nil,
    List.forall_mem_cons]
  constructor
  · simp [Node.isPlain, taggedElement, bareTag, Element.closesAsJsx, StartTag.isVoid, hvoid]
  · unfold textNodes
    split
    · simp
    · exact List.forall_mem_singleton.mpr rfl

lemma generatedCode_tagged (hvoid : isVoidName name = false)
    (hparse : Markup.parse (tagged name text) = .ok ⟨taggedDocument name text, []⟩) :
    generatedCode (tagged name text)
      (Emission.bodyPieces (tagged name text) (taggedDocument name text)) = tagged name text := by
  have hfaithful := Markup.parse_faithful hparse
  have hbody := Emission.restores_piecewise.body hfaithful fun n hn =>
    Emission.meets_restores (hfaithful.body.placed n hn) (isPlain_taggedDocument hvoid n hn)
  have hwhole : (tagged name text).slice? 0 (tagged name text).size = some (tagged name text) :=
    Text.slice?_eq_some_iff.mpr ⟨[], [], by simp, rfl, by simp⟩
  rw [Emission.Restores, wrapperStart_taggedDocument] at hbody
  rw [hbody]
  exact congrArg (·.getD []) hwhole

lemma generatedCode_void (text : Text) (hvoid : isVoidName name = true) :
    '<' :: name ++ ['/'] <+: generatedCode (tagged name text)
      (Emission.bodyPieces (tagged name text) (taggedDocument name text)) := by
  have hpieces : Emission.startTagPieces (bareTag name) = [.copied ⟨0, name.size + 1⟩,
      .clipped ⟨name.size + 1, name.size + 2⟩, .synthetic "/>".toList] := by
    have htail : ((bareTag name).isVoid && (bareTag name).ending != .selfClosing) = true := by
      simp [bareTag, StartTag.isVoid, hvoid]
    rw [Emission.startTagPieces, htail]
    rfl
  have hname : (tagged name text).slice? 0 (name.size + 1) = some ('<' :: name) :=
    Text.slice?_eq_some_iff.mpr ⟨[], _, rfl, rfl, by simp [Nat.add_comm]; rfl⟩
  have hopen : Span.slice ⟨0, name.size + 1⟩ (tagged name text) = '<' :: name :=
    congrArg (·.getD []) hname
  have hcode : generatedCode (tagged name text) (Emission.startTagPieces (bareTag name)) =
      '<' :: name ++ ['/', '>'] := by
    rw [hpieces]
    simp [Piece.text, hopen, Span.slice_empty]
  have hnode : Emission.nodePieces (tagged name text)
      (.element (taggedElement name text) (textNodes (name.size + 2) text)) =
        Emission.startTagPieces (bareTag name) :=
    Emission.nodePieces_childless StartTag.Ending.noConfusion (.inr hvoid)
  -- nothing stands before the element, so its tag comes first in the code
  rw [Emission.bodyPieces, wrapperStart_taggedDocument, leadingBlank_taggedDocument,
    List.length_nil, List.drop_zero, taggedDocument, Emission.nodeListPieces_cons (Nat.zero_le _),
    hnode, generatedCode_append, generatedCode_append, hcode]
  simp [Node.span, taggedElement, Emission.gap_self]

section kept

variable {options : Options} {converted : Converted}
  (hparse : Markup.parse (tagged name text) = .ok ⟨taggedDocument name text, []⟩)
  (hconvert : convert (tagged name text) options = .ok converted)
  (hkept : wrapped options (tagged name text) <+: converted.code)

include hparse hconvert hkept

lemma not_void_of_kept : isVoidName name = false := by
  by_contra hvoid
  obtain ⟨before, hwrapped⟩ := exists_prefix_wrapped options
  have hslash : before ++ ('<' :: name ++ ['/']) <+: converted.code := by
    refine .trans (hwrapped (generatedCode_void text (Bool.not_eq_false _ ▸ hvoid))) ?_
    rw [← componentCode_taggedDocument]
    exact code_of_convert hparse hconvert
  have hmore : before ++ ('<' :: name ++ ['>']) <+: converted.code :=
    .trans (hwrapped ⟨_, by simp [tagged]; rfl⟩) hkept
  have hsame := List.prefix_of_prefix_length_le hmore hslash (by simp)
  simp at hsame

/-- The name of a raw text element changes what is read, that of a void one also what is
written. -/
lemma not_special_of_kept : isVoidName name = false ∧ isRawTextName name = false := by
  have hvoid := not_void_of_kept hparse hconvert hkept
  have hnodes : ∃ e children, (taggedDocument name text).nodes = [.element e children] ∧
      e.startTag.name.text = name ∧ e.startTag.ending = .closed ∧ e.rawText = none :=
    ⟨_, _, rfl, rfl, rfl, rfl⟩
  obtain ⟨e, children, hnodes, rfl, hending, hraw⟩ := hnodes
  have hplaced := (Markup.parse_faithful hparse).body.placed (.element e children)
    (by rw [hnodes]; simp)
  refine ⟨hvoid, ?_⟩
  -- an element that was read with nodes inside is no raw text element
  rcases hplaced with hleaf | ⟨-, hholds, -, -⟩
  · cases hleaf with
    | unclosed _ ending => cases hending.symm.trans ending
    | childless _ _ kind =>
      rcases kind with kind | kind
      · cases hending.symm.trans kind
      · cases hvoid.symm.trans kind
    | rawText _ _ _ _ rawText => cases hraw.symm.trans rawText
  · exact hholds.2.2

end kept

lemma convert_tagged (hvoid : isVoidName name = false)
    (hparse : Markup.parse (tagged name text) = .ok ⟨taggedDocument name text, []⟩)
    {options : Options} (hsize : (wrapped options (tagged name text)).size ≤ Offset.limit) :
    ∃ comment map, convert (tagged name text) options =
        .ok ⟨wrapped options (tagged name text) ++ comment, map⟩ ∧
      (options.mapMode.embedsMap = false → comment = []) := by
  have hcode : componentCode (tagged name text) options (taggedDocument name text) =
      wrapped options (tagged name text) := by
    rw [componentCode_taggedDocument, generatedCode_tagged hvoid hparse]
  obtain ⟨segments, -, hconvert⟩ := convert_eq hparse (hcode.symm ▸ hsize)
  rw [delivered, hcode] at hconvert
  exact ⟨_, _, hconvert, fun h => by rw [h]; rfl⟩

/-- **A component keeps its text** where it is, unless it has the name of a void or of a raw text
element, in upper or lower case. -/
theorem component_kept (hname : Markup.isComponentName name = true) (hmarkup : '<' ∉ text)
    (hcode : '\x7b' ∉ text) :
    (isVoidName name = false ∧ isRawTextName name = false →
      ((tagged name text).size ≤ Offset.limit →
        Markup.parse (tagged name text) = .ok ⟨taggedDocument name text, []⟩) ∧
      ∀ options, (wrapped options (tagged name text)).size ≤ Offset.limit →
        ∃ comment map, convert (tagged name text) options =
            .ok ⟨wrapped options (tagged name text) ++ comment, map⟩ ∧
          (options.mapMode.embedsMap = false → comment = [])) ∧
    (isVoidName name = true ∨ isRawTextName name = true → ∀ options comment map,
      Markup.parse (tagged name text) = .ok ⟨taggedDocument name text, []⟩ →
        convert (tagged name text) options ≠
          .ok ⟨wrapped options (tagged name text) ++ comment, map⟩) := by
  refine ⟨fun ⟨hvoid, hraw⟩ => ?_, fun hspecial options comment map hparse hconvert => ?_⟩
  · have htag := Markup.isTagName_of_isComponentName hname hvoid hraw
    have hparse := Markup.parse_tagged htag hmarkup hcode
    refine ⟨hparse, fun options hsize => convert_tagged hvoid (hparse ?_) hsize⟩
    exact Nat.le_trans (size_le_wrapped options _) hsize
  · obtain ⟨hvoid, hraw⟩ := not_special_of_kept hparse hconvert (List.prefix_append _ _)
    simp [hvoid, hraw] at hspecial

theorem component_kept_linked :
    ∃ name text, Markup.isComponentName name = true ∧ isVoidName name = false ∧
      isRawTextName name = false ∧ tagged name text = "<Links2>é\x7d\n/></Links2>".toList ∧
      Markup.parse (tagged name text) = .ok ⟨taggedDocument name text, []⟩ ∧
      ∃ comment map, convert (tagged name text) ⟨none, .omitted⟩ =
          .ok ⟨wrapped ⟨none, .omitted⟩ (tagged name text) ++ comment, map⟩ ∧
        (MapMode.omitted.embedsMap = false → comment = []) := by
  -- a longer name than that of a void element, and text that closes nothing
  let name : Text := ['L', 'i', 'n', 'k', 's', '2']
  let text : Text := ['é', '\x7d', '\n', '/', '>']
  have hname : Markup.isComponentName name = true := by decide
  have hvoid : isVoidName name = false := by decide
  have hraw : isRawTextName name = false := by decide
  have hmarkup : '<' ∉ text := by decide
  have hcode : '\x7b' ∉ text := by decide
  obtain ⟨hparse, hconvert⟩ := (component_kept hname hmarkup hcode).1 ⟨hvoid, hraw⟩
  exact ⟨name, text, hname, hvoid, hraw, by decide, hparse (by decide +kernel),
    hconvert ⟨none, .omitted⟩ (by decide +kernel)⟩

/-- A component with the name of a void element loses its text, and its closing tag closes
nothing. -/
theorem component_link_emptied :
    Markup.isComponentName "Link".toList = true ∧
      Markup.parse (tagged "Link".toList "a".toList) ≠
        .ok ⟨taggedDocument "Link".toList "a".toList, []⟩ ∧
      convert (tagged "Link".toList "a".toList) ⟨none, .omitted⟩ =
        .ok ⟨wrapped ⟨none, .omitted⟩ "<Link/>a</Link>".toList, none⟩ := by
  decide +kernel

end TsxLowering
