import TsxLowering.Proofs.Faithful.Tree

/-!
What a tree is built from.

A closing tag may end many elements, and so may the end of the source. All of this is made of
six steps, each of which puts one node in its place or reports one closing tag. A property of
the tree or of what is reported about it holds as soon as each step keeps it.
-/

namespace TsxLowering.Markup

variable {source : Text}

namespace Nesting

/-- The constructions that can be reached with events of which `E` holds, each taken with what is
reported about it, in a source that ends at `stop`. -/
inductive Built (E : Event → List Diagnostic → Prop) (stop : Nat) : Nesting → Prop
  | empty : Built E stop .empty
  | leaf {n : Nesting} {node : Node} {ds : List Diagnostic} (h : Built E stop n)
      (event : E (.leaf node) ds) :
      Built E stop ⟨node :: n.nodes, n.levels, ds.reverse ++ n.diagnostics⟩
  | opening {n : Nesting} {tag : StartTag} {ds : List Diagnostic} (h : Built E stop n)
      (event : E (.opening tag) ds) :
      Built E stop ⟨[], ⟨tag, n.nodes⟩ :: n.levels, ds.reverse ++ n.diagnostics⟩
  | stray {n : Nesting} {tag : ClosingTag} (h : Built E stop n) (event : E (.closing tag) []) :
      Built E stop { n with diagnostics := ⟨.strayClosingTag tag.name, tag.span⟩ :: n.diagnostics }
  | closed {nodes : List Node} {level : Level} {levels : List Level} {ds : List Diagnostic}
      {tag : ClosingTag} (h : Built E stop ⟨nodes, level :: levels, ds⟩)
      (event : E (.closing tag) []) (name : level.tag.name.text = tag.name) :
      Built E stop
        ⟨level.element nodes (some tag.span) tag.span.stop :: level.siblings, levels, ds⟩
  | mismatched {nodes : List Node} {level : Level} {levels : List Level} {ds : List Diagnostic}
      {tag : ClosingTag} (h : Built E stop ⟨nodes, level :: levels, ds⟩)
      (event : E (.closing tag) []) (name : level.tag.name.text ≠ tag.name) :
      Built E stop ⟨level.element nodes none tag.span.start :: level.siblings, levels,
        ⟨.mismatchedClosingTag level.tag.name.text tag.name, tag.span⟩ :: ds⟩
  | unclosed {nodes : List Node} {level : Level} {levels : List Level} {ds : List Diagnostic}
      (h : Built E stop ⟨nodes, level :: levels, ds⟩) :
      Built E stop ⟨level.element nodes none stop :: level.siblings, levels,
        ⟨.unclosedTag level.tag.name.text, level.tag.span⟩ :: ds⟩

variable {E : Event → List Diagnostic → Prop} {stop : Nat}

lemma closeThrough_built {tag : ClosingTag} (htag : E (.closing tag) []) (nodes : List Node)
    (ds : List Diagnostic) (levels : List Level)
    (hopen : levels.any (·.tag.name.text == tag.name) = true)
    (h : Built E stop ⟨nodes, levels, ds⟩) : Built E stop (closeThrough tag nodes ds levels) := by
  induction levels generalizing nodes ds with
  | nil => cases hopen
  | cons level levels ih =>
    unfold closeThrough
    dsimp only
    split
    · next hname => exact .closed h htag hname
    · next hname => exact ih _ _ (by simpa [hname] using hopen) (.mismatched h htag hname)

/-- One event more is one step, or one for each element that it ends. -/
lemma addReading_built {n : Nesting} {r : Reading Event}
    (hquiet : ∀ {tag ds}, E (.closing tag) ds → ds = []) (hr : E r.value r.diagnostics)
    (h : Built E stop n) : Built E stop (n.addReading r) := by
  obtain ⟨e, ds, next⟩ := r
  cases e with
  | leaf node => exact .leaf h hr
  | opening tag => exact .opening h hr
  | closing tag =>
    obtain rfl : ds = [] := hquiet hr
    simp only [addReading, add, List.reverse_nil, List.nil_append]
    split
    · next hopen => exact closeThrough_built hr _ _ _ hopen h
    · exact .stray h hr

lemma closeAll_built (nodes : List Node) (ds : List Diagnostic) (levels : List Level)
    (h : Built E stop ⟨nodes, levels, ds⟩) :
    (closeAll stop nodes ds levels).levels = [] ∧ Built E stop (closeAll stop nodes ds levels) := by
  induction levels generalizing nodes ds with
  | nil => exact ⟨rfl, h⟩
  | cons level levels ih => exact ih _ _ (.unclosed h)

/-- **All steps of a construction** are among the six. -/
theorem ofEvents_built {events : List (Reading Event)}
    (hquiet : ∀ {tag ds}, E (.closing tag) ds → ds = [])
    (hevents : ∀ r ∈ events, E r.value r.diagnostics) :
    (ofEvents events stop).levels = [] ∧ Built E stop (ofEvents events stop) := by
  have hfold (n : Nesting) (h : Built E stop n) : Built E stop (events.foldl addReading n) := by
    induction events generalizing n with
    | nil => exact h
    | cons r events ih =>
      obtain ⟨hr, hevents⟩ := List.forall_mem_cons.mp hevents
      exact ih hevents _ (addReading_built hquiet hr h)
  exact closeAll_built _ _ _ (hfold _ .empty)

/-! ### What the steps keep -/

/-- The nodes that have their place, on all levels that are still open. -/
def placed (n : Nesting) : List Node := n.nodes ++ n.levels.flatMap Level.siblings

lemma placed_of_levels_nil {n : Nesting} (h : n.levels = []) : n.placed = n.nodes := by
  simp [placed, h]

lemma Built.levels_opened {n : Nesting} (h : Built E stop n) :
    ∀ l ∈ n.levels, ∃ ds, E (.opening l.tag) ds := by
  induction h with
  | empty => simp [Nesting.empty]
  | leaf _ _ ih => exact ih
  | opening _ event ih => exact List.forall_mem_cons.mpr ⟨⟨_, event⟩, ih⟩
  | stray _ _ ih => exact ih
  | closed _ _ _ ih => exact (List.forall_mem_cons.mp ih).2
  | mismatched _ _ _ ih => exact (List.forall_mem_cons.mp ih).2
  | unclosed _ ih => exact (List.forall_mem_cons.mp ih).2

lemma Built.level_opened {nodes : List Node} {level : Level} {levels : List Level}
    {ds : List Diagnostic} (h : Built E stop ⟨nodes, level :: levels, ds⟩) :
    ∃ ds, E (.opening level.tag) ds := h.levels_opened level (by simp)

/-- A property of nodes that all nodes have whose events are as they should be. -/
structure Yields (E : Event → List Diagnostic → Prop) (P : Node → Prop) : Prop where
  leaf : ∀ {node ds}, E (.leaf node) ds → ∀ m ∈ Node.descendants [node], P m
  unclosed : ∀ {level : Level} {nodes stop ds}, E (.opening level.tag) ds →
    P (level.element nodes none stop)
  closed : ∀ {level : Level} {nodes ds} {tag : ClosingTag}, E (.opening level.tag) ds →
    E (.closing tag) [] → level.tag.name.text = tag.name →
    P (level.element nodes (some tag.span) tag.span.stop)

end Nesting

namespace Node

lemma descendants_cons (n : Node) (nodes : List Node) :
    descendants (n :: nodes) = descendants [n] ++ descendants nodes := by
  rw [← descendants_append, List.singleton_append]

lemma descendants_reverse_perm (nodes : List Node) :
    (descendants nodes.reverse).Perm (descendants nodes) := by
  induction nodes with
  | nil => rfl
  | cons n nodes ih =>
    rw [List.reverse_cons, descendants_append, descendants_cons n nodes]
    exact (List.perm_append_comm).trans (ih.append_left _)

lemma descendants_leveled (l : Level) (nodes : List Node) (endTag : Option Span) (stop : Nat) :
    descendants [l.element nodes endTag stop] =
      l.element nodes endTag stop :: descendants nodes.reverse := by
  simp [Level.element]

end Node

namespace Nesting

variable {E : Event → List Diagnostic → Prop} {stop : Nat} {P : Node → Prop}

lemma descendants_placed_end (level : Level) (levels : List Level) (nodes : List Node)
    (endTag : Option Span) (pos : Nat) (ds ds' : List Diagnostic) :
    (Node.descendants
      (placed ⟨level.element nodes endTag pos :: level.siblings, levels, ds⟩)).Perm
      (level.element nodes endTag pos ::
        Node.descendants (placed ⟨nodes, level :: levels, ds'⟩)) := by
  simp only [placed, List.flatMap_cons, List.cons_append]
  rw [Node.descendants_cons, Node.descendants_leveled, Node.descendants_append nodes,
    List.cons_append]
  exact ((Node.descendants_reverse_perm nodes).append_right _).cons _

/-- **What each step keeps**, all nodes of a tree have. -/
theorem Built.forall_placed (hP : Yields E P) {n : Nesting} (h : Built E stop n) :
    ∀ m ∈ Node.descendants n.placed, P m := by
  induction h with
  | empty => simp [Nesting.empty, placed]
  | leaf _ event ih =>
    simp only [placed, List.cons_append]
    rw [Node.descendants_cons]
    exact List.forall_mem_append.mpr ⟨hP.leaf event, ih⟩
  | opening _ _ ih => exact ih
  | stray _ _ ih => exact ih
  | closed h event name ih =>
    -- an element that ends is new; all below it is placed already
    obtain ⟨ds, hopen⟩ := h.level_opened
    intro m hm
    rcases List.mem_cons.mp ((descendants_placed_end ..).mem_iff.mp hm) with rfl | hm
    · exact hP.closed hopen event name
    · exact ih m hm
  | mismatched h _ _ ih =>
    obtain ⟨ds, hopen⟩ := h.level_opened
    intro m hm
    rcases List.mem_cons.mp ((descendants_placed_end ..).mem_iff.mp hm) with rfl | hm
    · exact hP.unclosed hopen
    · exact ih m hm
  | unclosed h ih =>
    obtain ⟨ds, hopen⟩ := h.level_opened
    intro m hm
    rcases List.mem_cons.mp ((descendants_placed_end ..).mem_iff.mp hm) with rfl | hm
    · exact hP.unclosed hopen
    · exact ih m hm

/-- A property of reports that all reports have whose events are as they should be. -/
structure Warns (E : Event → List Diagnostic → Prop) (P : Diagnostic → Prop) : Prop where
  event : ∀ {e ds}, E e ds → ∀ d ∈ ds, P d
  stray : ∀ {tag : ClosingTag}, E (.closing tag) [] → P ⟨.strayClosingTag tag.name, tag.span⟩
  mismatched : ∀ {tag : ClosingTag} {expected : Text}, E (.closing tag) [] →
    P ⟨.mismatchedClosingTag expected tag.name, tag.span⟩
  unclosed : ∀ {tag : StartTag} {ds}, E (.opening tag) ds → P ⟨.unclosedTag tag.name.text, tag.span⟩

/-- **What each step keeps**, all reports have. -/
theorem Built.forall_diagnostics {P : Diagnostic → Prop} (hP : Warns E P) {n : Nesting}
    (h : Built E stop n) : ∀ d ∈ n.diagnostics, P d := by
  induction h with
  | empty => simp [Nesting.empty]
  | leaf _ event ih =>
    exact List.forall_mem_append.mpr ⟨fun d hd => hP.event event d (List.mem_reverse.mp hd), ih⟩
  | opening _ event ih =>
    exact List.forall_mem_append.mpr ⟨fun d hd => hP.event event d (List.mem_reverse.mp hd), ih⟩
  | stray _ event ih => exact List.forall_mem_cons.mpr ⟨hP.stray event, ih⟩
  | closed _ _ _ ih => exact ih
  | mismatched _ event _ ih => exact List.forall_mem_cons.mpr ⟨hP.mismatched event, ih⟩
  | unclosed h ih =>
    obtain ⟨ds, event⟩ := h.level_opened
    exact List.forall_mem_cons.mpr ⟨hP.unclosed event, ih⟩

end Nesting

/-! ### The events of a source -/

lemma Event.forall_stream {Q : Reading Event → Prop} {c : Cursor}
    (hQ : ∀ c : Cursor, c.In source → Q (Event.read c)) (hc : c.In source) :
    ∀ r ∈ Event.stream c, Q r := by
  fun_induction Event.stream c with
  | case1 => simp
  | case2 c hrest ih =>
    exact List.forall_mem_cons.mpr ⟨hQ c hc, ih (hc.reaches (Event.read_readAt hc).reaches)⟩

/-- **The tree of a source is built** from events as they are read in it. -/
theorem parse_built {E : Event → List Diagnostic → Prop} {p : Parsed}
    (hquiet : ∀ {tag ds}, E (.closing tag) ds → ds = [])
    (hread : ∀ c : Cursor, c.In source → E (Event.read c).value (Event.read c).diagnostics)
    (h : parse source = .ok p) :
    ∃ n : Nesting, n.levels = [] ∧ n.Built E source.size ∧ p.document.nodes = n.nodes.reverse ∧
      p.diagnostics = (Frontmatter.read source).diagnostics ++ n.diagnostics.reverse := by
  have hinside := (Frontmatter.read_readFrom source).inside
  have hevents := Event.forall_stream (Q := fun r => E r.value r.diagnostics) hread hinside
  have hbuilt := @Nesting.ofEvents_built E source.size _ hquiet hevents
  simp only [parse, parse_eq_ok h, if_true] at h
  cases h
  exact ⟨_, hbuilt.1, hbuilt.2, rfl, rfl⟩

lemma parse_forall_nodes {E : Event → List Diagnostic → Prop} {P : Node → Prop} {p : Parsed}
    (hquiet : ∀ {tag ds}, E (.closing tag) ds → ds = [])
    (hread : ∀ c : Cursor, c.In source → E (Event.read c).value (Event.read c).diagnostics)
    (hP : Nesting.Yields E P) (h : parse source = .ok p) :
    ∀ n ∈ Node.descendants p.document.nodes, P n := by
  obtain ⟨n, hlevels, hbuilt, hnodes, -⟩ := parse_built hquiet hread h
  intro m hm
  rw [hnodes] at hm
  refine hbuilt.forall_placed hP m ?_
  rw [Nesting.placed_of_levels_nil hlevels]
  exact (Node.descendants_reverse_perm _).mem_iff.mp hm

end TsxLowering.Markup
