import Mathlib.Algebra.GroupWithZero.Nat
import Mathlib.Data.List.Induction
import TsxLowering.LineIndex
import TsxLowering.Proofs.Lookup

/-!
The position of an offset, read off the text before it.

A line feed starts a new line and every other character takes up columns, as many as it has
bytes or UTF-16 units. Walking through the text in this way gives the position that is found by
searching for the line. Main statements: `unitPosition?_append`, `position?_append` and, for the
line starts in a part of the text, `mem_startsBetween`.
-/

namespace TsxLowering

/-! ### Walking through a text -/

namespace Position

/-- The position behind one more character. -/
def step (width : Char → Nat) (p : Position) (c : Char) : Position :=
  if c = '\n' then ⟨p.line + 1, 0⟩ else ⟨p.line, p.column + width c⟩

/-- The position behind a text that starts at `p`. -/
def walk (width : Char → Nat) (p : Position) (s : Text) : Position := s.foldl (step width) p

/-- Positions in the order in which a text runs through them. -/
instance : LT Position := ⟨fun p q => p.line < q.line ∨ p.line = q.line ∧ p.column < q.column⟩

instance (p q : Position) : Decidable (p < q) := inferInstanceAs (Decidable (_ ∨ _ ∧ _))

lemma lt_iff {p q : Position} :
    p < q ↔ p.line < q.line ∨ p.line = q.line ∧ p.column < q.column := Iff.rfl

lemma lt_trans {p q r : Position} (h : p < q) (h' : q < r) : p < r := by
  rw [lt_iff] at *
  omega

lemma lt_irrefl (p : Position) : ¬ p < p := by
  rw [lt_iff]
  omega

variable {width : Char → Nat}

@[simp] lemma walk_nil (p : Position) : walk width p [] = p := rfl

lemma walk_append (p : Position) (s t : Text) :
    walk width p (s ++ t) = walk width (walk width p s) t := List.foldl_append

lemma walk_newline (p : Position) (s : Text) :
    walk width p (s ++ ['\n']) = ⟨(walk width p s).line + 1, 0⟩ := by
  rw [walk_append]
  rfl

lemma walk_line {s : Text} (h : '\n' ∉ s) (p : Position) :
    walk width p s = ⟨p.line, p.column + (s.map width).sum⟩ := by
  induction s generalizing p with
  | nil => rfl
  | cons c s ih =>
    obtain ⟨hc, hs⟩ := not_or.mp (mt List.mem_cons.mpr h)
    have hstep : step width p c = ⟨p.line, p.column + width c⟩ := if_neg (Ne.symm hc)
    rw [show walk width p (c :: s) = walk width (step width p c) s from rfl, ih hs, hstep]
    simp [Nat.add_assoc]

lemma line_walk (p : Position) (s : Text) : (walk width p s).line = p.line + s.count '\n' := by
  induction s generalizing p with
  | nil => rfl
  | cons c s ih =>
    rw [show walk width p (c :: s) = walk width (step width p c) s from rfl, ih, List.count_cons,
      step]
    by_cases hc : c = '\n'
    · simp only [hc, if_true, beq_self_eq_true]
      omega
    · simp [hc]

lemma lt_walk (hwidth : ∀ c, 0 < width c) (p : Position) {s : Text} (hs : s ≠ []) :
    p < walk width p s := by
  induction s generalizing p with
  | nil => contradiction
  | cons c s ih =>
    have hstep : p < step width p c := by
      rw [lt_iff, step]
      split
      · exact .inl (Nat.lt_succ_self _)
      · exact .inr ⟨rfl, Nat.lt_add_of_pos_right (hwidth c)⟩
    by_cases hnil : s = []
    · rw [hnil]
      exact hstep
    · exact lt_trans hstep (ih _ hnil)

lemma walk_lastLine {before line : Text} (hline : '\n' ∉ line)
    (hbefore : before = [] ∨ ∃ u, before = u ++ ['\n']) :
    walk width ⟨0, 0⟩ (before ++ line) = ⟨before.count '\n', (line.map width).sum⟩ := by
  have hstart : walk width ⟨0, 0⟩ before = ⟨before.count '\n', 0⟩ := by
    rcases hbefore with rfl | ⟨u, rfl⟩
    · rfl
    · rw [walk_newline, line_walk]
      simp
  rw [walk_append, walk_line hline, hstart]
  simp

end Position

namespace Text

lemma exists_append_of_size_le {s t u v : Text} (h : s ++ t = u ++ v) (hle : s.size ≤ u.size) :
    ∃ w, u = s ++ w ∧ t = w ++ v := by
  rcases List.append_eq_append_iff.mp h with ⟨w, hu, ht⟩ | ⟨w, rfl, rfl⟩
  · exact ⟨w, hu, ht⟩
  · have hw : w = [] := eq_nil_of_size_eq_zero (by rw [size_append] at hle; omega)
    exact ⟨[], by simp [hw], by simp [hw]⟩

/-- The UTF-16 units of a character. -/
def charUnits (c : Char) : Nat := units [c]

@[simp] lemma utf8Size_newline : '\n'.utf8Size = 1 := rfl

lemma charUnits_pos (c : Char) : 0 < charUnits c := by
  simp only [charUnits, units]
  split <;> omega

lemma units_eq_sum (s : Text) : s.units = (s.map charUnits).sum := by
  induction s with
  | nil => rfl
  | cons c s ih => simp [units, charUnits, ih]

lemma size_eq_sum (s : Text) : s.size = (s.map Char.utf8Size).sum := by
  induction s with
  | nil => rfl
  | cons c s ih => simp [ih]

lemma units_of_isAscii {s : Text} (h : s.isAscii = true) : s.units = s.size := by
  induction s with
  | nil => rfl
  | cons c s ih =>
    rw [isAscii, List.all_cons, Bool.and_eq_true, decide_eq_true_eq] at h
    have hsize : c.utf8Size = 1 := by
      rw [Char.utf8Size_eq_one_iff, UInt32.le_iff_toNat_le]
      exact Nat.le_of_lt_succ h.1
    rw [units, if_pos (by omega), size_cons, hsize, ih h.2]

/-- The position behind a text, with the column in UTF-16 units. -/
def endPosition (s : Text) : Position := Position.walk charUnits ⟨0, 0⟩ s

lemma endPosition_append_line (s : Text) {line : Text} (h : '\n' ∉ line) :
    (s ++ line).endPosition =
      ⟨s.endPosition.line, s.endPosition.column + (line.map charUnits).sum⟩ := by
  rw [endPosition, Position.walk_append, Position.walk_line h]
  rfl

lemma endPosition_lt_append (s : Text) {t : Text} (ht : t ≠ []) :
    s.endPosition < (s ++ t).endPosition := by
  rw [endPosition, endPosition, Position.walk_append]
  exact Position.lt_walk charUnits_pos _ ht

lemma endPosition_lt_iff {s t u v : Text} (h : s ++ t = u ++ v) :
    s.endPosition < u.endPosition ↔ s.size < u.size := by
  -- of two ways to cut a text one comes first
  rcases List.append_eq_append_iff.mp h with ⟨w, rfl, -⟩ | ⟨w, rfl, -⟩
  · cases w with
    | nil => simp [Position.lt_irrefl]
    | cons c w =>
      have := c.utf8Size_pos
      simp only [s.endPosition_lt_append (List.cons_ne_nil c w), size_append, size_cons, true_iff]
      omega
  · cases w with
    | nil => simp [Position.lt_irrefl]
    | cons c w =>
      have hlt := u.endPosition_lt_append (List.cons_ne_nil c w)
      have : ¬ (u ++ c :: w).endPosition < u.endPosition := fun h =>
        Position.lt_irrefl _ (Position.lt_trans hlt h)
      simp only [this, size_append, false_iff]
      omega

lemma exists_lastLine (s : Text) :
    ∃ before line : Text, s = before ++ line ∧ '\n' ∉ line ∧
      (before = [] ∨ ∃ u, before = u ++ ['\n']) := by
  induction s using List.reverseRecOn with
  | nil => exact ⟨[], [], rfl, by simp, .inl rfl⟩
  | append_singleton s c ih =>
    by_cases hc : c = '\n'
    · exact ⟨s ++ [c], [], by simp, by simp, .inr ⟨s, by rw [hc]⟩⟩
    · obtain ⟨before, line, rfl, hline, hbefore⟩ := ih
      exact ⟨before, line ++ [c], by simp, by simp [hline, Ne.symm hc], hbefore⟩

/-- A line starts at the offset, behind a line feed. -/
def StartsLine (s : Text) (n : Nat) : Prop :=
  ∃ before after, s = before ++ '\n' :: after ∧ n = before.size + 1

lemma StartsLine.boundary {s : Text} {n : Nat} (h : s.StartsLine n) : s.Boundary n := by
  obtain ⟨before, after, rfl, rfl⟩ := h
  exact ⟨before ++ ['\n'], after, by simp, by simp⟩

end Text

/-! ### Binary search -/

lemma partitionPoint_append {α : Type} {xs ys : List α} {p : α → Bool}
    (hxs : ∀ x ∈ xs, p x = true) (hys : ∀ y ∈ ys, p y = false) :
    partitionPoint (xs ++ ys).toArray p = xs.length := by
  refine partitionPoint_eq (by simp) fun i x hx => ?_
  rw [List.getElem?_toArray, List.getElem?_append] at hx
  split at hx
  · next hi => simp [hi, hxs x (List.mem_of_getElem? hx)]
  · next hi => simp [hi, hys x (List.mem_of_getElem? hx)]

lemma lastUpTo_eq {cmp : Nat → Ordering} {base size n : Nat} (hn : n ≤ base + size)
    (h : ∀ i, base ≤ i → i < base + size → (cmp i ≠ .gt ↔ i < n)) :
    lastUpTo cmp base size = max base (n - 1) := by
  -- the last element up to the key is at `base` or behind it, unless there is none
  fun_induction lastUpTo cmp base size with
  | case1 base size hlt half mid hgt ih =>
    have : ¬ mid < n := mt (h mid (by omega) (by omega)).mpr (not_not_intro hgt)
    exact ih (by omega) fun i hi hlt => h i hi (by omega)
  | case2 base size hlt half mid hle ih =>
    have := (h mid (by omega) (by omega)).mp hle
    rw [ih (by omega) fun i hi hlt => h i (by omega) (by omega)]
    omega
  | case3 base size hle => omega

/-- The number of elements up to the key. -/
def SearchResult.rank : SearchResult → Nat
  | .found i => i + 1
  | .absent i => i

lemma rank_binarySearch {α : Type} {xs : Array α} {cmp : α → Ordering} {n : Nat}
    (hn : n ≤ xs.size) (h : ∀ i x, xs[i]? = some x → (cmp x ≠ .gt ↔ i < n)) :
    (binarySearch xs cmp).rank = n := by
  have hbase : lastUpTo (fun i => (xs[i]?.map cmp).getD .gt) 0 xs.size = n - 1 := by
    rw [lastUpTo_eq (n := n) (by omega) fun i _ hi => ?_, Nat.zero_max]
    rw [Nat.zero_add] at hi
    have hx : xs[i]? = some xs[i] := Array.getElem?_eq_getElem hi
    rw [hx]
    exact h i _ hx
  unfold binarySearch
  rw [hbase]
  dsimp only
  cases n with
  | zero =>
    -- all elements are past the key, if there are any
    cases hx : xs[0]? with
    | none => rfl
    | some x =>
      have hgt : cmp x = .gt := by simpa using h 0 x hx
      rw [Option.map_some, hgt]
      rfl
  | succ k =>
    -- the search ends at the last element up to the key, equal to it or not
    have hx : xs[k]? = some xs[k] := Array.getElem?_eq_getElem hn
    have hle := (h k _ hx).mpr (Nat.lt_succ_self k)
    rw [Nat.add_sub_cancel, hx, Option.map_some]
    cases hcmp : cmp xs[k] with
    | lt => rfl
    | eq => rfl
    | gt => exact absurd hcmp hle

/-! ### The lines of a text -/

namespace LineIndex

lemma linesAfter_append (pos : Nat) (s t : Text) :
    linesAfter pos (s ++ t) =
      (linesAfter pos s).map (fun l => ⟨l.start, l.rest ++ t⟩) ++ linesAfter (pos + s.size) t := by
  induction s generalizing pos with
  | nil => simp [linesAfter]
  | cons c s ih =>
    simp only [List.cons_append, linesAfter, ih, Text.size_cons, ← Nat.add_assoc]
    split <;> simp

lemma length_linesAfter (pos : Nat) (s : Text) : (linesAfter pos s).length = s.count '\n' := by
  induction s generalizing pos with
  | nil => rfl
  | cons c s ih =>
    rw [linesAfter, List.count_cons]
    split <;> simp_all

lemma linesAfter_bounds {pos : Nat} {s : Text} (h : pos + s.size ≤ Offset.limit) :
    ∀ l ∈ linesAfter pos s, pos < l.start ∧ l.start ≤ pos + s.size := by
  induction s generalizing pos with
  | nil => simp [linesAfter]
  | cons c s ih =>
    rw [Text.size_cons] at *
    have hpos := c.utf8Size_pos
    have hrest (l : Line) (hl : l ∈ linesAfter (pos + c.utf8Size) s) :
        pos < l.start ∧ l.start ≤ pos + (c.utf8Size + Text.size s) := by
      have := ih (by omega) l hl
      omega
    rw [linesAfter]
    split
    · refine List.forall_mem_cons.mpr ⟨?_, hrest⟩
      simp only [Offset.ofIndex_eq (show pos + c.utf8Size ≤ Offset.limit by omega)]
      omega
    · exact hrest

lemma linesAfter_pairwise {pos : Nat} {s : Text} (h : pos + s.size ≤ Offset.limit) :
    (linesAfter pos s).Pairwise fun l m => l.start < m.start := by
  induction s generalizing pos with
  | nil => exact .nil
  | cons c s ih =>
    rw [Text.size_cons, ← Nat.add_assoc] at h
    rw [linesAfter]
    split
    · refine .cons (fun l hl => ?_) (ih h)
      rw [Offset.ofIndex_eq (by omega)]
      exact (linesAfter_bounds h l hl).1
    · exact ih h

lemma mem_starts_linesAfter {pos : Nat} {s : Text} (h : pos + s.size ≤ Offset.limit) {n : Nat} :
    n ∈ (linesAfter pos s).map Line.start ↔
      ∃ before after, s = before ++ '\n' :: after ∧ n = pos + before.size + 1 := by
  induction s generalizing pos with
  | nil => simp [linesAfter]
  | cons c s ih =>
    rw [Text.size_cons, ← Nat.add_assoc] at h
    -- a line feed of the rest, counted from the first character on
    have hrest : (∃ before after : Text, s = before ++ '\n' :: after ∧
        n = pos + c.utf8Size + before.size + 1) ↔ ∃ before after : Text,
          c :: s = c :: before ++ '\n' :: after ∧ n = pos + Text.size (c :: before) + 1 := by
      simp [Nat.add_assoc]
    rw [linesAfter]
    split
    · next hc =>
      rw [List.map_cons, List.mem_cons, ih h, hrest, Offset.ofIndex_eq (by omega)]
      constructor
      · rintro (rfl | ⟨before, after, he, hn⟩)
        · exact ⟨[], s, by rw [hc]; rfl, by rw [hc]; rfl⟩
        · exact ⟨_, after, he, hn⟩
      · rintro ⟨before, after, he, hn⟩
        rcases List.cons_eq_append_iff.mp he with ⟨rfl, he⟩ | ⟨before', rfl, rfl⟩
        · left
          rw [hn, hc]
          rfl
        · exact .inr ⟨before', after, rfl, hn⟩
    · next hc =>
      rw [ih h, hrest]
      constructor
      · rintro ⟨before, after, he, hn⟩
        exact ⟨_, after, he, hn⟩
      · rintro ⟨before, after, he, hn⟩
        rcases List.cons_eq_append_iff.mp he with ⟨rfl, he⟩ | ⟨before', rfl, rfl⟩
        · cases he
          contradiction
        · exact ⟨before', after, rfl, hn⟩

/-! ### Looking for a line

The start of a line that is too far away to be stored is the largest offset, so that the starts of
lines are in order but need not differ. -/

lemma ofIndex_le_start (pos : Nat) (s : Text) :
    ∀ l ∈ linesAfter pos s, Offset.ofIndex pos ≤ l.start := by
  induction s generalizing pos with
  | nil => simp [linesAfter]
  | cons c s ih =>
    have hstep : Offset.ofIndex pos ≤ Offset.ofIndex (pos + c.utf8Size) := by
      unfold Offset.ofIndex
      omega
    have hrest (l : Line) (hl : l ∈ linesAfter (pos + c.utf8Size) s) :
        Offset.ofIndex pos ≤ l.start := Nat.le_trans hstep (ih _ l hl)
    rw [linesAfter]
    split
    · exact List.forall_mem_cons.mpr ⟨hstep, hrest⟩
    · exact hrest

lemma linesAfter_sorted (pos : Nat) (s : Text) :
    (linesAfter pos s).Pairwise fun l m => l.start ≤ m.start := by
  induction s generalizing pos with
  | nil => exact .nil
  | cons c s ih =>
    rw [linesAfter]
    split
    · exact .cons (ofIndex_le_start _ s) (ih _)
    · exact ih _

lemma lines_sorted (text : Text) :
    (ofText text).lines.toList.Pairwise fun l m => l.start ≤ m.start :=
  .cons (fun _ _ => Nat.zero_le _) (linesAfter_sorted 0 text)

lemma exists_lines_append {lines : List Line}
    (h : lines.Pairwise fun l m => l.start ≤ m.start) (offset : Nat) :
    ∃ before after, lines = before ++ after ∧ (∀ l ∈ before, l.start ≤ offset) ∧
      ∀ l ∈ after, offset < l.start := by
  induction h with
  | nil => exact ⟨[], [], rfl, by simp, by simp⟩
  | @cons l lines hl _ ih =>
    by_cases hle : l.start ≤ offset
    · obtain ⟨before, after, rfl, hbefore, hafter⟩ := ih
      exact ⟨l :: before, after, rfl, List.forall_mem_cons.mpr ⟨hle, hbefore⟩, hafter⟩
    · refine ⟨[], l :: lines, rfl, by simp, List.forall_mem_cons.mpr ⟨by omega, fun m hm => ?_⟩⟩
      have := hl m hm
      omega

/-- Whether or not a line starts at the offset, the search says how many start up to it. -/
lemma rank_search {i : LineIndex} (h : i.lines.toList.Pairwise fun l m => l.start ≤ m.start)
    (offset : Nat) :
    (i.search offset).rank = partitionPoint i.lines (·.start ≤ offset) := by
  obtain ⟨before, after, hlines, hbefore, hafter⟩ := exists_lines_append h offset
  have hparted (k : Nat) (l : Line) (hl : i.lines[k]? = some l) :
      l.start ≤ offset ↔ k < before.length := by
    rw [← Array.getElem?_toList, hlines, List.getElem?_append] at hl
    split at hl
    · next hk => simp [hk, hbefore l (List.mem_of_getElem? hl)]
    · next hk => simp [hk, hafter l (List.mem_of_getElem? hl)]
  have hlength : before.length ≤ i.lines.size := by
    rw [← Array.length_toList, hlines, List.length_append]
    exact Nat.le_add_right _ _
  rw [partitionPoint_eq hlength fun k l hl => by simpa using hparted k l hl]
  exact rank_binarySearch hlength fun k l hl => Nat.compare_ne_gt.trans (hparted k l hl)

theorem position?_eq_partitionPoint {i : LineIndex}
    (h : i.lines.toList.Pairwise fun l m => l.start ≤ m.start) (offset : Nat) :
    i.position? offset = if offset ≤ i.stop then
      (i.lineStart? (partitionPoint i.lines (·.start ≤ offset) - 1)).map fun start =>
        ⟨partitionPoint i.lines (·.start ≤ offset) - 1, offset - start⟩ else none := by
  rw [position?, ← rank_search h]
  cases i.search offset <;> rfl

theorem startsBetween_eq_partitionPoint {i : LineIndex}
    (h : i.lines.toList.Pairwise fun l m => l.start ≤ m.start) (start stop : Nat) :
    i.startsBetween start stop =
      ((i.lines.toList.drop (partitionPoint i.lines (·.start ≤ start))).map
        Line.start).takeWhile (· < stop) := by
  rw [startsBetween, ← Array.length_toList, ← List.drop_eq_drop_min, ← rank_search h]
  cases i.search start <;> rfl

/-- The short cut for ASCII makes no difference. -/
theorem unitPosition?_eq_units (i : LineIndex) (offset : Nat) :
    i.unitPosition? offset = (i.position? offset).bind fun p => i.lines[p.line]?.bind fun line =>
      (line.rest.takeBytes p.column).map fun segment => ⟨p.line, segment.units⟩ := by
  -- the column counts the bytes of the segment, and in ASCII these are its units
  have hcolumn {s segment : Text} {n : Nat} (h : s.takeBytes n = some segment) :
      (if segment.isAscii then n else segment.units) = segment.units := by
    obtain ⟨_, -, hsize⟩ := Text.takeBytes_eq_some h
    split
    · next hascii => rw [Text.units_of_isAscii hascii, hsize]
    · rfl
  unfold unitPosition?
  simp only [Option.bind_eq_bind, Option.pure_def]
  refine Option.bind_congr fun p _ => Option.bind_congr fun line _ => ?_
  cases hsegment : line.rest.takeBytes p.column with
  | none => rfl
  | some segment => rw [Option.bind_some, Option.map_some, hcolumn hsegment]

/-- The lines that start in the first part of a text, the first one among them. -/
def linesOf (s t : Text) : List Line :=
  (⟨0, s⟩ :: linesAfter 0 s).map fun l => ⟨l.start, l.rest ++ t⟩

variable {s t : Text}

lemma lines_ofText_append (s t : Text) :
    (ofText (s ++ t)).lines = (linesOf s t ++ linesAfter s.size t).toArray := by
  simp [ofText, linesOf, linesAfter_append]

lemma length_linesOf (s t : Text) : (linesOf s t).length = s.count '\n' + 1 := by
  simp [linesOf, length_linesAfter]

lemma partitionPoint_lines (h : (s ++ t).size ≤ Offset.limit) :
    partitionPoint (ofText (s ++ t)).lines (·.start ≤ s.size) = s.count '\n' + 1 := by
  rw [Text.size_append] at h
  rw [lines_ofText_append, ← length_linesOf s t]
  refine partitionPoint_append (fun l hl => ?_) fun l hl => ?_
  · obtain ⟨l', hl', rfl⟩ := List.mem_map.mp hl
    rcases List.mem_cons.mp hl' with rfl | hl'
    · simp
    · have := linesAfter_bounds (by omega) l' hl'
      simpa using this.2
  · have := linesAfter_bounds h l hl
    simpa using this.1

lemma getElem?_lines {before line : Text} (h : (before ++ line ++ t).size ≤ Offset.limit)
    (hbefore : before = [] ∨ ∃ u, before = u ++ ['\n']) :
    (ofText (before ++ line ++ t)).lines[before.count '\n']? =
      some ⟨before.size, line ++ t⟩ := by
  rcases hbefore with rfl | ⟨u, rfl⟩
  · rfl
  · have hle : u.size + 1 ≤ Offset.limit := by
      simp only [Text.size_append, Text.size_cons, Text.size_nil, Text.utf8Size_newline] at h
      omega
    -- the lines that start up to the end of `u`, and then this one
    have hlines : (ofText (u ++ ['\n'] ++ line ++ t)).lines =
        (linesOf u ('\n' :: (line ++ t)) ++
          ⟨u.size + 1, line ++ t⟩ :: linesAfter (u.size + 1) (line ++ t)).toArray := by
      rw [List.append_assoc, List.append_assoc, lines_ofText_append]
      simp [linesAfter, Offset.ofIndex_eq hle]
    rw [hlines, List.getElem?_toArray, List.getElem?_append_right (by simp [length_linesOf])]
    simp [length_linesOf]

lemma position?_line {before line : Text} (h : (before ++ line ++ t).size ≤ Offset.limit)
    (hline : '\n' ∉ line) (hbefore : before = [] ∨ ∃ u, before = u ++ ['\n']) :
    (ofText (before ++ line ++ t)).position? (before ++ line).size =
      some ⟨before.count '\n', line.size⟩ := by
  have hstop : (before ++ line).size ≤ (ofText (before ++ line ++ t)).stop := by
    rw [ofText, Offset.ofIndex_eq h, Text.size_append (before ++ line)]
    exact Nat.le_add_right _ _
  have hpoint := partitionPoint_lines h
  rw [List.count_append, List.count_eq_zero.mpr hline, Nat.add_zero] at hpoint
  rw [position?_eq_partitionPoint (lines_sorted _), if_pos hstop, hpoint, Nat.add_sub_cancel,
    lineStart?, getElem?_lines h hbefore]
  simp

/-- **The position of an offset**, with the column in bytes. -/
theorem position?_append (h : (s ++ t).size ≤ Offset.limit) :
    (ofText (s ++ t)).position? s.size = some (Position.walk Char.utf8Size ⟨0, 0⟩ s) := by
  obtain ⟨before, line, rfl, hline, hbefore⟩ := s.exists_lastLine
  rw [position?_line h hline hbefore, Position.walk_lastLine hline hbefore, Text.size_eq_sum]

/-- **The position of an offset**, with the column in UTF-16 units. -/
theorem unitPosition?_append (h : (s ++ t).size ≤ Offset.limit) :
    (ofText (s ++ t)).unitPosition? s.size = some s.endPosition := by
  obtain ⟨before, line, rfl, hline, hbefore⟩ := s.exists_lastLine
  rw [unitPosition?_eq_units, position?_line h hline hbefore, Text.endPosition,
    Position.walk_lastLine hline hbefore, ← Text.units_eq_sum, Option.bind_some,
    getElem?_lines h hbefore, Option.bind_some, Text.takeBytes_size_append, Option.map_some]

lemma unitPosition?_line {line : Text} (h : (s ++ line ++ t).size ≤ Offset.limit)
    (hline : '\n' ∉ line) :
    ∃ p, (ofText (s ++ line ++ t)).unitPosition? s.size = some p ∧
      (ofText (s ++ line ++ t)).unitPosition? (s ++ line).size =
        some ⟨p.line, p.column + (line.map Text.charUnits).sum⟩ := by
  refine ⟨s.endPosition, ?_, ?_⟩
  · rw [List.append_assoc] at h ⊢
    exact unitPosition?_append h
  · rw [unitPosition?_append h, Text.endPosition_append_line s hline]

lemma exists_unitPosition? {text : Text} {n : Nat} (h : text.size ≤ Offset.limit)
    (hn : text.Boundary n) : ∃ p, (ofText text).unitPosition? n = some p := by
  obtain ⟨s, t, rfl, rfl⟩ := hn
  exact ⟨_, unitPosition?_append h⟩

lemma positions_of_startsLine {text : Text} {n : Nat} (h : text.size ≤ Offset.limit)
    (hline : text.StartsLine n) :
    ∃ p : Position, p.column = 0 ∧ (ofText text).position? n = some p ∧
      (ofText text).unitPosition? n = some p := by
  obtain ⟨before, after, rfl, rfl⟩ := hline
  have htext : before ++ '\n' :: after = before ++ ['\n'] ++ after := by simp
  have hsize : before.size + 1 = (before ++ ['\n'] : Text).size := by simp
  rw [htext] at h ⊢
  refine ⟨⟨before.count '\n' + 1, 0⟩, rfl, ?_, ?_⟩
  · rw [hsize, position?_append h, Position.walk_newline, Position.line_walk, Nat.zero_add]
  · rw [hsize, unitPosition?_append h, Text.endPosition, Position.walk_newline, Position.line_walk,
      Nat.zero_add]

/-- **Later offsets have later positions.** -/
theorem unitPosition?_lt_iff {text : Text} (h : text.size ≤ Offset.limit) {m n : Nat}
    {p q : Position} (hm : text.Boundary m) (hn : text.Boundary n)
    (hp : (ofText text).unitPosition? m = some p) (hq : (ofText text).unitPosition? n = some q) :
    p < q ↔ m < n := by
  obtain ⟨u, v, rfl, rfl⟩ := hm
  obtain ⟨u', v', he, rfl⟩ := hn
  rw [unitPosition?_append h] at hp
  rw [he, unitPosition?_append (he ▸ h)] at hq
  cases hp
  cases hq
  exact Text.endPosition_lt_iff he

lemma exists_partitionPoint (text : Text) (offset : Nat) :
    ∃ before after, (ofText text).lines.toList = before ++ after ∧
      partitionPoint (ofText text).lines (·.start ≤ offset) = before.length ∧
      0 < before.length ∧ (∀ l ∈ before, l.start ≤ offset) ∧ ∀ l ∈ after, offset < l.start := by
  obtain ⟨before, after, hlines, hbefore, hafter⟩ :=
    exists_lines_append (lines_sorted text) offset
  refine ⟨before, after, hlines, ?_, ?_, hbefore, hafter⟩
  · have harray : (ofText text).lines = (before ++ after).toArray := by rw [← hlines]
    rw [harray]
    refine partitionPoint_append (fun l hl => ?_) fun l hl => ?_
    · simpa using hbefore l hl
    · simpa using hafter l hl
  · refine List.length_pos_iff.mpr fun hnil => ?_
    rw [hnil, List.nil_append] at hlines
    have hfirst : ⟨0, text⟩ ∈ after := hlines ▸ List.mem_cons_self
    exact absurd (hafter _ hfirst) (Nat.not_lt_zero _)

lemma exists_lineStart {text : Text} {offset : Nat} {p : Position}
    (h : (ofText text).position? offset = some p) :
    ∃ start, (ofText text).lineStart? p.line = some start ∧ start ≤ offset ∧
      p.column = offset - start := by
  obtain ⟨before, after, hlines, hpoint, hpos, hbefore, -⟩ := exists_partitionPoint text offset
  rw [position?_eq_partitionPoint (lines_sorted text)] at h
  split at h
  · rw [hpoint] at h
    obtain ⟨start, hstart, rfl⟩ := Option.map_eq_some_iff.mp h
    refine ⟨start, hstart, ?_, rfl⟩
    obtain ⟨l, hl, rfl⟩ := Option.map_eq_some_iff.mp hstart
    rw [← Array.getElem?_toList, hlines, List.getElem?_append_left (by omega)] at hl
    exact hbefore l (List.mem_of_getElem? hl)
  · cases h

/-! ### Line starts -/

lemma starts_pairwise {text : Text} (h : text.size ≤ Offset.limit) :
    ((ofText text).lines.toList.map Line.start).Pairwise (· < ·) := by
  have h0 : 0 + text.size ≤ Offset.limit := by omega
  refine List.pairwise_map.mpr (.cons (fun l hl => ?_) (linesAfter_pairwise h0))
  exact (linesAfter_bounds h0 l hl).1

lemma mem_starts {text : Text} (h : text.size ≤ Offset.limit) {n : Nat} :
    n ∈ (ofText text).lines.toList.map Line.start ↔ n = 0 ∨ text.StartsLine n := by
  have h0 : 0 + text.size ≤ Offset.limit := by omega
  have hcons : (ofText text).lines.toList.map Line.start =
      0 :: (linesAfter 0 text).map Line.start := rfl
  rw [hcons, List.mem_cons, mem_starts_linesAfter h0, Text.StartsLine]
  simp only [Nat.zero_add]

lemma exists_startsBetween (text : Text) (start stop : Nat) :
    ∃ before after, (ofText text).lines.toList.map Line.start = before ++ after ∧
      (∀ n ∈ before, n ≤ start) ∧ (∀ n ∈ after, start < n) ∧
      (ofText text).startsBetween start stop = after.takeWhile (· < stop) := by
  obtain ⟨before, after, hlines, hpoint, -, hbefore, hafter⟩ := exists_partitionPoint text start
  refine ⟨before.map Line.start, after.map Line.start, ?_, ?_, ?_, ?_⟩
  · rw [hlines, List.map_append]
  · exact List.forall_mem_map.mpr hbefore
  · exact List.forall_mem_map.mpr hafter
  · rw [startsBetween_eq_partitionPoint (lines_sorted text), hpoint, hlines, List.drop_left]

lemma startsBetween_bounds {text : Text} {start stop n : Nat}
    (h : n ∈ (ofText text).startsBetween start stop) : start < n ∧ n < stop := by
  obtain ⟨before, after, -, -, hafter, heq⟩ := exists_startsBetween text start stop
  rw [heq] at h
  exact ⟨hafter n ((List.takeWhile_sublist _).mem h),
    by simpa using List.all_eq_true.mp List.all_takeWhile n h⟩

lemma startsBetween_pairwise {text : Text} (h : text.size ≤ Offset.limit) (start stop : Nat) :
    ((ofText text).startsBetween start stop).Pairwise (· < ·) := by
  obtain ⟨before, after, hstarts, -, -, heq⟩ := exists_startsBetween text start stop
  have hsorted := starts_pairwise h
  rw [hstarts] at hsorted
  rw [heq]
  exact (List.pairwise_append.mp hsorted).2.1.sublist (List.takeWhile_sublist _)

lemma mem_takeWhile_lt {xs : List Nat} (h : xs.Pairwise (· < ·)) {n stop : Nat} :
    n ∈ xs.takeWhile (· < stop) ↔ n ∈ xs ∧ n < stop := by
  induction h with
  | nil => simp
  | @cons x xs hx _ ih =>
    by_cases hlt : x < stop
    · rw [List.takeWhile_cons_of_pos (by simpa using hlt), List.mem_cons, List.mem_cons, ih]
      constructor
      · rintro (rfl | ⟨hn, hstop⟩)
        · exact ⟨.inl rfl, hlt⟩
        · exact ⟨.inr hn, hstop⟩
      · rintro ⟨rfl | hn, hstop⟩
        · exact .inl rfl
        · exact .inr ⟨hn, hstop⟩
    · rw [List.takeWhile_cons_of_neg (by simpa using hlt)]
      constructor
      · simp
      · rintro ⟨hn, hstop⟩
        rcases List.mem_cons.mp hn with rfl | hn
        · contradiction
        · have := hx n hn
          omega

/-- **The line starts** strictly between two offsets. -/
theorem mem_startsBetween {text : Text} (h : text.size ≤ Offset.limit) {start stop n : Nat} :
    n ∈ (ofText text).startsBetween start stop ↔ start < n ∧ n < stop ∧ text.StartsLine n := by
  obtain ⟨before, after, hstarts, hbefore, hafter, heq⟩ := exists_startsBetween text start stop
  have hsorted := starts_pairwise h
  have hmem := mem_starts h (n := n)
  rw [hstarts] at hsorted hmem
  rw [heq, mem_takeWhile_lt (List.pairwise_append.mp hsorted).2.1]
  constructor
  · rintro ⟨hn, hstop⟩
    have hlt := hafter n hn
    have hline := hmem.mp (List.mem_append_right _ hn)
    -- it is behind `start`, so it is not the start of the first line
    exact ⟨hlt, hstop, hline.resolve_left (by omega)⟩
  · rintro ⟨hlt, hstop, hline⟩
    rcases List.mem_append.mp (hmem.mpr (.inr hline)) with hn | hn
    · have := hbefore n hn
      omega
    · exact ⟨hn, hstop⟩

end LineIndex

end TsxLowering
