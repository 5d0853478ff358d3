import Mathlib.Data.List.DropRight
import TsxLowering.Proofs.LineIndex

/-!
Lines and columns, read off the bytes of a text.

Line feeds are single bytes in UTF-8 and are part of no other character, so the lines of a text
start at its beginning and behind each byte that is a line feed. The number of these bytes before an
offset is its line, and the bytes behind the last of them are its column, also for an offset inside
of a character. Main statement: `ofText_exact`.
-/

namespace TsxLowering

namespace Text

/-- The UTF-8 form. -/
def bytes (s : Text) : List UInt8 := s.flatMap String.utf8EncodeChar

/-- The byte that ends a line. -/
def lineFeed : UInt8 := 0x0A

/-- The offsets behind the line feeds among bytes that start at `pos`. -/
def breakEnds (pos : Nat) : List UInt8 → List Nat
  | [] => []
  | x :: xs => if x = lineFeed then (pos + 1) :: breakEnds (pos + 1) xs else breakEnds (pos + 1) xs

/-- A line starts at the offset: at the beginning, or behind a line feed. -/
def IsLineStart (xs : List UInt8) (n : Nat) : Prop :=
  n = 0 ∨ ∃ i, xs[i]? = some lineFeed ∧ n = i + 1

/-! ### Line feeds among bytes -/

lemma breakEnds_append (pos : Nat) (xs ys : List UInt8) :
    breakEnds pos (xs ++ ys) = breakEnds pos xs ++ breakEnds (pos + xs.length) ys := by
  induction xs generalizing pos with
  | nil => rfl
  | cons x xs ih =>
    simp only [List.cons_append, breakEnds, ih, List.length_cons, Nat.add_assoc, Nat.add_comm 1]
    split <;> rfl

lemma length_breakEnds (pos : Nat) (xs : List UInt8) :
    (breakEnds pos xs).length = xs.count lineFeed := by
  induction xs generalizing pos with
  | nil => rfl
  | cons x xs ih =>
    rw [breakEnds, List.count_cons]
    split <;> simp_all

lemma mem_breakEnds {pos n : Nat} {xs : List UInt8} :
    n ∈ breakEnds pos xs ↔ ∃ i, xs[i]? = some lineFeed ∧ n = pos + i + 1 := by
  induction xs generalizing pos with
  | nil => simp [breakEnds]
  | cons x xs ih =>
    -- the first byte apart, and the others counted from the next one on
    have hcons : (∃ i, (x :: xs)[i]? = some lineFeed ∧ n = pos + i + 1) ↔
        x = lineFeed ∧ n = pos + 1 ∨ n ∈ breakEnds (pos + 1) xs := by
      rw [ih]
      constructor
      · rintro ⟨_ | i, hi, rfl⟩
        · exact .inl ⟨by simpa using hi, rfl⟩
        · exact .inr ⟨i, by simpa using hi, by omega⟩
      · rintro (⟨rfl, rfl⟩ | ⟨i, hi, rfl⟩)
        · exact ⟨0, rfl, rfl⟩
        · exact ⟨i + 1, by simpa using hi, by omega⟩
    rw [hcons, breakEnds]
    split <;> simp [*]

lemma breakEnds_bounds {pos n : Nat} {xs : List UInt8} (h : n ∈ breakEnds pos xs) :
    pos < n ∧ n ≤ pos + xs.length := by
  obtain ⟨i, hi, rfl⟩ := mem_breakEnds.mp h
  have := (List.getElem?_eq_some_iff.mp hi).1
  omega

lemma getLast?_breakEnds (pos : Nat) (xs : List UInt8) :
    (pos :: breakEnds pos xs).getLast? = some (pos + (xs.rdropWhile (· != lineFeed)).length) := by
  induction xs using List.reverseRecOn with
  | nil => rfl
  | append_singleton xs x ih =>
    rw [breakEnds_append, List.rdropWhile_concat]
    by_cases hx : x = lineFeed
    · have hlast : breakEnds (pos + xs.length) [x] = [pos + (xs ++ [x]).length] := by
        simp [breakEnds, hx, Nat.add_assoc]
      rw [hlast, ← List.cons_append, List.getLast?_concat, if_neg (by simp [hx])]
    · simpa [hx, breakEnds] using ih

lemma rdropWhile_take {xs : List UInt8} {n : Nat} (h : IsLineStart xs n) :
    (xs.take n).rdropWhile (· != lineFeed) = xs.take n := by
  rcases h with rfl | ⟨i, hi, rfl⟩
  · rfl
  · rw [List.take_add_one, hi, Option.toList_some, List.rdropWhile_concat, if_neg (by simp)]

lemma IsLineStart.le_length {xs : List UInt8} {n : Nat} (h : IsLineStart xs n) :
    n ≤ xs.length := by
  rcases h with rfl | ⟨i, hi, rfl⟩
  · exact Nat.zero_le _
  · exact (List.getElem?_eq_some_iff.mp hi).1

/-- The offset of the first line feed from `n` on, or the end if there is none. -/
def nextBreak (xs : List UInt8) (n : Nat) : Nat :=
  n + ((xs.drop n).takeWhile (· != lineFeed)).length

lemma le_length_takeWhile_iff {xs : List UInt8} {n : Nat} :
    n ≤ (xs.takeWhile (· != lineFeed)).length ↔ n ≤ xs.length ∧ lineFeed ∉ xs.take n := by
  induction xs generalizing n with
  | nil => simp
  | cons x xs ih =>
    cases n with
    | zero => simp
    | succ n =>
      by_cases hx : x = lineFeed
      · simp [hx]
      · simp [hx, Ne.symm hx, ih]

/-! ### Line feeds of a text -/

lemma length_bytes (s : Text) : s.bytes.length = s.size := by
  induction s with
  | nil => rfl
  | cons c s ih => simp [bytes, ← ih]

lemma lineFeed_mem_utf8EncodeChar {c : Char} (h : lineFeed ∈ String.utf8EncodeChar c) :
    c = '\n' := by
  have hbyte {n : Nat} (h : lineFeed = UInt8.ofNat n) : n % 256 = 10 := by
    simpa [lineFeed] using (congrArg UInt8.toNat h).symm
  unfold String.utf8EncodeChar at h
  dsimp only at h
  split at h
  · next hascii =>
    have := hbyte (List.mem_singleton.mp h)
    refine Char.ext (UInt32.toNat_inj.mp ?_)
    change c.val.toNat = 10
    omega
  -- all bytes of a longer form are above those of ASCII
  · exfalso
    split at h
    · simp only [List.mem_cons, List.not_mem_nil, or_false] at h
      rcases h with h | h <;> have := hbyte h <;> omega
    split at h
    · simp only [List.mem_cons, List.not_mem_nil, or_false] at h
      rcases h with h | h | h <;> have := hbyte h <;> omega
    · simp only [List.mem_cons, List.not_mem_nil, or_false] at h
      rcases h with h | h | h | h <;> have := hbyte h <;> omega

lemma breakEnds_char (pos : Nat) (c : Char) :
    breakEnds pos (String.utf8EncodeChar c) = if c = '\n' then [pos + c.utf8Size] else [] := by
  split
  · next hc =>
    subst hc
    rfl
  · next hc =>
    refine List.eq_nil_iff_length_eq_zero.mpr ?_
    rw [length_breakEnds, List.count_eq_zero]
    exact mt lineFeed_mem_utf8EncodeChar hc

end Text

namespace LineIndex

open Text (lineFeed breakEnds IsLineStart)

/-! ### The lines of a text -/

lemma starts_linesAfter {pos : Nat} {s : Text} (h : pos + s.size ≤ Offset.limit) :
    (linesAfter pos s).map Line.start = breakEnds pos s.bytes := by
  induction s generalizing pos with
  | nil => rfl
  | cons c s ih =>
    rw [Text.size_cons, ← Nat.add_assoc] at h
    have hbytes : Text.bytes (c :: s) = String.utf8EncodeChar c ++ Text.bytes s := rfl
    rw [hbytes, Text.breakEnds_append, String.length_utf8EncodeChar, ← ih h, Text.breakEnds_char,
      linesAfter]
    split
    · rw [List.map_cons, Offset.ofIndex_eq (by omega)]
      rfl
    · rfl

variable {text : Text}

lemma starts_ofText (h : text.size ≤ Offset.limit) :
    (ofText text).lines.toList.map Line.start = 0 :: breakEnds 0 text.bytes := by
  rw [← starts_linesAfter (by simpa using h)]
  rfl

lemma isLineStart_iff (h : text.size ≤ Offset.limit) {n : Nat} :
    IsLineStart text.bytes n ↔ n = 0 ∨ text.StartsLine n := by
  rw [← mem_starts h, starts_ofText h, List.mem_cons, Text.mem_breakEnds, IsLineStart]
  simp only [Nat.zero_add]

lemma starts_take_drop (h : text.size ≤ Offset.limit) {o : Nat} (ho : o ≤ text.size) :
    (ofText text).lines.toList.map Line.start =
      (0 :: breakEnds 0 (text.bytes.take o)) ++ breakEnds o (text.bytes.drop o) := by
  have hlength : (text.bytes.take o).length = o := by
    rw [List.length_take, Text.length_bytes, Nat.min_eq_left ho]
  conv_lhs => rw [starts_ofText h, ← List.take_append_drop o text.bytes, Text.breakEnds_append]
  rw [hlength, Nat.zero_add]
  rfl

lemma lineStart?_eq (i : LineIndex) (line : Nat) :
    i.lineStart? line = (i.lines.toList.map Line.start)[line]? := by
  simp [lineStart?]

lemma partitionPoint_starts {i : LineIndex} {xs ys : List Nat} {o : Nat}
    (h : i.lines.toList.map Line.start = xs ++ ys) (hxs : ∀ x ∈ xs, x ≤ o)
    (hys : ∀ y ∈ ys, o < y) : partitionPoint i.lines (·.start ≤ o) = xs.length := by
  obtain ⟨before, after, hlines, rfl, rfl⟩ := List.map_eq_append_iff.mp h
  have harray : i.lines = (before ++ after).toArray := by rw [← hlines]
  rw [harray, List.length_map]
  refine partitionPoint_append (fun l hl => ?_) fun l hl => ?_
  · simpa using hxs _ (List.mem_map_of_mem hl)
  · simpa using hys _ (List.mem_map_of_mem hl)

lemma partitionPoint_bytes (h : text.size ≤ Offset.limit) {o : Nat} (ho : o ≤ text.size) :
    partitionPoint (ofText text).lines (·.start ≤ o) = (text.bytes.take o).count lineFeed + 1 := by
  rw [partitionPoint_starts (starts_take_drop h ho) ?_ ?_, List.length_cons, Text.length_breakEnds]
  · refine List.forall_mem_cons.mpr ⟨Nat.zero_le _, fun n hn => ?_⟩
    have := (Text.breakEnds_bounds hn).2
    rw [List.length_take] at this
    omega
  · exact fun n hn => (Text.breakEnds_bounds hn).1

lemma lineStart?_count (h : text.size ≤ Offset.limit) {o : Nat} (ho : o ≤ text.size) :
    (ofText text).lineStart? ((text.bytes.take o).count lineFeed) =
      some ((text.bytes.take o).rdropWhile (· != lineFeed)).length := by
  have hlast := Text.getLast?_breakEnds 0 (text.bytes.take o)
  rw [List.getLast?_eq_getElem?, List.length_cons, Text.length_breakEnds, Nat.add_sub_cancel,
    Nat.zero_add] at hlast
  rw [lineStart?_eq, starts_take_drop h ho, List.getElem?_append_left, hlast]
  rw [List.length_cons, Text.length_breakEnds]
  exact Nat.lt_succ_self _

lemma stop_ofText (h : text.size ≤ Offset.limit) : (ofText text).stop = text.size :=
  Offset.ofIndex_eq h

lemma position?_eq_ite (h : text.size ≤ Offset.limit) (o : Nat) :
    (ofText text).position? o = if o ≤ text.size then
      some ⟨(text.bytes.take o).count lineFeed,
        o - ((text.bytes.take o).rdropWhile (· != lineFeed)).length⟩ else none := by
  rw [position?_eq_partitionPoint (lines_sorted text), stop_ofText h]
  split
  · next ho => simp [partitionPoint_bytes h ho, lineStart?_count h ho]
  · rfl

lemma le_size_of_position? (h : text.size ≤ Offset.limit) {o : Nat} {p : Position}
    (hp : (ofText text).position? o = some p) :
    o ≤ text.size ∧ p.line = (text.bytes.take o).count lineFeed := by
  rw [position?_eq_ite h] at hp
  split at hp
  · next ho =>
    cases hp
    exact ⟨ho, rfl⟩
  · cases hp

/-! ### Offsets and positions -/

lemma offset?_position? (h : text.size ≤ Offset.limit) {o : Nat} {p : Position}
    (hp : (ofText text).position? o = some p) : (ofText text).offset? p = .ok (some o) := by
  obtain ⟨ho, -⟩ := le_size_of_position? h hp
  obtain ⟨start, hstart, hle, hcolumn⟩ := exists_lineStart hp
  have hadd : Offset.add start p.column = .ok o := Offset.add_eq_ok_iff.mpr (by omega)
  simp only [offset?, hstart, hadd]
  rfl

lemma position?_lt (h : text.size ≤ Offset.limit) {o o' : Nat} {p p' : Position}
    (hp : (ofText text).position? o = some p) (hp' : (ofText text).position? o' = some p')
    (hlt : o < o') : p < p' := by
  obtain ⟨-, hline⟩ := le_size_of_position? h hp
  obtain ⟨-, hline'⟩ := le_size_of_position? h hp'
  have hle : p.line ≤ p'.line := by
    rw [hline, hline']
    exact (List.take_sublist_take_left (Nat.le_of_lt hlt)).count_le _
  obtain ⟨start, hstart, hsle, hcolumn⟩ := exists_lineStart hp
  obtain ⟨start', hstart', hsle', hcolumn'⟩ := exists_lineStart hp'
  rw [Position.lt_iff]
  rcases Nat.lt_or_eq_of_le hle with hlt' | heq
  · exact .inl hlt'
  · -- on one line, the columns count from the same start
    rw [heq, hstart'] at hstart
    cases hstart
    exact .inr ⟨heq, by omega⟩

lemma lineStart?_eq_some_iff (h : text.size ≤ Offset.limit) {line start : Nat} :
    (ofText text).lineStart? line = some start ↔
      IsLineStart text.bytes start ∧ (text.bytes.take start).count lineFeed = line := by
  have hcounted {n : Nat} (hn : IsLineStart text.bytes n) :
      (ofText text).lineStart? ((text.bytes.take n).count lineFeed) = some n := by
    have hle : n ≤ text.size := text.length_bytes ▸ hn.le_length
    rw [lineStart?_count h hle, Text.rdropWhile_take hn, List.length_take, Text.length_bytes,
      Nat.min_eq_left hle]
  constructor
  · intro hstart
    rw [lineStart?_eq] at hstart
    have hline : IsLineStart text.bytes start :=
      (isLineStart_iff h).mpr ((mem_starts h).mp (List.mem_of_getElem? hstart))
    refine ⟨hline, ?_⟩
    -- no two lines start at one offset
    have hcount := hcounted hline
    rw [lineStart?_eq] at hcount
    exact (List.getElem?_inj (List.getElem?_eq_some_iff.mp hcount).1
      ((starts_pairwise h).imp Nat.ne_of_lt)).mp (hcount.trans hstart.symm)
  · rintro ⟨hline, rfl⟩
    exact hcounted hline

lemma position?_eq_some_iff (h : text.size ≤ Offset.limit) {line start : Nat}
    (hstart : (ofText text).lineStart? line = some start) (column : Nat) :
    (ofText text).position? (start + column) = some ⟨line, column⟩ ↔
      start + column ≤ Text.nextBreak text.bytes start := by
  obtain ⟨hline, hcount⟩ := (lineStart?_eq_some_iff h).mp hstart
  have hle := hline.le_length
  -- the line feeds before a position are those before its line and those on the way to it
  have hcounts : (text.bytes.take (start + column)).count lineFeed =
      line + ((text.bytes.drop start).take column).count lineFeed := by
    rw [List.take_add, List.count_append, hcount]
  rw [Text.nextBreak, Nat.add_le_add_iff_left, Text.le_length_takeWhile_iff, List.length_drop]
  constructor
  · intro hp
    obtain ⟨hsize, hlines⟩ := le_size_of_position? h hp
    rw [hcounts] at hlines
    rw [Text.length_bytes]
    exact ⟨by omega, List.count_eq_zero.mp (by simp only at hlines; omega)⟩
  · rintro ⟨hcolumn, hfree⟩
    rw [Text.length_bytes] at hle hcolumn
    rw [List.count_eq_zero.mpr hfree, Nat.add_zero] at hcounts
    have hp : ∃ p, (ofText text).position? (start + column) = some p := by
      rw [position?_eq_ite h, if_pos (by omega)]
      exact ⟨_, rfl⟩
    obtain ⟨p, hp⟩ := hp
    obtain ⟨-, hlines⟩ := le_size_of_position? h hp
    obtain ⟨start', hstart', -, hcolumns⟩ := exists_lineStart hp
    rw [hlines, hcounts, hstart] at hstart'
    cases hstart'
    rw [hp, ← hcounts, ← hlines, ← Nat.add_sub_cancel_left (n := start) (m := column), ← hcolumns]

/-! ### Columns in UTF-16 units -/

lemma exists_of_mem_linesAfter {pos : Nat} {s : Text} (h : pos + s.size ≤ Offset.limit) :
    ∀ l ∈ linesAfter pos s, ∃ before, s = before ++ l.rest ∧ l.start = pos + before.size := by
  induction s generalizing pos with
  | nil => simp [linesAfter]
  | cons c s ih =>
    rw [Text.size_cons, ← Nat.add_assoc] at h
    have hrest (l : Line) (hl : l ∈ linesAfter (pos + c.utf8Size) s) :
        ∃ before : Text, c :: s = before ++ l.rest ∧ l.start = pos + before.size := by
      obtain ⟨before, hs, hstart⟩ := ih h l hl
      exact ⟨c :: before, by rw [List.cons_append, ← hs], by rw [hstart, Text.size_cons]; omega⟩
    rw [linesAfter]
    split
    · refine List.forall_mem_cons.mpr ⟨⟨[c], rfl, ?_⟩, hrest⟩
      rw [Offset.ofIndex_eq (by omega)]
      simp
    · exact hrest

lemma exists_of_mem_lines (h : text.size ≤ Offset.limit) {l : Line}
    (hl : l ∈ (ofText text).lines.toList) :
    ∃ before, text = before ++ l.rest ∧ l.start = before.size := by
  rcases List.mem_cons.mp hl with rfl | hl
  · exact ⟨[], rfl, rfl⟩
  · obtain ⟨before, hs, hstart⟩ := exists_of_mem_linesAfter (by simpa using h) l hl
    exact ⟨before, hs, by simpa using hstart⟩

lemma exists_line (h : text.size ≤ Offset.limit) {o : Nat} {p : Position}
    (hp : (ofText text).position? o = some p) :
    ∃ l, (ofText text).lines[p.line]? = some l ∧ text.Boundary (o - p.column) ∧
      text.slice? (o - p.column) o = l.rest.takeBytes p.column := by
  obtain ⟨start, hstart, hle, hcolumn⟩ := exists_lineStart hp
  obtain ⟨l, hl, rfl⟩ := Option.map_eq_some_iff.mp hstart
  have hmem : l ∈ (ofText text).lines.toList := by
    rw [← Array.getElem?_toList] at hl
    exact List.mem_of_getElem? hl
  obtain ⟨before, htext, hbefore⟩ := exists_of_mem_lines h hmem
  have hsub : o - p.column = before.size := by omega
  refine ⟨l, hl, ⟨before, l.rest, htext, hsub⟩, ?_⟩
  have hdrop : text.dropBytes before.size = some l.rest := by
    conv_lhs => rw [htext]
    exact Text.dropBytes_size_append before l.rest
  rw [hsub, Text.slice?, if_pos (by omega), hdrop, hcolumn, hbefore]
  rfl

lemma unitPosition?_eq_map (h : text.size ≤ Offset.limit) {o : Nat} {p : Position}
    (hp : (ofText text).position? o = some p) :
    (ofText text).unitPosition? o =
      (text.slice? (o - p.column) o).map fun t => ⟨p.line, t.units⟩ := by
  obtain ⟨l, hl, -, hslice⟩ := exists_line h hp
  rw [unitPosition?_eq_units, hp, hslice, Option.bind_some, hl, Option.bind_some]

lemma unitPosition?_isSome_iff (h : text.size ≤ Offset.limit) (o : Nat) :
    (∃ q, (ofText text).unitPosition? o = some q) ↔ text.Boundary o := by
  constructor
  · rintro ⟨q, hq⟩
    cases hp : (ofText text).position? o with
    | none => simp [unitPosition?, hp] at hq
    | some p =>
      rw [unitPosition?_eq_map h hp] at hq
      obtain ⟨t, ht, -⟩ := Option.map_eq_some_iff.mp hq
      exact Span.Fits.stop_boundary (s := ⟨o - p.column, o⟩) ⟨t, ht⟩
  · exact exists_unitPosition? h

/-! ### The index as a whole -/

/-- What an index says about a text is there, in both directions. -/
structure Exact (i : LineIndex) (text : Text) : Prop where
  /-- The line is the number of line feeds before the offset, and the column the number of bytes
  behind the last of them. -/
  position : ∀ o, i.position? o = if o ≤ text.size then
    some ⟨(text.bytes.take o).count lineFeed,
      o - ((text.bytes.take o).rdropWhile (· != lineFeed)).length⟩ else none
  offset_position : ∀ o p, i.position? o = some p → i.offset? p = .ok (some o)
  increasing : ∀ o o' p p', i.position? o = some p → i.position? o' = some p' → o < o' → p < p'
  lines : ∀ line start, i.lineStart? line = some start ↔
    IsLineStart text.bytes start ∧ (text.bytes.take start).count lineFeed = line
  /-- A line ends before its line feed, and the last one with the text. -/
  position_offset : ∀ line start column, i.lineStart? line = some start →
    start + column ≤ Offset.limit →
    i.offset? ⟨line, column⟩ = .ok (some (start + column)) ∧
      (i.position? (start + column) = some ⟨line, column⟩ ↔
        start + column ≤ Text.nextBreak text.bytes start)
  units_boundary : ∀ o, (∃ q, i.unitPosition? o = some q) ↔ text.Boundary o
  units : ∀ o p q, i.position? o = some p → i.unitPosition? o = some q →
    q.line = p.line ∧ ∃ t, text.slice? (o - p.column) o = some t ∧ q.column = t.units
  between_sorted : ∀ start stop, (i.startsBetween start stop).Pairwise (· < ·)
  mem_between : ∀ start stop n, n ∈ i.startsBetween start stop ↔
    start < n ∧ n < stop ∧ IsLineStart text.bytes n

/-- **Lines and columns are exact**, in bytes and in UTF-16 units, and so are the starts of
lines. -/
theorem ofText_exact (h : text.size ≤ Offset.limit) : (ofText text).Exact text where
  position := position?_eq_ite h
  offset_position _ _ hp := offset?_position? h hp
  increasing _ _ _ _ hp hp' hlt := position?_lt h hp hp' hlt
  lines _ _ := lineStart?_eq_some_iff h
  position_offset line start column hstart hlimit := by
    refine ⟨?_, position?_eq_some_iff h hstart column⟩
    have hadd : Offset.add start column = .ok (start + column) :=
      Offset.add_eq_ok_iff.mpr ⟨rfl, hlimit⟩
    simp only [offset?, hstart, hadd]
    rfl
  units_boundary := unitPosition?_isSome_iff h
  units o p q hp hq := by
    rw [unitPosition?_eq_map h hp] at hq
    obtain ⟨t, ht, rfl⟩ := Option.map_eq_some_iff.mp hq
    exact ⟨rfl, t, ht, rfl⟩
  between_sorted := startsBetween_pairwise h
  mem_between start stop n := by
    rw [mem_startsBetween h, isLineStart_iff h]
    constructor
    · rintro ⟨hlt, hstop, hline⟩
      exact ⟨hlt, hstop, .inr hline⟩
    · rintro ⟨hlt, hstop, hline⟩
      -- a start behind another offset is not that of the first line
      exact ⟨hlt, hstop, hline.resolve_left (by omega)⟩

/-- Two lines, with a character of two bytes on the first and one of four bytes on the second. -/
def wideLines : Text := ['é', '\n', '😀', 'b']

theorem ofText_exact_wideLines :
    wideLines.size ≤ Offset.limit ∧ (ofText wideLines).Exact wideLines ∧
      (ofText wideLines).position? 5 = some ⟨1, 2⟩ ∧
      ¬ (∃ q, (ofText wideLines).unitPosition? 5 = some q) ∧
      3 ∈ (ofText wideLines).startsBetween 1 7 := by
  have hsize : wideLines.size ≤ Offset.limit := by decide
  have hexact : (ofText wideLines).Exact wideLines := ofText_exact hsize
  refine ⟨hsize, hexact, (hexact.position 5).trans (by decide), ?_, ?_⟩
  · rw [hexact.units_boundary]
    rintro ⟨before, after, htext, hfive⟩
    have hdrop := Text.dropBytes_size_append before after
    have hnone : Text.dropBytes 5 wideLines = none := by decide
    rw [← htext, ← hfive, hnone] at hdrop
    cases hdrop
  · exact (hexact.mem_between 1 7 3).mpr ⟨by decide, by decide, .inr ⟨2, by decide, rfl⟩⟩

end LineIndex

end TsxLowering
