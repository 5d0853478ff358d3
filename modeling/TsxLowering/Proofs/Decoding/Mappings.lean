import Mathlib.Tactic.Ring
import TsxLowering.SourceMap.Encoded

/-!
Reading the segments of a map back, as a one-pass scan by the rules of the common format.

Each number of a segment is a difference to the last number of its kind: over the whole map, but
for generated columns, which start at zero on every line. A semicolon ends a line and a comma a
segment, so a segment is known only at the end of the text or at the next of these. Main statement:
what is written for segments whose lines never go back is read as these segments.
-/

namespace TsxLowering

/-! ### Numbers -/

namespace Base64

def value? (c : Char) : Option Nat :=
  if 'A' ≤ c ∧ c ≤ 'Z' then some (c.toNat - 'A'.toNat)
  else if 'a' ≤ c ∧ c ≤ 'z' then some (c.toNat - 'a'.toNat + 26)
  else if '0' ≤ c ∧ c ≤ '9' then some (c.toNat - '0'.toNat + 52)
  else if c = '+' then some 62
  else if c = '/' then some 63
  else none

lemma value?_digit {n : Nat} (h : n < 64) : value? (digit n) = some n := by
  revert n
  decide +kernel

end Base64

namespace Vlq

/-- The integer whose lowest bit is its sign. -/
def signed (n : Nat) : Int := if n % 2 = 1 then -(n / 2 : Nat) else (n / 2 : Nat)

lemma signed_eq (i : Int) : signed (2 * i.natAbs + if i < 0 then 1 else 0) = i := by
  unfold signed
  split <;> split <;> omega

end Vlq

/-! ### The scan -/

namespace DecodedMap

/-- An entry of a map that was read. -/
structure Token where
  generated : Position
  /-- The index of a source, and a position there. -/
  source : Option (Nat × Position)
  /-- The index of a name. -/
  name : Option Nat
  deriving DecidableEq

def Token.ofSegment (s : Segment) : Token := ⟨s.generated, some (0, s.source), none⟩

/-- The last number of each kind. -/
structure Base where
  generated : Position
  sourceIndex : Nat
  source : Position
  nameIndex : Nat

def Base.ofSegment (s : Segment) : Base := ⟨s.generated, 0, s.source, 0⟩

def Base.nextLines (b : Base) (n : Nat) : Base :=
  { b with generated := ⟨b.generated.line + n, if 0 < n then 0 else b.generated.column⟩ }

/-- The number after `n`. There is none below zero. -/
def advance? (n : Nat) (difference : Int) : Option Nat :=
  if 0 ≤ n + difference then some (n + difference).toNat else none

/-- A segment has a generated column, and may have a source with a position, and then a name. -/
def Base.token? (b : Base) : List Int → Option (Base × Token)
  | [column] => do
    let generated : Position := ⟨b.generated.line, ← advance? b.generated.column column⟩
    return (⟨generated, b.sourceIndex, b.source, b.nameIndex⟩, ⟨generated, none, none⟩)
  | column :: index :: sourceLine :: sourceColumn :: name => do
    let generated : Position := ⟨b.generated.line, ← advance? b.generated.column column⟩
    let sourceIndex ← advance? b.sourceIndex index
    let source : Position :=
      ⟨← advance? b.source.line sourceLine, ← advance? b.source.column sourceColumn⟩
    match name with
    | [] =>
      return (⟨generated, sourceIndex, source, b.nameIndex⟩,
        ⟨generated, some (sourceIndex, source), none⟩)
    | [name] => do
      let nameIndex ← advance? b.nameIndex name
      return (⟨generated, sourceIndex, source, nameIndex⟩,
        ⟨generated, some (sourceIndex, source), some nameIndex⟩)
    | _ => none
  | _ => none

structure Scan where
  base : Base
  /-- The numbers so far of the segment that is read. -/
  fields : List Int
  /-- What the digits so far of the next number make. -/
  value : Nat
  /-- How much the next digit counts. -/
  weight : Nat
  tokens : List Token

/-- The scan between two segments. -/
def Scan.between (b : Base) (tokens : List Token) : Scan := ⟨b, [], 0, 1, tokens⟩

def Scan.start : Scan := .between ⟨⟨0, 0⟩, 0, ⟨0, 0⟩, 0⟩ []

/-- The segment that is read has no more digits. -/
def Scan.endSegment (s : Scan) : Option Scan :=
  if s.weight ≠ 1 then none
  else if s.fields = [] then some s
  else (s.base.token? s.fields).map fun (b, t) => .between b (s.tokens ++ [t])

def step (s : Scan) (c : Char) : Option Scan :=
  match Base64.value? c with
  | some d =>
    let value := s.value + d % 32 * s.weight
    if d < 32 then some { s with fields := s.fields ++ [Vlq.signed value], value := 0, weight := 1 }
    else some { s with value := value, weight := 32 * s.weight }
  | none =>
    if c = ',' then s.endSegment
    else if c = ';' then s.endSegment.map fun s => { s with base := s.base.nextLines 1 }
    else none

def run (s : Scan) (t : Text) : Option Scan := t.foldlM step s

/-- The entries of a map. -/
def readMappings? (t : Text) : Option (List Token) := do
  let s ← run .start t
  return (← s.endSegment).tokens

@[simp] lemma run_nil (s : Scan) : run s [] = some s := rfl

@[simp] lemma run_cons (s : Scan) (c : Char) (t : Text) :
    run s (c :: t) = (step s c).bind (run · t) := rfl

lemma run_append (s : Scan) (t u : Text) : run s (t ++ u) = (run s t).bind (run · u) := by
  simp [run, List.foldlM_append]

/-! ### Written numbers -/

variable {b : Base} {s : Scan} {tokens : List Token}

@[simp] lemma advance?_sub (a n : Nat) : advance? n ((a : Int) - n) = some a := by
  have hsum : (n : Int) + (a - n) = a := by omega
  simp [advance?, hsum]

lemma run_digits (b : Base) (fields : List Int) (value weight : Nat) (tokens : List Token)
    (n : Nat) :
    run ⟨b, fields, value, weight, tokens⟩ ((Vlq.digits n).map Base64.digit) =
      some ⟨b, fields ++ [Vlq.signed (value + n * weight)], 0, 1, tokens⟩ := by
  fun_induction Vlq.digits n generalizing value weight with
  | case1 n hn =>
    have hvalue := Base64.value?_digit (n := n) (by omega)
    simp [step, hvalue, hn, Nat.mod_eq_of_lt hn]
  | case2 n hn ih =>
    have hvalue := Base64.value?_digit (n := n % 32 + 32) (by omega)
    have hsum : value + n % 32 * weight + n / 32 * (32 * weight) = value + n * weight := by
      calc value + n % 32 * weight + n / 32 * (32 * weight)
          = value + (32 * (n / 32) + n % 32) * weight := by ring
        _ = value + n * weight := by rw [Nat.div_add_mod]
    simp [step, hvalue, ih, hsum]

/-- **A number comes back** as one more field. -/
lemma run_vlq (b : Base) (fields : List Int) (tokens : List Token) (i : Int) :
    run ⟨b, fields, 0, 1, tokens⟩ (Vlq.encode i) = some ⟨b, fields ++ [i], 0, 1, tokens⟩ := by
  rw [Vlq.encode, run_digits, Nat.zero_add, Nat.mul_one, Vlq.signed_eq]

/-! ### Written segments -/

lemma nextLines_nextLines (b : Base) (m n : Nat) :
    (b.nextLines m).nextLines n = b.nextLines (m + n) := by
  cases n with
  | zero => rfl
  | succ n => simp [Base.nextLines, Nat.add_assoc]

lemma run_semicolons (h : s.endSegment = some (.between b tokens)) (n : Nat) :
    run s (List.replicate (n + 1) ';') = some (.between (b.nextLines (n + 1)) tokens) := by
  have hstep : step s ';' = some (.between (b.nextLines 1) tokens) := by
    have hmap : step s ';' = s.endSegment.map fun s => { s with base := s.base.nextLines 1 } := rfl
    rw [hmap, h]
    rfl
  induction n generalizing s b with
  | zero => rw [List.replicate_one, run_cons, hstep]; rfl
  | succ n ih =>
    rw [List.replicate_succ, run_cons, hstep, Option.bind_some, ih rfl rfl, nextLines_nextLines,
      Nat.add_comm 1]

lemma run_separator (h : s.endSegment = some (.between b tokens)) {first : Bool}
    (hfirst : first = true → s = .between b tokens) (lines : Nat) :
    run s (if 0 < lines then List.replicate lines ';' else if first then [] else [',']) =
      some (.between (b.nextLines lines) tokens) := by
  cases lines with
  | zero =>
    cases first with
    | true => rw [hfirst rfl]; rfl
    | false =>
      have hstep : step s ',' = s.endSegment := rfl
      simp [hstep, h, Base.nextLines]
  | succ n => rw [if_pos n.succ_pos, run_semicolons h]

/-- The four numbers that are written for a segment. -/
def segmentText (prev t : Segment) : Text :=
  let lines := t.generated.line - prev.generated.line
  EncodedMap.difference t.generated.column (if 0 < lines then 0 else prev.generated.column) ++
    Vlq.encode 0 ++ EncodedMap.difference t.source.line prev.source.line ++
    EncodedMap.difference t.source.column prev.source.column

lemma writeSegments_cons (first : Bool) (prev t : Segment) (segments : List Segment) :
    EncodedMap.writeSegments first prev (t :: segments) =
      (if 0 < t.generated.line - prev.generated.line then
        List.replicate (t.generated.line - prev.generated.line) ';'
      else if first then [] else [',']) ++
      (segmentText prev t ++ EncodedMap.writeSegments false t segments) := by
  simp [EncodedMap.writeSegments, segmentText]

lemma run_segmentText {prev t : Segment} (hline : prev.generated.line ≤ t.generated.line)
    (tokens : List Token) :
    ∃ s, run (.between ((Base.ofSegment prev).nextLines
        (t.generated.line - prev.generated.line)) tokens) (segmentText prev t) = some s ∧
      s.endSegment = some (.between (.ofSegment t) (tokens ++ [.ofSegment t])) := by
  unfold segmentText
  simp only [Scan.between, EncodedMap.difference, run_append, run_vlq, Option.bind_some]
  refine ⟨_, rfl, ?_⟩
  have hsum : prev.generated.line + (t.generated.line - prev.generated.line) =
      t.generated.line := by omega
  have hzero : advance? 0 0 = some 0 := rfl
  simp [Scan.endSegment, Scan.between, Base.token?, Base.nextLines, Base.ofSegment, Token.ofSegment,
    hsum, hzero, -Nat.cast_ite]

/-- **Written segments come back**, behind those that were read before. -/
theorem run_writeSegments {segments : List Segment} {prev : Segment} (first : Bool)
    (h : s.endSegment = some (.between (.ofSegment prev) tokens))
    (hfirst : first = true → s = .between (.ofSegment prev) tokens)
    (hlines : (prev :: segments).Pairwise fun t u => t.generated.line ≤ u.generated.line) :
    ∃ r base, run s (EncodedMap.writeSegments first prev segments) = some r ∧
      r.endSegment = some (.between base (tokens ++ segments.map .ofSegment)) := by
  -- the last segment is still open, so the scan is known by what ending that segment gives
  induction segments generalizing s prev first tokens with
  | nil => exact ⟨s, .ofSegment prev, rfl, by simpa using h⟩
  | cons t segments ih =>
    obtain ⟨hprev, hlines⟩ := List.pairwise_cons.mp hlines
    obtain ⟨s', hrun, hend⟩ := run_segmentText (hprev t List.mem_cons_self) tokens
    obtain ⟨r, base, hrest, hr⟩ := ih false hend nofun hlines
    refine ⟨r, base, ?_, by simpa using hr⟩
    rw [writeSegments_cons, run_append, run_separator h hfirst, Option.bind_some, run_append, hrun,
      Option.bind_some, hrest]

/-- **The entries of a written map** are read as its segments. -/
theorem readMappings?_mappings {m : EncodedMap}
    (hlines : m.segments.Pairwise fun t u => t.generated.line ≤ u.generated.line) :
    readMappings? m.mappings = some (m.segments.map .ofSegment) := by
  have hstart : Scan.start.endSegment = some (.between (.ofSegment ⟨⟨0, 0⟩, ⟨0, 0⟩⟩) []) := rfl
  obtain ⟨r, base, hrun, hend⟩ := run_writeSegments true hstart (fun _ => rfl)
    (List.pairwise_cons.mpr ⟨fun _ _ => Nat.zero_le _, hlines⟩)
  unfold EncodedMap.mappings readMappings?
  rw [hrun]
  simp [hend, Scan.between]

end DecodedMap

end TsxLowering
