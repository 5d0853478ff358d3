import Mathlib.Data.List.Basic
import TsxLowering.Encoding.JsonString

/-!
Reading JSON, as a one-pass scan.

The scan keeps what is open around the place that it has reached: the items and fields read so far
of every array and object. Main statement: a text comes back from its JSON string, whatever
characters it has.
-/

namespace TsxLowering

/-- A JSON value. Numbers and the three names are kept as they are written. -/
inductive Json where
  | word (text : Text)
  | string (text : Text)
  | array (items : List Json)
  | object (fields : List (Text × Json))

namespace Json

/-! ### Strings -/

def hexValue? (c : Char) : Option Nat :=
  if '0' ≤ c ∧ c ≤ '9' then some (c.toNat - '0'.toNat)
  else if 'a' ≤ c ∧ c ≤ 'f' then some (c.toNat - 'a'.toNat + 10)
  else if 'A' ≤ c ∧ c ≤ 'F' then some (c.toNat - 'A'.toNat + 10)
  else none

/-- The character that a backslash and another character stand for. -/
def escaped? : Char → Option Char
  | '"' => some '"'
  | '\\' => some '\\'
  | '/' => some '/'
  | 'b' => some '\x08'
  | 'f' => some '\x0c'
  | 'n' => some '\n'
  | 'r' => some '\r'
  | 't' => some '\t'
  | _ => none

inductive Escape where
  | outside
  /-- Behind the backslash. -/
  | opened
  /-- Behind some of the four hexadecimal digits of a code unit. -/
  | unit (digits value : Nat)

/-- The inside of a string as far as it is read. A code unit that is the first half of a character
waits for the other one. -/
structure Literal where
  text : Text
  half : Option Nat
  escape : Escape

namespace Literal

def ofText (t : Text) : Literal := ⟨t, none, .outside⟩

def pushUnit (l : Literal) (u : Nat) : Option Literal :=
  match l.half with
  | none =>
    if 0xD800 ≤ u ∧ u < 0xDC00 then some ⟨l.text, some u, .outside⟩
    else if 0xDC00 ≤ u ∧ u < 0xE000 then none
    else some (ofText (l.text ++ [Char.ofNat u]))
  | some h =>
    if 0xDC00 ≤ u ∧ u < 0xE000 then
      some (ofText (l.text ++ [Char.ofNat (0x10000 + (h - 0xD800) * 0x400 + (u - 0xDC00))]))
    else none

def step (l : Literal) (c : Char) : Option Literal :=
  match l.escape with
  | .outside =>
    if c = '\\' then some { l with escape := .opened }
    else if c.toNat < 0x20 ∨ l.half.isSome then none
    else some { l with text := l.text ++ [c] }
  | .opened =>
    if c = 'u' then some { l with escape := .unit 0 0 }
    else if l.half.isSome then none
    else (escaped? c).map fun d => ofText (l.text ++ [d])
  | .unit digits value => do
    let value := 16 * value + (← hexValue? c)
    if digits = 3 then l.pushUnit value else some { l with escape := .unit (digits + 1) value }

def endsAt (l : Literal) (c : Char) : Bool :=
  match l.escape, l.half with
  | .outside, none => c = '"'
  | _, _ => false

end Literal

/-! ### Values -/

/-- An array or object around a value, with what stands before the value. -/
inductive Frame where
  | array (items : List Json)
  | object (fields : List (Text × Json)) (name : Text)

/-- What the scan is about to read, or has just read. -/
inductive Mode where
  | value
  | name (fields : List (Text × Json))
  | nameText (fields : List (Text × Json)) (l : Literal)
  | colon (fields : List (Text × Json)) (name : Text)
  | text (l : Literal)
  | word (w : Text)
  | done (v : Json)

structure Scan where
  stack : List Frame
  mode : Mode

def isBlank (c : Char) : Bool := c = ' ' || c = '\t' || c = '\n' || c = '\r'

def isWord (c : Char) : Bool := c.isAlphanum || c = '+' || c = '-' || c = '.'

/-- At the start of a value. An array that was just opened may be closed instead. -/
def stepValue (stack : List Frame) (c : Char) : Option Scan :=
  if isBlank c then some ⟨stack, .value⟩
  else if isWord c then some ⟨stack, .word [c]⟩
  else match c, stack with
    | '"', _ => some ⟨stack, .text (.ofText [])⟩
    | '[', _ => some ⟨.array [] :: stack, .value⟩
    | '\x7b', _ => some ⟨stack, .name []⟩
    | ']', .array [] :: stack => some ⟨stack, .done (.array [])⟩
    | _, _ => none

/-- Behind a value. -/
def stepDone (v : Json) (stack : List Frame) (c : Char) : Option Scan :=
  if isBlank c then some ⟨stack, .done v⟩
  else match stack, c with
    | .array items :: stack, ',' => some ⟨.array (items ++ [v]) :: stack, .value⟩
    | .array items :: stack, ']' => some ⟨stack, .done (.array (items ++ [v]))⟩
    | .object fields name :: stack, ',' => some ⟨stack, .name (fields ++ [(name, v)])⟩
    | .object fields name :: stack, '\x7d' => some ⟨stack, .done (.object (fields ++ [(name, v)]))⟩
    | _, _ => none

def stepText (l : Literal) (c : Char) (inside : Literal → Mode) (behind : Text → Mode) :
    Option Mode :=
  if l.endsAt c then some (behind l.text) else (l.step c).map inside

def step (s : Scan) (c : Char) : Option Scan :=
  match s.mode with
  | .value => stepValue s.stack c
  | .name fields =>
    if isBlank c then some s
    else if c = '"' then some ⟨s.stack, .nameText fields (.ofText [])⟩
    else if c = '\x7d' ∧ fields = [] then some ⟨s.stack, .done (.object [])⟩
    else none
  | .nameText fields l => (stepText l c (.nameText fields) (.colon fields)).map (⟨s.stack, ·⟩)
  | .colon fields name =>
    if isBlank c then some s
    else if c = ':' then some ⟨.object fields name :: s.stack, .value⟩
    else none
  | .text l => (stepText l c .text (.done ∘ .string)).map (⟨s.stack, ·⟩)
  | .word w => if isWord c then some ⟨s.stack, .word (w ++ [c])⟩ else stepDone (.word w) s.stack c
  | .done v => stepDone v s.stack c

def run (s : Scan) (t : Text) : Option Scan := t.foldlM step s

/-- The value of a text that holds one JSON value and nothing else. -/
def read? (t : Text) : Option Json :=
  match run ⟨[], .value⟩ t with
  | some ⟨[], .done v⟩ => some v
  | some ⟨[], .word w⟩ => some (.word w)
  | _ => none

@[simp] lemma run_nil (s : Scan) : run s [] = some s := rfl

@[simp] lemma run_cons (s : Scan) (c : Char) (t : Text) :
    run s (c :: t) = (step s c).bind (run · t) := rfl

lemma run_append (s : Scan) (t u : Text) : run s (t ++ u) = (run s t).bind (run · u) := by
  simp [run, List.foldlM_append]

/-! ### Written strings -/

lemma hexValue?_hexDigit {n : Nat} (h : n < 16) : hexValue? (JsonString.hexDigit n) = some n := by
  revert n
  decide

lemma escape_cases (c : Char) :
    (c ≠ '"' ∧ c ≠ '\\' ∧ ¬ c.toNat < 0x20 ∧ JsonString.escape c = [c]) ∨
    (∃ e, e ≠ 'u' ∧ escaped? e = some c ∧ JsonString.escape c = ['\\', e]) ∨
    (c.toNat < 0x20 ∧ JsonString.escape c = ['\\', 'u', '0', '0',
      JsonString.hexDigit (c.toNat / 16), JsonString.hexDigit (c.toNat % 16)]) := by
  unfold JsonString.escape
  split
  iterate 7 exact .inr (.inl ⟨_, by decide, rfl, rfl⟩)
  next hquote hbackslash _ _ _ _ _ =>
    split
    · next hcontrol => exact .inr (.inr ⟨hcontrol, rfl⟩)
    · next hcontrol => exact .inl ⟨hquote, hbackslash, hcontrol, rfl⟩

lemma run_escape (stack : List Frame) (t : Text) (c : Char) :
    run ⟨stack, .text (.ofText t)⟩ (JsonString.escape c) =
      some ⟨stack, .text (.ofText (t ++ [c]))⟩ := by
  rcases escape_cases c with ⟨hquote, hbackslash, hcontrol, h⟩ | ⟨e, he, hc, h⟩ | ⟨hcontrol, h⟩
  · simp [h, step, stepText, Literal.endsAt, Literal.step, Literal.ofText, hquote, hbackslash,
      hcontrol]
  · simp [h, step, stepText, Literal.endsAt, Literal.step, Literal.ofText, he, hc]
  · have hhigh := hexValue?_hexDigit (n := c.toNat / 16) (by omega)
    have hlow := hexValue?_hexDigit (n := c.toNat % 16) (by omega)
    have hzero : hexValue? '0' = some 0 := rfl
    have hvalue : 16 * (c.toNat / 16) + c.toNat % 16 = c.toNat := Nat.div_add_mod _ _
    have hhalf : ¬ 0xD800 ≤ c.toNat := by omega
    have hsecond : ¬ 0xDC00 ≤ c.toNat := by omega
    simp [h, step, stepText, Literal.endsAt, Literal.step, Literal.ofText, Literal.pushUnit, hhigh,
      hlow, hzero, hvalue, hhalf, hsecond]

lemma run_escapes (stack : List Frame) (t s : Text) :
    run ⟨stack, .text (.ofText t)⟩ (s.flatMap JsonString.escape) =
      some ⟨stack, .text (.ofText (t ++ s))⟩ := by
  induction s generalizing t with
  | nil => simp
  | cons c s ih => rw [List.flatMap_cons, run_append, run_escape, Option.bind_some, ih]; simp

/-- **A text comes back from its JSON string**, wherever the string stands. -/
theorem run_encode (stack : List Frame) (s : Text) :
    run ⟨stack, .value⟩ (JsonString.encode s) = some ⟨stack, .done (.string s)⟩ := by
  have hopen : step ⟨stack, .value⟩ '"' = some ⟨stack, .text (.ofText [])⟩ := rfl
  rw [JsonString.encode, List.cons_append, run_cons, hopen, Option.bind_some, run_append,
    run_escapes]
  rfl

end Json

end TsxLowering
