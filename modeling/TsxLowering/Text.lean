/-!
Texts, and byte positions in them.

A text is the list of its characters. A position is a byte offset into the UTF-8 form, so a
text can be cut at a position only where one character ends and the next begins.
-/

namespace TsxLowering

abbrev Text := List Char

namespace Text

/-- The number of bytes in the UTF-8 form. -/
def size : Text → Nat
  | [] => 0
  | c :: s => c.utf8Size + size s

@[simp] theorem size_nil : size [] = 0 := rfl

@[simp] theorem size_cons (c : Char) (s : Text) : size (c :: s) = c.utf8Size + size s := rfl

@[simp] theorem size_append (s t : Text) : size (s ++ t) = size s + size t := by
  induction s with
  | nil => simp
  | cons c s ih => simp [ih, Nat.add_assoc]

theorem length_le_size (s : Text) : s.length ≤ size s := by
  induction s with
  | nil => simp
  | cons c s ih =>
    have := c.utf8Size_pos
    simp only [List.length_cons, size_cons]
    omega

/-- The number of code units in the UTF-16 form. -/
def units : Text → Nat
  | [] => 0
  | c :: s => (if c.toNat < 0x10000 then 1 else 2) + units s

def isAscii (s : Text) : Bool := s.all (·.toNat < 0x80)

/-- The text from byte offset `n` on, when that is a boundary between characters. -/
def dropBytes (n : Nat) : Text → Option Text
  | [] => if n = 0 then some [] else none
  | c :: s =>
    if n = 0 then some (c :: s)
    else if c.utf8Size ≤ n then dropBytes (n - c.utf8Size) s
    else none

/-- The text up to byte offset `n`, when that is a boundary between characters. -/
def takeBytes (n : Nat) : Text → Option Text
  | [] => if n = 0 then some [] else none
  | c :: s =>
    if n = 0 then some []
    else if c.utf8Size ≤ n then (takeBytes (n - c.utf8Size) s).map (c :: ·)
    else none

/-- The text between two byte offsets; none when they are out of order, out of range or inside
a character. -/
def slice? (s : Text) (start stop : Nat) : Option Text :=
  if start ≤ stop then (dropBytes start s).bind (takeBytes (stop - start)) else none

@[simp] theorem dropBytes_zero (s : Text) : dropBytes 0 s = some s := by
  cases s <;> simp [dropBytes]

@[simp] theorem takeBytes_zero (s : Text) : takeBytes 0 s = some [] := by
  cases s <;> simp [takeBytes]

@[simp] theorem dropBytes_size_append (s t : Text) : dropBytes (size s) (s ++ t) = some t := by
  induction s with
  | nil => simp
  | cons c s ih =>
    have := Nat.ne_of_gt c.utf8Size_pos
    simp [dropBytes, ih, this]

@[simp] theorem takeBytes_size_append (s t : Text) : takeBytes (size s) (s ++ t) = some s := by
  induction s with
  | nil => simp
  | cons c s ih =>
    have := Nat.ne_of_gt c.utf8Size_pos
    simp [takeBytes, ih, this]

theorem slice?_append (s t u : Text) :
    slice? (s ++ t ++ u) (size s) (size s + size t) = some t := by
  simp [slice?, List.append_assoc]

/-- The text before the first occurrence of `pattern` and the text after it. -/
def splitOnce (s pattern : Text) : Option (Text × Text) :=
  match pattern.isPrefixOf? s with
  | some rest => some ([], rest)
  | none =>
    match s with
    | [] => none
    | c :: s => (splitOnce s pattern).map fun (before, rest) => (c :: before, rest)

/-- The same letters, upper and lower case ASCII letters taken as one. -/
def sameIgnoringCase (s t : Text) : Bool :=
  s.map Char.toLower == t.map Char.toLower

end Text

end TsxLowering
