import Mathlib.Tactic.Lemma
import TsxLowering.Code.Scan

/-!
The character at which a scan of code ends.

The outermost frame of a scan keeps its closing character through every step, and the step that
ends the scan has met that character.
-/

namespace TsxLowering.Code

/-- The character that closes the outermost frame, where that is code or a template. -/
def closer : List Frame → Option Char
  | [] => none
  | [.code close _ _] => some close
  | [.template] => some '`'
  | [_] => none
  | _ :: frame :: outer => closer (frame :: outer)

lemma closer_cons {frame : Frame} {outer : List Frame} (h : outer ≠ []) :
    closer (frame :: outer) = closer outer := by
  cases outer with
  | nil => exact absurd rfl h
  | cons f fs => simp [closer]

lemma closer_code (close : Char) (depth depth' : Nat) (prev prev' : Char) (outer : List Frame) :
    closer (.code close depth prev :: outer) = closer (.code close depth' prev' :: outer) := by
  cases outer <;> simp [closer]

/-- The closing character after a step, for the steps that do not end the scan. -/
def Step.Keeps (frames : List Frame) (c : Char) : Step → Prop
  | .found => closer frames = some c
  | .unclosed => True
  | .go _ frames' => ∀ x, closer frames = some x → closer frames' = some x

lemma go_push_keeps {frame : Frame} {frames : List Frame} {n : Nat} {c : Char} (h : frames ≠ []) :
    (Step.go n (frame :: frames)).Keeps frames c := by
  intro x hx
  rwa [closer_cons h]

lemma leave_keeps {frame : Frame} {outer : List Frame} {c : Char}
    (h : closer [frame] = some c) : (leave outer).Keeps (frame :: outer) c := by
  cases outer with
  | nil => exact h
  | cons f fs => intro x hx; simpa [closer] using hx

lemma go_code_keeps {close prev p c : Char} {depth n d : Nat} {outer : List Frame} :
    (Step.go n (.code close d p :: outer)).Keeps (.code close depth prev :: outer) c := by
  intro x hx
  rwa [closer_code close d depth p prev]

lemma go_inside_code_keeps {close prev p c : Char} {depth n d : Nat} {frame : Frame}
    {outer : List Frame} :
    (Step.go n (frame :: .code close d p :: outer)).Keeps (.code close depth prev :: outer) c := by
  intro x hx
  rwa [closer_cons (by simp), closer_code close d depth p prev]

lemma codeStep_keeps (close : Char) (depth : Nat) (prev : Char) (outer : List Frame)
    (before : Text) (c : Char) (rest : Text) :
    (codeStep close depth prev outer before c rest).Keeps (.code close depth prev :: outer) c := by
  unfold codeStep
  dsimp only
  split
  · split
    · exact go_code_keeps
    · trivial
  · split
    · exact go_code_keeps
    · trivial
  · exact go_inside_code_keeps
  · split
    · exact go_inside_code_keeps
    · exact go_code_keeps
  · split
    · exact go_code_keeps
    · split
      · exact go_code_keeps
      · trivial
    · split
      · split
        · exact go_code_keeps
        · exact go_code_keeps
      · exact go_code_keeps
  iterate 3
    · exact go_code_keeps
  -- a closing bracket ends no frame but the one it stands in
  iterate 3
    · split
      · split
        · next h => exact leave_keeps (congrArg some h.symm)
        · exact go_code_keeps
      · exact go_code_keeps
  · exact go_code_keeps

lemma templateStep_keeps (outer : List Frame) (c : Char) (rest : Text) :
    (templateStep outer c rest).Keeps (.template :: outer) c := by
  unfold templateStep
  split
  · exact fun x hx => hx
  · exact leave_keeps rfl
  · exact go_push_keeps (by simp)
  · exact fun x hx => hx

/-- Markup and tags are never outermost, so what is left below them decides. -/
lemma closer_of_inner {frame : Frame} {outer : List Frame} {x : Char}
    (hframe : closer [frame] = none) (h : closer (frame :: outer) = some x) :
    outer ≠ [] ∧ closer outer = some x := by
  cases outer with
  | nil => rw [hframe] at h; cases h
  | cons f fs => exact ⟨by simp, by rwa [closer_cons (by simp)] at h⟩

lemma go_replace_keeps {frame frame' : Frame} {outer : List Frame} {n : Nat} {c : Char}
    (hframe : closer [frame] = none) :
    (Step.go n (frame' :: outer)).Keeps (frame :: outer) c := by
  intro x hx
  obtain ⟨hne, hx⟩ := closer_of_inner hframe hx
  rwa [closer_cons hne]

lemma afterTag_keeps {role : TagRole} {selfClosing : Bool} {depth n : Nat} {outer : List Frame}
    {c : Char} :
    (Step.go n (afterTag role selfClosing depth outer)).Keeps (.tag role depth :: outer) c := by
  have hdrop : (Step.go n outer).Keeps (.tag role depth :: outer) c :=
    fun x hx => (closer_of_inner rfl hx).2
  unfold afterTag
  split
  · exact go_replace_keeps rfl
  · split
    · exact hdrop
    · exact go_replace_keeps rfl
  · split
    · exact hdrop
    · exact go_replace_keeps rfl

lemma tagStep_keeps (role : TagRole) (depth : Nat) (outer : List Frame) (c : Char) (rest : Text) :
    (tagStep role depth outer c rest).Keeps (.tag role depth :: outer) c := by
  unfold tagStep
  split
  iterate 2
    · split
      · exact go_replace_keeps rfl
      · trivial
  · exact go_push_keeps (by simp)
  · exact go_push_keeps (by simp)
  · exact afterTag_keeps
  · exact afterTag_keeps
  · exact go_replace_keeps rfl

lemma markupStep_keeps (depth : Nat) (outer : List Frame) (before : Text) (c : Char)
    (rest : Text) :
    (markupStep depth outer before c rest).Keeps (.markup depth :: outer) c := by
  unfold markupStep
  split
  · exact go_push_keeps (by simp)
  · split
    · -- a closing brace leaves the markup to the code around it
      next close d prev outer =>
      have h := codeStep_keeps close d prev outer before '\x7d' rest
      generalize codeStep close d prev outer before '\x7d' rest = s at h
      cases s with
      | found => rwa [Step.Keeps, closer_cons (by simp)]
      | unclosed => trivial
      | go n frames => exact fun x hx => h x (by rwa [closer_cons (by simp)] at hx)
    · trivial
  · split
    · exact go_replace_keeps rfl
    · trivial
  · split
    · exact go_replace_keeps rfl
    · exact go_replace_keeps rfl
  · split
    · exact go_replace_keeps rfl
    · exact go_replace_keeps rfl
  · exact go_replace_keeps rfl

lemma step_keeps (frames : List Frame) (before : Text) (c : Char) (rest : Text) :
    (step frames before c rest).Keeps frames c := by
  unfold step
  split
  · trivial
  · exact codeStep_keeps ..
  · exact templateStep_keeps ..
  · exact markupStep_keeps ..
  · exact tagStep_keeps ..

/-- **Where a scan ends**: at the character that closes its outermost frame, with all before it
given back. -/
theorem run_ends_at_closer {skip : Nat} {frames : List Frame} {before s inner rest : Text}
    {x : Char} (hx : closer frames = some x) (h : run skip frames before s = some (inner, rest)) :
    ∃ t, inner = before.reverse ++ t ∧ s = t ++ x :: rest := by
  induction s generalizing skip frames before with
  | nil => simp [run] at h
  | cons c s ih =>
    cases skip with
    | succ skip =>
      obtain ⟨t, rfl, rfl⟩ := ih hx (by simpa [run] using h)
      exact ⟨c :: t, by simp, by simp⟩
    | zero =>
      -- the outermost frame is closed by the same character after each step
      have hkeeps := step_keeps frames before c s
      simp only [run] at h
      split at h <;> rename_i hstep <;> rw [hstep] at hkeeps
      · cases h
        obtain rfl : c = x := Option.some.inj (hkeeps.symm.trans hx)
        exact ⟨[], by simp, rfl⟩
      · cases h
      · obtain ⟨t, rfl, rfl⟩ := ih (hkeeps x hx) h
        exact ⟨c :: t, by simp, by simp⟩

lemma append_of_split {close : Char} {s inner rest : Text}
    (h : split close s = some (inner, rest)) : s = inner ++ close :: rest := by
  obtain ⟨t, rfl, rfl⟩ := run_ends_at_closer rfl h
  rfl

lemma append_of_splitTemplate {s inner rest : Text}
    (h : splitTemplate s = some (inner, rest)) : s = inner ++ '`' :: rest := by
  obtain ⟨t, rfl, rfl⟩ := run_ends_at_closer rfl h
  rfl

end TsxLowering.Code
