import Mathlib.Data.List.TakeWhile
import TsxLowering.Emission.AttributeName

/-!
Tables of code points, compared with each other range by range.

A check goes through whole tables, so its comparisons are those of `Nat` that the kernel computes.
Main statement: `isIdentifierPart_of_isIdentifierStart`.
-/

namespace TsxLowering.Unicode

open NameClass

/-- One of the ranges holds all code points from `first` to `last`. -/
def Ranges.covers (r : Ranges) (first last : Nat) : Bool :=
  r.any fun range => Nat.ble last range.2 && Nat.ble range.1 first

/-- No range holds a code point from `first` to `last`. -/
def Ranges.isApart (r : Ranges) (first last : Nat) : Bool :=
  r.all fun range => Nat.blt range.2 first || Nat.blt last range.1

/-- The ranges hold code points of characters only. -/
def Ranges.isOfChars (r : Ranges) : Bool :=
  r.all fun range =>
    Nat.blt range.2 0xD800 || (Nat.blt 0xDFFF range.1 && Nat.blt range.2 0x110000)

/-- The parts that are left when each range in turn takes those it covers from the front. -/
def Ranges.sweep : Ranges → Ranges → Ranges
  | [], parts => parts
  | range :: r, parts =>
    sweep r (parts.dropWhile fun part => Nat.ble range.1 part.1 && Nat.ble part.2 range.2)

variable {r parts : Ranges} {first last n : Nat} {c : Char}

lemma Ranges.covers_iff :
    r.covers first last = true ↔ ∃ range ∈ r, range.1 ≤ first ∧ last ≤ range.2 := by
  simp only [covers, List.any_eq_true, Bool.and_eq_true, Nat.ble_eq, and_comm (a := last ≤ _)]

lemma Ranges.contains_iff :
    r.contains c = true ↔ ∃ range ∈ r, range.1 ≤ c.toNat ∧ c.toNat ≤ range.2 := by
  simp only [contains, List.any_eq_true, Bool.and_eq_true, decide_eq_true_eq]

lemma Ranges.contains_of_covers (h : r.covers first last = true) (hfirst : first ≤ c.toNat)
    (hlast : c.toNat ≤ last) : r.contains c = true := by
  obtain ⟨range, hmem, hstart, hstop⟩ := covers_iff.mp h
  exact contains_iff.mpr ⟨range, hmem, hstart.trans hfirst, hlast.trans hstop⟩

lemma Ranges.not_contains_of_isApart (h : r.isApart first last = true) (hfirst : first ≤ c.toNat)
    (hlast : c.toNat ≤ last) : ¬ r.contains c = true := by
  rw [contains_iff]
  rintro ⟨range, hmem, hstart, hstop⟩
  have hrange := List.all_eq_true.mp h range hmem
  simp only [Bool.or_eq_true, Nat.blt_eq] at hrange
  omega

lemma toNat_ofNat_of_isValidChar (h : n.isValidChar) : (Char.ofNat n).toNat = n := by
  rw [Char.ofNat, dif_pos h]
  rfl

lemma Ranges.contains_ofNat (hr : r.isOfChars = true) (h : r.covers first last = true)
    (hfirst : first ≤ n) (hlast : n ≤ last) : r.contains (Char.ofNat n) = true := by
  obtain ⟨range, hmem, hstart, hstop⟩ := covers_iff.mp h
  have hchars := List.all_eq_true.mp hr range hmem
  simp only [Bool.or_eq_true, Bool.and_eq_true, Nat.blt_eq] at hchars
  have hvalid : n.isValidChar := by
    rcases hchars with hlow | ⟨hhigh, hmax⟩
    · exact .inl (by omega)
    · exact .inr ⟨by omega, by omega⟩
  have hcode := toNat_ofNat_of_isValidChar hvalid
  exact contains_of_covers h (hcode.symm ▸ hfirst) (hcode.symm ▸ hlast)

lemma Ranges.covers_of_sweep (h : r.sweep parts = []) : ∀ part ∈ parts,
    r.covers part.1 part.2 = true := by
  induction r generalizing parts with
  | nil => simp [show parts = [] from h]
  | cons range r ih =>
    intro part hpart
    rw [← List.takeWhile_append_dropWhile (l := parts)
      (p := fun part => Nat.ble range.1 part.1 && Nat.ble part.2 range.2)] at hpart
    rcases List.mem_append.mp hpart with htaken | hleft
    · have hrange := List.mem_takeWhile_imp htaken
      simp only [Bool.and_eq_true, Nat.ble_eq] at hrange
      exact covers_iff.mpr ⟨range, List.mem_cons_self, hrange⟩
    · obtain ⟨range', hmem, hcovers⟩ := covers_iff.mp (ih h part hleft)
      exact covers_iff.mpr ⟨range', List.mem_cons_of_mem _ hmem, hcovers⟩

lemma identifierStartRanges_isOfChars : identifierStartRanges.isOfChars = true := by
  decide +kernel

lemma identifierContinueRanges_isOfChars : identifierContinueRanges.isOfChars = true := by
  decide +kernel

lemma isIdentifierPart_of_isIdentifierStart (h : NameClass.isIdentifierStart c = true) :
    isIdentifierPart c = true := by
  have hsweep : identifierContinueRanges.sweep identifierStartRanges = [] := by decide +kernel
  simp only [NameClass.isIdentifierStart, Bool.or_eq_true, beq_iff_eq] at h
  rcases h with (hstart | rfl) | rfl
  · obtain ⟨range, hmem, hfirst, hlast⟩ := Ranges.contains_iff.mp hstart
    have hpart := Ranges.contains_of_covers (Ranges.covers_of_sweep hsweep range hmem) hfirst hlast
    simp [isIdentifierPart, isIdentifierContinue, hpart]
  · decide +kernel
  · decide +kernel

end TsxLowering.Unicode
