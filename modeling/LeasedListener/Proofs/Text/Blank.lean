import LeasedListener.Text.Blank
import LeasedListener.Proofs.Text.Decimal
import Mathlib.Data.List.DropRight

/-!
# Trimmed texts

Trimming takes the white space from the two ends of a text, and only that: a
text that neither begins nor ends with white space is left alone, and nothing
is left of a text that is all white space.
-/

namespace LeasedListener

variable {c : Char} {text : List Char}

theorem isBlank_of_isDigit (h : c.isDigit = true) : isBlank c = false := by
  obtain ⟨hlow, hhigh⟩ := digit_bounds h
  rw [Bool.eq_false_iff]
  intro hblank
  simp [isBlank, blankRanges] at hblank
  omega

theorem trimStart_cons (h : isBlank c = false) : trimStart (c :: text) = c :: text :=
  List.dropWhile_cons_of_neg (by simp [h])

structure IsTrimmed (text : List Char) : Prop where
  start : ∀ c, text.head? = some c → isBlank c = false
  finish : ∀ c, text.getLast? = some c → isBlank c = false

theorem trimStart_eq_self (h : ∀ c, text.head? = some c → isBlank c = false) :
    trimStart text = text := by
  cases text with
  | nil => rfl
  | cons c rest => exact trimStart_cons (h c rfl)

theorem trimEnd_eq_self (h : ∀ c, text.getLast? = some c → isBlank c = false) :
    trimEnd text = text := by
  have hreverse : trimStart text.reverse = text.reverse := by
    apply trimStart_eq_self
    intro c hc
    rw [List.head?_reverse] at hc
    exact h c hc
  rw [trimEnd, ← trimStart, hreverse, List.reverse_reverse]

theorem IsTrimmed.trimBlanks_eq (h : IsTrimmed text) : trimBlanks text = text := by
  rw [trimBlanks, trimStart_eq_self h.start, trimEnd_eq_self h.finish]

theorem trimBlanks_eq_self (h : ∀ c ∈ text, isBlank c = false) : trimBlanks text = text := by
  have htrimmed : IsTrimmed text :=
    ⟨fun c hc => h c (List.mem_of_mem_head? hc), fun c hc => h c (List.mem_of_getLast? hc)⟩
  exact htrimmed.trimBlanks_eq

theorem isBlank_of_head?_trimStart (h : (trimStart text).head? = some c) : isBlank c = false := by
  have hfirst := List.head?_dropWhile_not isBlank text
  rw [← trimStart, h] at hfirst
  exact hfirst

theorem isTrimmed_trimBlanks (text : List Char) : IsTrimmed (trimBlanks text) := by
  constructor
  case start =>
      intro c hc
      obtain ⟨rest, hrest⟩ : trimBlanks text <+: trimStart text :=
        List.rdropWhile_prefix isBlank (trimStart text)
      have hhead : (trimStart text).head? = some c := by
        rw [← hrest, List.head?_append, hc]
        rfl
      exact isBlank_of_head?_trimStart hhead
  case finish =>
      intro c hc
      rw [trimBlanks, trimEnd, List.getLast?_reverse] at hc
      exact isBlank_of_head?_trimStart hc

theorem isTrimmed_iff : IsTrimmed text ↔ trimBlanks text = text := by
  constructor
  · exact IsTrimmed.trimBlanks_eq
  · intro h
    rw [← h]
    exact isTrimmed_trimBlanks text

theorem trimBlanks_subset (text : List Char) : trimBlanks text ⊆ text := by
  intro c hmem
  have hstart : c ∈ trimStart text := (List.rdropWhile_prefix isBlank (trimStart text)).mem hmem
  exact (List.dropWhile_suffix isBlank).mem hstart

theorem trimBlanks_eq_nil_iff : trimBlanks text = [] ↔ ∀ c ∈ text, isBlank c = true := by
  have hend : trimBlanks text = [] ↔ ∀ c ∈ trimStart text, isBlank c = true :=
    List.rdropWhile_eq_nil_iff
  have hstart : trimStart text = [] ↔ ∀ c ∈ text, isBlank c = true := List.dropWhile_eq_nil_iff
  rw [hend, ← hstart]
  constructor
  · intro hall
    by_contra hsome
    obtain ⟨c, rest, hcons⟩ := List.exists_cons_of_ne_nil hsome
    have hblank : isBlank c = true := hall c (by simp [hcons])
    have hplain : isBlank c = false := isBlank_of_head?_trimStart (by rw [hcons]; rfl)
    simp [hplain] at hblank
  · intro hnone
    simp [hnone]

end LeasedListener
