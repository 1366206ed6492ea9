import LeasedListener.Text.Decimal
import Mathlib.Tactic.IntervalCases

/-!
# Decimal digits

Digits are read as the number that they denote, and a number is read back from
the digits in which it is written.
-/

namespace LeasedListener

variable {c : Char} {text rest : List Char}

theorem digit_bounds (h : c.isDigit = true) : 48 ≤ c.toNat ∧ c.toNat ≤ 57 := by
  simp only [Char.isDigit, Bool.and_eq_true, decide_eq_true_eq] at h
  exact ⟨h.1, h.2⟩

theorem digitValue?_of_isDigit (h : c.isDigit = true) :
    digitValue? c = some (c.toNat - '0'.toNat) := by
  obtain ⟨hlow, hhigh⟩ := digit_bounds h
  exact if_pos ⟨hlow, hhigh⟩

theorem digitsValue?_of_digits (h : ∀ c ∈ text, c.isDigit = true) (total : Nat) :
    digitsValue? total text = some (Nat.ofDigitChars 10 text total) := by
  induction text generalizing total with
  | nil => rfl
  | cons c rest ih =>
      obtain ⟨hdigit, hrest⟩ := List.forall_mem_cons.mp h
      rw [digitsValue?, digitValue?_of_isDigit hdigit, Nat.ofDigitChars_cons]
      exact ih hrest _

theorem isDigit_toDigits (n : Nat) : ∀ c ∈ Nat.toDigits 10 n, c.isDigit = true :=
  fun _ hmem => Nat.isDigit_of_mem_toDigits (by decide) (by decide) hmem

theorem digitsValue?_toDigits (n : Nat) : digitsValue? 0 (Nat.toDigits 10 n) = some n := by
  rw [digitsValue?_of_digits (isDigit_toDigits n), Nat.ofDigitChars_ten_toDigits]

theorem isDigit_of_digitValue? {d : Nat} (h : digitValue? c = some d) : c.isDigit = true := by
  unfold digitValue? at h
  split at h
  · next hbounds =>
      simp only [Char.isDigit, Bool.and_eq_true, decide_eq_true_eq]
      exact ⟨hbounds.1, hbounds.2⟩
  · simp at h

theorem digits_of_digitsValue? {total n : Nat} (h : digitsValue? total text = some n) :
    ∀ c ∈ text, c.isDigit = true := by
  induction text generalizing total with
  | nil => simp
  | cons c rest ih =>
      rw [digitsValue?, Option.bind_eq_some_iff] at h
      obtain ⟨d, hd, hrest⟩ := h
      exact List.forall_mem_cons.mpr ⟨isDigit_of_digitValue? hd, ih hrest⟩

/-- The digits of a number, perhaps with zeros in front. -/
structure IsNumeral (n : Nat) (text : List Char) : Prop where
  digits : ∀ c ∈ text, c.isDigit = true
  nonempty : text ≠ []
  value : Nat.ofDigitChars 10 text 0 = n

theorem isNumeral_toDigits (n : Nat) : IsNumeral n (Nat.toDigits 10 n) :=
  ⟨isDigit_toDigits n, Nat.toDigits_ne_nil, Nat.ofDigitChars_ten_toDigits⟩

inductive SpellsUnsigned (n : Nat) : List Char → Prop
  | plain {text : List Char} (numeral : IsNumeral n text) : SpellsUnsigned n text
  | signed {text : List Char} (numeral : IsNumeral n text) : SpellsUnsigned n ('+' :: text)

theorem readNumeral_eq_some_iff {bound n : Nat} :
    (if text.isEmpty then none else (digitsValue? 0 text).filter (· < bound)) = some n ↔
      IsNumeral n text ∧ n < bound := by
  by_cases hempty : text = []
  · subst hempty
    simp only [List.isEmpty_nil, if_true, reduceCtorEq, false_iff]
    rintro ⟨hnumeral, -⟩
    exact hnumeral.nonempty rfl
  · rw [if_neg (by simpa using hempty), Option.filter_eq_some_iff]
    constructor
    · rintro ⟨hvalue, hless⟩
      have hdigits := digits_of_digitsValue? hvalue
      rw [digitsValue?_of_digits hdigits, Option.some.injEq] at hvalue
      exact ⟨⟨hdigits, hempty, hvalue⟩, of_decide_eq_true hless⟩
    · rintro ⟨⟨hdigits, -, rfl⟩, hless⟩
      exact ⟨digitsValue?_of_digits hdigits 0, decide_eq_true hless⟩

theorem readUnsigned?_eq_some_iff {bound n : Nat} :
    readUnsigned? bound text = some n ↔ SpellsUnsigned n text ∧ n < bound := by
  unfold readUnsigned?
  split
  · next rest =>
      rw [readNumeral_eq_some_iff]
      constructor
      · rintro ⟨hnumeral, hless⟩
        exact ⟨.signed hnumeral, hless⟩
      · rintro ⟨hspells, hless⟩
        cases hspells with
        | plain numeral => exact absurd (numeral.digits '+' (List.mem_cons_self ..)) (by decide)
        | signed numeral => exact ⟨numeral, hless⟩
  · next hunsigned =>
      rw [readNumeral_eq_some_iff]
      constructor
      · rintro ⟨hnumeral, hless⟩
        exact ⟨.plain hnumeral, hless⟩
      · rintro ⟨hspells, hless⟩
        cases hspells with
        | plain numeral => exact ⟨numeral, hless⟩
        | @signed rest => exact absurd rfl (hunsigned rest)

/-- No number but zero is written with a leading zero. -/
theorem head?_toDigits {n : Nat} (h : 0 < n) : (Nat.toDigits 10 n).head? ≠ some '0' := by
  induction n using Nat.strong_induction_on with
  | _ n ih =>
      by_cases hsmall : n < 10
      · rw [Nat.toDigits_of_lt_base hsmall]
        interval_cases n <;> decide
      · have hquotient : 0 < n / 10 := by omega
        have hhead := ih (n / 10) (by omega) hquotient
        rw [Nat.toDigits_of_base_le (by decide) (by omega)]
        cases hdigits : Nat.toDigits 10 (n / 10) with
        | nil => exact absurd hdigits Nat.toDigits_ne_nil
        | cons c rest =>
            rw [hdigits] at hhead
            exact hhead

section

variable {p : Char → Bool} (htext : ∀ c ∈ text, p c = true)
  (hrest : ∀ c, rest.head? = some c → p c = false)

include htext hrest

theorem takeWhile_append_of_stop : (text ++ rest).takeWhile p = text := by
  rw [List.takeWhile_append_of_pos htext]
  cases rest with
  | nil => simp
  | cons c rest => simp [hrest c rfl]

theorem dropWhile_append_of_stop : (text ++ rest).dropWhile p = rest := by
  rw [List.dropWhile_append_of_pos htext]
  cases rest with
  | nil => rfl
  | cons c rest => simp [hrest c rfl]

end

end LeasedListener
