import LeasedListener.Duration

/-!
# Arithmetic of durations

A duration fits into two machine words, its whole seconds and the nanoseconds of
the rest.  Word by word, doubling and dividing agree with the arithmetic of
whole durations.  No step of a division leaves its word, and a doubling leaves
its words exactly where the double is too long for a duration.
-/

namespace LeasedListener

namespace Duration

theorem isZero_eq_false_iff {d : Duration} : d.isZero = false ↔ 0 < d.nanos := by
  simp [isZero, Nat.pos_iff_ne_zero]

theorem twice?_eq_some_iff {d twice : Duration} :
    d.twice? = some twice ↔ twice.nanos = 2 * d.nanos := by
  unfold twice?
  constructor
  · intro h
    split at h
    · rw [← Option.some.inj h]
    · simp at h
  · intro h
    have hfits : 2 * d.nanos < durationBound := h ▸ twice.nanos_lt
    rw [dif_pos hfits]
    exact congrArg some (ext_nanos h.symm)

theorem twice?_eq_none_iff {d : Duration} : d.twice? = none ↔ durationBound ≤ 2 * d.nanos := by
  simp [twice?]

variable (d : Duration)

theorem seconds_lt : d.seconds < UInt64.size := by
  have hbound := d.nanos_lt
  simp only [durationBound] at hbound
  exact (Nat.div_lt_iff_lt_mul (by decide)).mpr hbound

theorem subsecNanos_lt : d.subsecNanos < nanosPerSecond := Nat.mod_lt _ (by decide)

theorem nanos_eq_parts : d.nanos = d.seconds * nanosPerSecond + d.subsecNanos :=
  (Nat.div_add_mod' ..).symm

/-- What is left of the two parts once each of them has been divided. -/
def leftover (n : Nat) : Nat := d.seconds % n * nanosPerSecond + d.subsecNanos % n

theorem nanos_dividedBy_eq_parts {n : Nat} (hpos : 0 < n) :
    (d.dividedBy n).nanos =
      d.seconds / n * nanosPerSecond + (d.subsecNanos / n + d.leftover n / n) := by
  have hseconds := Nat.div_add_mod d.seconds n
  have hnanos := Nat.div_add_mod d.subsecNanos n
  have hwhole : d.nanos =
      n * (d.seconds / n * nanosPerSecond + d.subsecNanos / n) + d.leftover n := by
    calc
      d.nanos = (n * (d.seconds / n) + d.seconds % n) * nanosPerSecond +
          (n * (d.subsecNanos / n) + d.subsecNanos % n) := by
        rw [hseconds, hnanos, ← nanos_eq_parts]
      _ = n * (d.seconds / n * nanosPerSecond + d.subsecNanos / n) + d.leftover n := by
        simp only [leftover, Nat.add_mul, Nat.mul_add, Nat.mul_assoc]
        omega
  rw [nanos_dividedBy, hwhole, Nat.mul_add_div hpos, Nat.add_assoc]

/-- The parts of the rest make up less than a second. -/
theorem subsecNanos_of_parts_lt {n : Nat} (hpos : 0 < n) :
    d.subsecNanos / n + d.leftover n / n < nanosPerSecond := by
  have hnanos := Nat.div_add_mod d.subsecNanos n
  have hrest : d.seconds % n < n := Nat.mod_lt _ hpos
  have hsecond : d.seconds % n * nanosPerSecond + nanosPerSecond ≤ n * nanosPerSecond := by
    rw [← Nat.succ_mul]
    exact Nat.mul_le_mul_right _ hrest
  have hsum : n * (d.subsecNanos / n) + d.leftover n < n * nanosPerSecond := by
    have hsubsec := d.subsecNanos_lt
    simp only [leftover]
    omega
  have hquotient : (n * (d.subsecNanos / n) + d.leftover n) / n =
      d.subsecNanos / n + d.leftover n / n := Nat.mul_add_div hpos ..
  rw [← hquotient]
  exact Nat.div_lt_of_lt_mul hsum

theorem seconds_dividedBy {n : Nat} (hpos : 0 < n) :
    (d.dividedBy n).seconds = d.seconds / n := by
  have hless := d.subsecNanos_of_parts_lt hpos
  rw [seconds, nanos_dividedBy_eq_parts d hpos, Nat.mul_comm, Nat.mul_add_div (by decide),
    Nat.div_eq_of_lt hless, Nat.add_zero]

theorem subsecNanos_dividedBy {n : Nat} (hpos : 0 < n) :
    (d.dividedBy n).subsecNanos = d.subsecNanos / n + d.leftover n / n := by
  have hless := d.subsecNanos_of_parts_lt hpos
  rw [subsecNanos, nanos_dividedBy_eq_parts d hpos, Nat.mul_add_mod_self_right,
    Nat.mod_eq_of_lt hless]

theorem leftover_lt {n : Nat} (hpos : 0 < n) (hword : n < UInt32.size) :
    d.leftover n < UInt64.size := by
  have hseconds : d.seconds % n < n := Nat.mod_lt _ hpos
  have hnanos : d.subsecNanos % n < n := Nat.mod_lt _ hpos
  simp only [leftover, nanosPerSecond, UInt32.size, UInt64.size] at hword ⊢
  omega

end Duration

@[ext] structure DurationWords where
  seconds : UInt64
  nanos : UInt32
deriving DecidableEq

def Duration.words (d : Duration) : DurationWords :=
  ⟨UInt64.ofNat d.seconds, UInt32.ofNat d.subsecNanos⟩

namespace DurationWords

def sum? (a b : UInt64) : Option UInt64 :=
  if a.toNat + b.toNat < UInt64.size then some (a + b) else none

def product? (a b : UInt64) : Option UInt64 :=
  if a.toNat * b.toNat < UInt64.size then some (a * b) else none

def twice? (w : DurationWords) : Option DurationWords :=
  let nanos := w.nanos.toUInt64 * 2
  (sum? w.seconds w.seconds).bind fun seconds =>
    (sum? seconds (nanos / 1000000000)).map fun seconds =>
      ⟨seconds, (nanos % 1000000000).toUInt32⟩

/-- Division of each word, and of what that leaves over.  There is no result for
a divisor of zero, nor where a product or a sum leaves its word. -/
def dividedBy? (w : DurationWords) (n : UInt32) : Option DurationWords :=
  if n = 0 then none
  else
    (product? (w.seconds % n.toUInt64) 1000000000).bind fun product =>
      (sum? product (w.nanos % n).toUInt64).bind fun leftover =>
        (sum? (w.nanos / n).toUInt64 (leftover / n.toUInt64)).bind fun nanos =>
          if nanos < 1000000000 then some ⟨w.seconds / n.toUInt64, nanos.toUInt32⟩ else none

section

variable {a b : UInt64}

theorem sum?_eq_some (hfits : a.toNat + b.toNat < UInt64.size) : sum? a b = some (a + b) :=
  if_pos hfits

theorem sum?_eq_none (hlarge : UInt64.size ≤ a.toNat + b.toNat) : sum? a b = none :=
  if_neg (Nat.not_lt.mpr hlarge)

theorem product?_eq_some (hfits : a.toNat * b.toNat < UInt64.size) :
    product? a b = some (a * b) :=
  if_pos hfits

theorem toNat_sum (hfits : a.toNat + b.toNat < UInt64.size) :
    (a + b).toNat = a.toNat + b.toNat := by
  rw [UInt64.toNat_add]
  exact Nat.mod_eq_of_lt hfits

theorem toNat_product (hfits : a.toNat * b.toNat < UInt64.size) :
    (a * b).toNat = a.toNat * b.toNat := by
  rw [UInt64.toNat_mul]
  exact Nat.mod_eq_of_lt hfits

end

end DurationWords

namespace Duration

open DurationWords

variable (d : Duration)

theorem toNat_words_seconds : d.words.seconds.toNat = d.seconds :=
  UInt64.toNat_ofNat_of_lt d.seconds_lt

theorem toNat_words_nanos : d.words.nanos.toNat = d.subsecNanos :=
  UInt32.toNat_ofNat_of_lt (Nat.lt_trans d.subsecNanos_lt (by decide))

theorem toNat_rest_mul (n : UInt32) :
    (d.words.seconds % n.toUInt64).toNat * (1000000000 : UInt64).toNat =
      d.seconds % n.toNat * nanosPerSecond := by
  rw [UInt64.toNat_mod, toNat_words_seconds, UInt32.toNat_toUInt64]
  rfl

theorem rest_mul_lt {n : UInt32} (hpos : 0 < n.toNat) :
    (d.words.seconds % n.toUInt64).toNat * (1000000000 : UInt64).toNat < UInt64.size := by
  rw [toNat_rest_mul]
  exact Nat.lt_of_le_of_lt (Nat.le_add_right ..) (d.leftover_lt hpos n.toNat_lt)

theorem toNat_leftover {n : UInt32} (hpos : 0 < n.toNat) :
    (d.words.seconds % n.toUInt64 * 1000000000).toNat + (d.words.nanos % n).toUInt64.toNat =
      d.leftover n.toNat := by
  rw [toNat_product (d.rest_mul_lt hpos), toNat_rest_mul, UInt32.toNat_toUInt64, UInt32.toNat_mod,
    toNat_words_nanos]
  rfl

theorem leftover_sum_lt {n : UInt32} (hpos : 0 < n.toNat) :
    (d.words.seconds % n.toUInt64 * 1000000000).toNat + (d.words.nanos % n).toUInt64.toNat <
      UInt64.size := by
  rw [d.toNat_leftover hpos]
  exact d.leftover_lt hpos n.toNat_lt

theorem toNat_quotient_nanos {n : UInt32} (hpos : 0 < n.toNat) :
    (d.words.nanos / n).toUInt64.toNat +
        ((d.words.seconds % n.toUInt64 * 1000000000 + (d.words.nanos % n).toUInt64) /
          n.toUInt64).toNat =
      d.subsecNanos / n.toNat + d.leftover n.toNat / n.toNat := by
  rw [UInt32.toNat_toUInt64, UInt32.toNat_div, toNat_words_nanos, UInt64.toNat_div,
    toNat_sum (d.leftover_sum_lt hpos), d.toNat_leftover hpos, UInt32.toNat_toUInt64]

theorem words_dividedBy? {n : UInt32} (hpos : 0 < n.toNat) :
    d.words.dividedBy? n = some (d.dividedBy n.toNat).words := by
  have hnonzero : n ≠ 0 := by
    rintro rfl
    exact absurd hpos (by decide)
  have hsubsec := d.subsecNanos_of_parts_lt hpos
  have hnanos := d.toNat_quotient_nanos hpos
  have hsum := Nat.lt_trans (hnanos ▸ hsubsec) (by decide : nanosPerSecond < UInt64.size)
  rw [dividedBy?, if_neg hnonzero, product?_eq_some (d.rest_mul_lt hpos), Option.bind_some,
    sum?_eq_some (d.leftover_sum_lt hpos), Option.bind_some, sum?_eq_some hsum, Option.bind_some,
    if_pos (by rw [UInt64.lt_iff_toNat_lt, toNat_sum hsum, hnanos]; exact hsubsec)]
  refine congrArg some (DurationWords.ext ?_ ?_)
  · apply UInt64.toNat_inj.mp
    rw [toNat_words_seconds, seconds_dividedBy d hpos, UInt64.toNat_div, toNat_words_seconds,
      UInt32.toNat_toUInt64]
  · apply UInt32.toNat_inj.mp
    rw [toNat_words_nanos, subsecNanos_dividedBy d hpos, UInt64.toNat_toUInt32, toNat_sum hsum,
      hnanos]
    exact Nat.mod_eq_of_lt (Nat.lt_trans hsubsec (by decide))

theorem double_lt_iff :
    2 * d.nanos < durationBound ↔
      2 * d.seconds + 2 * d.subsecNanos / nanosPerSecond < UInt64.size := by
  have hparts := d.nanos_eq_parts
  simp only [durationBound, nanosPerSecond, UInt64.size] at hparts ⊢
  omega

theorem seconds_double (hfits : 2 * d.nanos < durationBound) :
    (Duration.mk (2 * d.nanos) hfits).seconds =
      2 * d.seconds + 2 * d.subsecNanos / nanosPerSecond := by
  simp only [seconds, subsecNanos, nanosPerSecond]
  omega

theorem subsecNanos_double (hfits : 2 * d.nanos < durationBound) :
    (Duration.mk (2 * d.nanos) hfits).subsecNanos = 2 * d.subsecNanos % nanosPerSecond := by
  simp only [subsecNanos, nanosPerSecond]
  omega

theorem toNat_double_nanos : (d.words.nanos.toUInt64 * 2).toNat = 2 * d.subsecNanos := by
  have hsubsec := d.subsecNanos_lt
  have hfits : 2 * d.subsecNanos < 2 ^ 64 := by
    simp only [nanosPerSecond] at hsubsec
    omega
  rw [UInt64.toNat_mul, UInt32.toNat_toUInt64, toNat_words_nanos, Nat.mul_comm]
  exact Nat.mod_eq_of_lt hfits

theorem toNat_double_carry :
    (d.words.nanos.toUInt64 * 2 / 1000000000).toNat = 2 * d.subsecNanos / nanosPerSecond := by
  rw [UInt64.toNat_div, toNat_double_nanos]
  rfl

theorem toNat_double_rest :
    (d.words.nanos.toUInt64 * 2 % 1000000000).toUInt32.toNat =
      2 * d.subsecNanos % nanosPerSecond := by
  rw [UInt64.toNat_toUInt32, UInt64.toNat_mod, toNat_double_nanos]
  exact Nat.mod_eq_of_lt (Nat.lt_trans (Nat.mod_lt _ (by decide)) (by decide))

theorem toNat_double_seconds (hfits : 2 * d.seconds < UInt64.size) :
    (d.words.seconds + d.words.seconds).toNat = 2 * d.seconds := by
  have hsum : d.words.seconds.toNat + d.words.seconds.toNat = 2 * d.seconds := by
    rw [toNat_words_seconds, Nat.two_mul]
  rw [toNat_sum (hsum ▸ hfits), hsum]

theorem words_twice?_of_fits (hfits : 2 * d.nanos < durationBound) :
    d.words.twice? = some (Duration.mk (2 * d.nanos) hfits).words := by
  have hsum := d.double_lt_iff.mp hfits
  have hwhole : 2 * d.seconds < UInt64.size := Nat.lt_of_le_of_lt (Nat.le_add_right ..) hsum
  have hdouble := d.toNat_double_seconds hwhole
  have hseconds : d.words.seconds.toNat + d.words.seconds.toNat < UInt64.size := by
    rw [toNat_words_seconds]
    omega
  have hcarried : (d.words.seconds + d.words.seconds).toNat +
      (d.words.nanos.toUInt64 * 2 / 1000000000).toNat < UInt64.size := by
    rw [hdouble, toNat_double_carry]
    exact hsum
  rw [DurationWords.twice?, sum?_eq_some hseconds, Option.bind_some,
    sum?_eq_some hcarried, Option.map_some]
  refine congrArg some (DurationWords.ext ?_ ?_)
  · apply UInt64.toNat_inj.mp
    rw [toNat_words_seconds, seconds_double, UInt64.toNat_add, Nat.mod_eq_of_lt hcarried, hdouble,
      toNat_double_carry]
  · apply UInt32.toNat_inj.mp
    rw [toNat_words_nanos, subsecNanos_double, toNat_double_rest]

theorem words_twice?_of_overlong (hlarge : durationBound ≤ 2 * d.nanos) :
    d.words.twice? = none := by
  have hsum : UInt64.size ≤ 2 * d.seconds + 2 * d.subsecNanos / nanosPerSecond :=
    Nat.not_lt.mp (mt d.double_lt_iff.mpr (Nat.not_lt.mpr hlarge))
  rw [DurationWords.twice?]
  by_cases hseconds : 2 * d.seconds < UInt64.size
  · have hdouble := d.toNat_double_seconds hseconds
    rw [sum?_eq_some (by rw [toNat_words_seconds]; omega), Option.bind_some,
      sum?_eq_none (by rw [hdouble, toNat_double_carry]; exact hsum),
      Option.map_none]
  · rw [sum?_eq_none (by rw [toNat_words_seconds]; omega), Option.bind_none]

theorem words_twice? : d.words.twice? = d.twice?.map words := by
  unfold twice?
  split
  case isTrue hfits => exact d.words_twice?_of_fits hfits
  case isFalse hlarge => exact d.words_twice?_of_overlong (Nat.not_lt.mp hlarge)

end Duration

end LeasedListener
