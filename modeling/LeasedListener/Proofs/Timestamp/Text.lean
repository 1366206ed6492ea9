import LeasedListener.Timestamp.Text
import LeasedListener.Proofs.Text.Blank

/-!
# Timestamps and their text

The text of a timestamp is read back as the timestamp, in a leap second too.
-/

namespace LeasedListener

variable {c : Char} {text rest : List Char} {n width : Nat}

section

variable (width n : Nat)

theorem toList_padded : (padded width n).toList =
    List.replicate (width - (Nat.toDigits 10 n).length) '0' ++ Nat.toDigits 10 n := by
  simp [padded]

theorem isDigit_padded : ∀ c ∈ (padded width n).toList, c.isDigit = true := by
  intro c hc
  rw [toList_padded, List.mem_append] at hc
  rcases hc with hzero | hdigit
  · rw [List.eq_of_mem_replicate hzero]
    rfl
  · exact isDigit_toDigits n c hdigit

theorem digitsValue?_padded : digitsValue? 0 (padded width n).toList = some n := by
  rw [digitsValue?_of_digits (isDigit_padded width n), toList_padded, Nat.ofDigitChars_append,
    Nat.ofDigitChars_replicate_zero, Nat.mul_zero, Nat.ofDigitChars_ten_toDigits]

theorem padded_ne_nil : (padded width n).toList ≠ [] := by
  rw [toList_padded]
  exact List.append_ne_nil_of_right_ne_nil _ Nat.toDigits_ne_nil

end

theorem length_padded (hwidth : 0 < width) (h : n < 10 ^ width) :
    (padded width n).toList.length = width := by
  have hlength := (Nat.length_toDigits_le_iff (by decide) hwidth).mpr h
  rw [toList_padded, List.length_append, List.length_replicate]
  omega

theorem padded_eq_cons (width n : Nat) :
    ∃ c more, (padded width n).toList = c :: more ∧ c.isDigit = true := by
  obtain ⟨c, more, hpadded⟩ := List.exists_cons_of_ne_nil (padded_ne_nil width n)
  refine ⟨c, more, hpadded, isDigit_padded width n c ?_⟩
  rw [hpadded]
  exact List.mem_cons_self ..

theorem trimStart_padded (width n : Nat) :
    trimStart ((padded width n).toList ++ rest) = (padded width n).toList ++ rest := by
  obtain ⟨c, more, hpadded, hdigit⟩ := padded_eq_cons width n
  rw [hpadded]
  exact trimStart_cons (isBlank_of_isDigit hdigit)

namespace Timestamp

section

variable (hrest : ∀ c, rest.head? = some c → c.isDigit = false)

include hrest

theorem takeWhile_take_padded {most : Nat} (hmost : (padded width n).toList.length ≤ most) :
    (((padded width n).toList ++ rest).take most).takeWhile Char.isDigit =
      (padded width n).toList := by
  rw [List.take_append, List.take_of_length_le hmost]
  refine takeWhile_append_of_stop (isDigit_padded width n) ?_
  intro c hhead
  cases rest with
  | nil => simp at hhead
  | cons first rest =>
      cases hlength : most - (padded width n).toList.length with
      | zero => simp [hlength] at hhead
      | succ less => exact hrest c (by simpa [hlength] using hhead)

theorem readDigits?_padded {most : Nat} (hmost : (padded width n).toList.length ≤ most) :
    readDigits? most ((padded width n).toList ++ rest) = some (n, rest) := by
  have hsome : (padded width n).toList.isEmpty = false :=
    List.isEmpty_eq_false_iff.mpr (padded_ne_nil width n)
  simp only [readDigits?, takeWhile_take_padded hrest hmost, hsome, digitsValue?_padded,
    List.drop_left, Option.map_some, Bool.false_eq_true, if_false]

theorem readPair?_padded (h : n < 100) :
    readPair? ((padded 2 n).toList ++ rest) = some (n, rest) := by
  rw [readPair?, trimStart_padded]
  exact readDigits?_padded hrest (Nat.le_of_eq (length_padded (by decide) h))

theorem readDigits?_padded_all : readDigits? ((padded width n).toList ++ rest).length
    ((padded width n).toList ++ rest) = some (n, rest) :=
  readDigits?_padded hrest (by simp)

theorem readYear?_minus : readYear? ('-' :: ((padded width n).toList ++ rest)) =
    some (-(n : Int), rest) := by
  have hread := @readDigits?_padded_all rest n width hrest
  rw [readYear?, trimStart_cons rfl]
  simp only [hread, Option.map_some]

theorem readYear?_plus : readYear? ('+' :: ((padded width n).toList ++ rest)) =
    some ((n : Int), rest) := by
  have hread := @readDigits?_padded_all rest n width hrest
  rw [readYear?, trimStart_cons rfl]
  simp only [hread, Option.map_some]

theorem readYear?_padded (h : n < 10000) :
    readYear? ((padded 4 n).toList ++ rest) = some ((n : Int), rest) := by
  have hread := @readDigits?_padded rest n 4 hrest 4 (Nat.le_of_eq (length_padded (by decide) h))
  obtain ⟨c, more, hpadded, hdigit⟩ := padded_eq_cons 4 n
  rw [readYear?, trimStart_padded]
  rw [hpadded] at hread ⊢
  split
  · next h => simp [(List.cons.inj h).1, Char.isDigit] at hdigit
  · next h => simp [(List.cons.inj h).1, Char.isDigit] at hdigit
  · rw [hread]
    rfl

theorem readYear?_yearText (year : Int) :
    readYear? ((yearText year).toList ++ rest) = some (year, rest) := by
  unfold yearText
  split
  · next hnegative =>
      have hvalue : -(year.natAbs : Int) = year := by omega
      have hread := @readYear?_minus rest year.natAbs 4 hrest
      have hsign : ("-" ++ padded 4 year.natAbs).toList = '-' :: (padded 4 year.natAbs).toList := by
        simp
      rw [hvalue] at hread
      rw [hsign]
      exact hread
  · next hnatural =>
      have hvalue : (year.natAbs : Int) = year := by omega
      split
      · next hsmall =>
          have hread := @readYear?_padded rest year.natAbs hrest (by omega)
          rw [hvalue] at hread
          exact hread
      · next hlarge =>
          have hread := @readYear?_plus rest year.natAbs 4 hrest
          have hsign : ("+" ++ padded 4 year.natAbs).toList =
              '+' :: (padded 4 year.natAbs).toList := by
            simp
          rw [hvalue] at hread
          rw [hsign]
          exact hread

end

theorem readMark?_cons (h : isBlank c = false) : readMark? c (c :: rest) = some rest := by
  simp [readMark?, trimStart_cons h]

theorem readFraction?_padded {scale : Nat} (hwidth : width + scale = 9) (hsome : 0 < width)
    (h : n < 10 ^ width) :
    readFraction? ('.' :: ((padded width n).toList ++ ['Z'])) = some (n * 10 ^ scale, ['Z']) := by
  have hstop : ∀ c, ['Z'].head? = some c → c.isDigit = false := by
    rintro _ ⟨⟩
    rfl
  have hlength := length_padded hsome h
  have hscale : 9 - width = scale := by omega
  have hnine : (padded width n).toList.length ≤ 9 := by omega
  have htake := @takeWhile_take_padded _ n width hstop 9 hnine
  have hread := @readDigits?_padded _ n width hstop 9 hnine
  have hdrop := dropWhile_append_of_stop (isDigit_padded width n) hstop
  simp [readFraction?, htake, hread, hdrop, hlength, hscale]

theorem readFraction?_fractionText {nano : Nat} (h : nano < nanosPerSecond) :
    readFraction? ((fractionText nano).toList ++ ['Z']) = some (nano, ['Z']) := by
  have hbound : nano < 1000000000 := h
  have hgroups : ∀ {width scale unit : Nat}, width + scale = 9 → 0 < width → unit = 10 ^ scale →
      nano % unit = 0 → nano / unit < 10 ^ width →
      readFraction? (("." ++ padded width (nano / unit)).toList ++ ['Z']) =
        some (nano, ['Z']) := by
    intro width scale unit hwidth hsome hunit hexact hless
    have hread := readFraction?_padded hwidth hsome hless
    have hpoint : ("." ++ padded width (nano / unit)).toList =
        '.' :: (padded width (nano / unit)).toList := by
      simp
    rw [← hunit, Nat.div_mul_cancel (Nat.dvd_of_mod_eq_zero hexact)] at hread
    rw [hpoint]
    exact hread
  unfold fractionText
  split
  · next hzero =>
      rw [hzero]
      rfl
  · split
    · next hmillis => exact @hgroups 3 6 _ rfl (by decide) rfl hmillis (by omega)
    · split
      · next hmicros => exact @hgroups 6 3 _ rfl (by decide) rfl hmicros (by omega)
      · have hread := @hgroups 9 0 1 rfl (by decide) rfl (Nat.mod_one nano)
          (by simpa using hbound)
        rw [Nat.div_one] at hread
        exact hread

theorem ofParts?_date (d : Date) : Date.ofParts? d.year d.month d.day = some d := by
  rw [Date.ofParts?, dif_pos d.year_mem, dif_pos d.month_mem, dif_pos d.day_mem]

theorem ofParts?_parts (t : Timestamp) : ofParts? t.date t.second t.nano = some t := by
  rw [ofParts?, dif_pos t.second_lt, dif_pos t.nano_lt]

theorem shift?_zero (t : Timestamp) : t.shift? 0 = some t := by
  have hsecond := t.second_lt
  unfold shift?
  rw [if_neg (by omega), if_pos (by omega), Int.add_zero, Int.toNat_natCast]
  exact t.ofParts?_parts

/-- The seconds that are written, with the room for a leap second. -/
theorem second_of_text (t : Timestamp) :
    t.second % 60 + t.nano / nanosPerSecond ≤ 60 ∧
      min (t.second % 60 + t.nano / nanosPerSecond) 59 = t.second % 60 ∧
      t.nano % nanosPerSecond +
        (if t.second % 60 + t.nano / nanosPerSecond = 60 then nanosPerSecond else 0) = t.nano := by
  have hnano : t.nano < 1000000000 ∨ t.nano < 2 * 1000000000 ∧ t.second % 60 = 59 := t.nano_lt
  by_cases hleap : 1000000000 ≤ t.nano
  · have hwhole : t.nano / nanosPerSecond = 1 := by
      show t.nano / 1000000000 = 1
      omega
    have hpart : t.nano % nanosPerSecond + nanosPerSecond = t.nano := by
      show t.nano % 1000000000 + 1000000000 = t.nano
      omega
    rw [hwhole, if_pos (by omega)]
    exact ⟨by omega, by omega, hpart⟩
  · have hnone : t.nano / nanosPerSecond = 0 := by
      show t.nano / 1000000000 = 0
      omega
    have hpart : t.nano % nanosPerSecond = t.nano := by
      show t.nano % 1000000000 = t.nano
      omega
    rw [hnone, if_neg (by omega)]
    exact ⟨by omega, by omega, hpart⟩

theorem day_le (d : Date) : d.day ≤ 31 := by
  have hday := d.day_mem.2
  unfold daysInMonth at hday
  split at hday
  · split at hday <;> omega
  · split at hday <;> omega

theorem toList_text (t : Timestamp) : t.text.toList =
    (yearText t.date.year).toList ++ '-' :: ((padded 2 t.date.month).toList ++
      '-' :: ((padded 2 t.date.day).toList ++ 'T' :: ((padded 2 (t.second / 3600)).toList ++
        ':' :: ((padded 2 (t.second / 60 % 60)).toList ++
          ':' :: ((padded 2 (t.second % 60 + t.nano / nanosPerSecond)).toList ++
            ((fractionText (t.nano % nanosPerSecond)).toList ++ ['Z'])))))) := by
  simp [text]

theorem fractionText_stops (nano : Nat) :
    ∀ c, ((fractionText nano).toList ++ ['Z']).head? = some c → c.isDigit = false := by
  intro c hhead
  unfold fractionText at hhead
  split at hhead
  · cases hhead
    rfl
  · split at hhead
    · rw [String.toList_append] at hhead
      cases hhead
      rfl
    · split at hhead
      · rw [String.toList_append] at hhead
        cases hhead
        rfl
      · rw [String.toList_append] at hhead
        cases hhead
        rfl

/-- A text in universal time is read part by part. -/
theorem parseChars?_of_parts {year : Int} {month day hour minute second nano : Nat} {date : Date}
    {more₁ more₂ more₃ more₄ more₅ more₆ : List Char}
    (hyear : readYear? text = some (year, '-' :: more₁))
    (hmonth : readPair? more₁ = some (month, '-' :: more₂))
    (hday : readPair? more₂ = some (day, 'T' :: more₃))
    (hhour : readPair? more₃ = some (hour, ':' :: more₄))
    (hminute : readPair? more₄ = some (minute, ':' :: more₅))
    (hsecond : readPair? more₅ = some (second, more₆))
    (hfraction : readFraction? more₆ = some (nano, ['Z']))
    (hdate : Date.ofParts? year month day = some date)
    (hlimits : hour ≤ 23 ∧ minute ≤ 59 ∧ second ≤ 60) :
    parseChars? text = (ofParts? date (hour * 3600 + minute * 60 + min second 59)
      (nano + if second = 60 then nanosPerSecond else 0)).bind (·.shift? 0) := by
  have hdash : ∀ rest, readMark? '-' ('-' :: rest) = some rest := fun _ => readMark?_cons rfl
  have hcolon : ∀ rest, readMark? ':' (':' :: rest) = some rest := fun _ => readMark?_cons rfl
  have hzone : readZone? (trimStart ['Z']) = some (0, []) := rfl
  rw [parseChars?, hyear]
  -- step by step, for `simp` would follow every branch of the reader at once
  dsimp -zeta only [Option.bind_eq_bind, Option.bind_some]
  rw [hdash, Option.bind_some, hmonth, Option.bind_some, hdash, Option.bind_some, hday,
    Option.bind_some]
  change (readPair? more₃).bind _ = _
  rw [hhour, Option.bind_some, hcolon, Option.bind_some, hminute,
    Option.bind_some, hcolon, Option.bind_some, hsecond, Option.bind_some, hfraction,
    Option.bind_some, hzone, Option.bind_some, hdate, Option.bind_some, if_pos]
  · rfl
  · exact ⟨hlimits.1, hlimits.2.1, hlimits.2.2, rfl⟩

theorem parseChars?_text (t : Timestamp) : parseChars? t.text.toList = some t := by
  have hstop : ∀ (mark : Char) (rest : List Char), mark.isDigit = false →
      ∀ c, (mark :: rest).head? = some c → c.isDigit = false := by
    rintro mark rest hmark _ ⟨⟩
    exact hmark
  obtain ⟨hseconds, hsecond, hnano⟩ := t.second_of_text
  have hless : t.second < 86400 := t.second_lt
  have hmonth := t.date.month_mem
  have hday := day_le t.date
  have hpart : t.nano % nanosPerSecond < nanosPerSecond := Nat.mod_lt _ (by decide)
  have hwhole : t.second / 3600 * 3600 + t.second / 60 % 60 * 60 + t.second % 60 = t.second := by
    omega
  have hread := parseChars?_of_parts
    (readYear?_yearText (hstop '-' _ rfl) t.date.year)
    (readPair?_padded (hstop '-' _ rfl) (show t.date.month < 100 by omega))
    (readPair?_padded (hstop 'T' _ rfl) (show t.date.day < 100 by omega))
    (readPair?_padded (hstop ':' _ rfl) (show t.second / 3600 < 100 by omega))
    (readPair?_padded (hstop ':' _ rfl) (show t.second / 60 % 60 < 100 by omega))
    (readPair?_padded (fractionText_stops _)
      (show t.second % 60 + t.nano / nanosPerSecond < 100 by omega))
    (readFraction?_fractionText hpart) (ofParts?_date t.date) (by omega)
  rw [toList_text, hread, hsecond, hwhole, hnano, ofParts?_parts, Option.bind_some]
  exact t.shift?_zero

theorem parse?_text (t : Timestamp) : parse? t.text = some t := t.parseChars?_text

end Timestamp

end LeasedListener
