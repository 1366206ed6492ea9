import LeasedListener.Identifier
import Mathlib.Data.List.Forall2
import Mathlib.Data.Nat.Digits.Lemmas

/-!
# The spellings of an identifier

An identifier is spelled with hyphens between its groups of digits, by its
digits alone, with hyphens and between braces, or with hyphens and behind a
marker, always in any letter case.  The reader takes every spelling for its
identifier and takes nothing else.
-/

namespace LeasedListener

namespace Identifier

/-- A digit in either letter case. -/
def SpellsDigit (d : Fin 16) (c : Char) : Prop := c = hexChar d ∨ c = (hexChar d).toUpper

def SpellsDigits (id : Identifier) (text : List Char) : Prop :=
  List.Forall₂ SpellsDigit id.digits text

inductive SpellsGroups (id : Identifier) : List Char → Prop
  | groups {a b c d e : List Char} (first : a.length = 8) (second : b.length = 4)
      (third : c.length = 4) (fourth : d.length = 4) (fifth : e.length = 12)
      (digits : id.SpellsDigits (a ++ (b ++ (c ++ (d ++ e))))) :
      SpellsGroups id (a ++ '-' :: (b ++ '-' :: (c ++ '-' :: (d ++ '-' :: e))))

inductive Spells (id : Identifier) : List Char → Prop
  | hyphenated {text : List Char} (groups : id.SpellsGroups text) : Spells id text
  | plain {text : List Char} (digits : id.SpellsDigits text) : Spells id text
  | braced {text : List Char} (groups : id.SpellsGroups text) : Spells id ('{' :: (text ++ ['}']))
  | marked {front text : List Char} (mark : front.map Char.toLower = "urn:uuid:".toList)
      (groups : id.SpellsGroups text) : Spells id (front ++ text)

variable {id : Identifier} {c : Char} {d : Fin 16} {text : List Char}

theorem hexValue?_hexChar : ∀ d : Fin 16, hexValue? (hexChar d) = some d := by decide

theorem toLower_hexChar : ∀ d : Fin 16, (hexChar d).toLower = hexChar d := by decide

theorem toLower_toUpper_hexChar : ∀ d : Fin 16, (hexChar d).toUpper.toLower = hexChar d := by
  decide

theorem val_toLower (h : 'A'.val ≤ c.val ∧ c.val ≤ 'Z'.val) :
    c.toLower.val = c.val + ('a'.val - 'A'.val) := by
  delta Char.toLower
  rw [dif_pos h]

theorem val_toUpper (h : 'a'.val ≤ c.val ∧ c.val ≤ 'z'.val) :
    c.toUpper.val = c.val + ('A'.val - 'a'.val) := by
  delta Char.toUpper
  rw [dif_pos h]

/-- A letter in lower case is the letter itself or comes from its upper case. -/
theorem eq_or_eq_toUpper_toLower (c : Char) : c.toLower = c ∨ c.toLower.toUpper = c := by
  by_cases hupper : c.val ≥ 'A'.val ∧ c.val ≤ 'Z'.val
  · right
    have hlow : 65 ≤ c.val.toNat := hupper.1
    have hhigh : c.val.toNat ≤ 90 := hupper.2
    have hlower : c.toLower.val.toNat = c.val.toNat + 32 := by
      have hshift : ('a'.val - 'A'.val).toNat = 32 := rfl
      rw [val_toLower hupper, UInt32.toNat_add, hshift]
      omega
    have hletter : 'a'.val ≤ c.toLower.val ∧ c.toLower.val ≤ 'z'.val := by
      constructor
      · change 97 ≤ c.toLower.val.toNat
        omega
      · change c.toLower.val.toNat ≤ 122
        omega
    have hshift : ('A'.val - 'a'.val).toNat = 2 ^ 32 - 32 := rfl
    apply Char.ext
    apply UInt32.toNat_inj.mp
    rw [val_toUpper hletter, UInt32.toNat_add, hlower, hshift]
    omega
  · left
    exact dif_neg hupper

theorem toLower_eq_hexChar_iff : c.toLower = hexChar d ↔ SpellsDigit d c := by
  constructor
  · intro h
    rcases eq_or_eq_toUpper_toLower c with hsame | hupper
    · exact .inl (hsame.symm.trans h)
    · exact .inr (by rw [← hupper, h])
  · rintro (rfl | rfl)
    · exact toLower_hexChar d
    · exact toLower_toUpper_hexChar d

theorem hexValue?_eq_some_iff : hexValue? c = some d ↔ SpellsDigit d c := by
  rw [← toLower_eq_hexChar_iff]
  constructor
  · intro h
    have hfound := List.find?_some (p := fun d => hexChar d == c.toLower) h
    exact (beq_iff_eq.mp hfound).symm
  · intro h
    have hsame : hexValue? c = hexValue? (hexChar d) := by
      simp only [hexValue?, h, toLower_hexChar]
    rw [hsame, hexValue?_hexChar]

theorem mapM_hexValue?_eq_some_iff {digits : List (Fin 16)} :
    text.mapM hexValue? = some digits ↔ List.Forall₂ SpellsDigit digits text := by
  induction text generalizing digits with
  | nil => simp [eq_comm]
  | cons c text ih =>
      rw [List.mapM_cons]
      cases digits with
      | nil => simp [Option.bind_eq_some_iff]
      | cons d digits => simp [Option.bind_eq_some_iff, hexValue?_eq_some_iff, ih]

theorem ofDigits?_eq_some_iff : ofDigits? text = some id ↔ id.SpellsDigits text := by
  rw [SpellsDigits, ← mapM_hexValue?_eq_some_iff, ofDigits?]
  cases hdigits : text.mapM hexValue? with
  | none => simp
  | some digits =>
      obtain ⟨own, hlength⟩ := id
      simp only [Option.some.injEq]
      constructor
      · intro h
        split at h
        · exact congrArg Identifier.digits (Option.some.inj h)
        · simp at h
      · rintro rfl
        rw [dif_pos hlength]

theorem unhyphenate?_cons_eq_some_iff {n next : Nat} {more : List Nat} {digits : List Char} :
    unhyphenate? (n :: next :: more) text = some digits ↔
      ∃ front rest others, front.length = n ∧ text = front ++ '-' :: rest ∧
        unhyphenate? (next :: more) rest = some others ∧ digits = front ++ others := by
  simp only [unhyphenate?]
  constructor
  · intro h
    split at h
    · next rest hrest =>
        obtain ⟨others, hothers, rfl⟩ := Option.map_eq_some_iff.mp h
        refine ⟨text.take n, rest, others, ?_, ?_, hothers, rfl⟩
        · have hlength := congrArg List.length hrest
          rw [List.length_drop, List.length_cons] at hlength
          rw [List.length_take]
          omega
        · rw [← hrest, List.take_append_drop]
    · simp at h
  · rintro ⟨front, rest, others, rfl, rfl, hothers, rfl⟩
    rw [List.drop_left, List.take_left]
    simp [hothers]

theorem unhyphenate?_single_eq_some_iff {n : Nat} {digits : List Char} :
    unhyphenate? [n] text = some digits ↔ text.length = n ∧ digits = text := by
  rw [unhyphenate?]
  split
  · next h => simp [h, eq_comm]
  · next h => simp [h]

theorem ofHyphenated?_eq_some_iff : ofHyphenated? text = some id ↔ id.SpellsGroups text := by
  rw [ofHyphenated?, Option.bind_eq_some_iff]
  simp only [groups, unhyphenate?_cons_eq_some_iff, unhyphenate?_single_eq_some_iff,
    ofDigits?_eq_some_iff]
  constructor
  · rintro ⟨_, ⟨a, _, _, ha, rfl, ⟨b, _, _, hb, rfl, ⟨c, _, _, hc, rfl,
      ⟨d, e, _, hd, rfl, ⟨he, rfl⟩, rfl⟩, rfl⟩, rfl⟩, rfl⟩, hdigits⟩
    exact .groups ha hb hc hd he hdigits
  · rintro ⟨ha, hb, hc, hd, he, hdigits⟩
    -- the groups are cut off one after the other, and the digits left are theirs
    exact ⟨_, ⟨_, _, _, ha, rfl, ⟨_, _, _, hb, rfl, ⟨_, _, _, hc, rfl,
      ⟨_, _, _, hd, rfl, ⟨he, rfl⟩, rfl⟩, rfl⟩, rfl⟩, rfl⟩, hdigits⟩

/-- A digit is none of the characters by which the reader tells the spellings
apart. -/
theorem SpellsDigit.ordinary (h : SpellsDigit d c) :
    c ≠ '{' ∧ c ≠ '-' ∧ c.toLower ≠ 'u' := by
  have hlower : ∀ d : Fin 16, hexChar d ≠ '{' ∧ hexChar d ≠ '-' ∧
      (hexChar d).toLower ≠ 'u' := by
    decide
  have hupper : ∀ d : Fin 16, (hexChar d).toUpper ≠ '{' ∧ (hexChar d).toUpper ≠ '-' ∧
      (hexChar d).toUpper.toLower ≠ 'u' := by
    decide
  rcases h with rfl | rfl
  · exact hlower d
  · exact hupper d

theorem SpellsDigits.exists_digit (h : id.SpellsDigits text) (hmem : c ∈ text) :
    ∃ d, SpellsDigit d c := by
  obtain ⟨i, hi, rfl⟩ := List.getElem_of_mem hmem
  have hless : i < id.digits.length := by
    rw [h.length_eq]
    exact hi
  exact ⟨id.digits[i], h.get hless hi⟩

theorem SpellsDigits.starts (h : id.SpellsDigits text) :
    ∃ d c rest, text = c :: rest ∧ SpellsDigit d c := by
  have hlength : text.length = 32 := h.length_eq.symm.trans id.length_digits
  cases text with
  | nil => simp at hlength
  | cons c rest =>
      obtain ⟨d, hd⟩ := h.exists_digit (List.mem_cons_self ..)
      exact ⟨d, c, rest, rfl, hd⟩

theorem SpellsDigits.contains (h : id.SpellsDigits text) : text.contains '-' = false := by
  rw [List.contains_eq_mem, decide_eq_false_iff_not]
  intro hmem
  obtain ⟨d, hd⟩ := h.exists_digit hmem
  exact hd.ordinary.2.1 rfl

theorem SpellsGroups.starts (h : id.SpellsGroups text) :
    ∃ d c rest, text = c :: rest ∧ SpellsDigit d c := by
  cases h with
  | @groups a _ _ _ _ first _ _ _ _ digits =>
      obtain ⟨d, c, rest, heq, hd⟩ := digits.starts
      cases a with
      | nil => simp at first
      | cons head others =>
          obtain rfl : head = c := (List.cons.inj heq).1
          exact ⟨d, head, _, rfl, hd⟩

theorem SpellsGroups.contains (h : id.SpellsGroups text) : text.contains '-' = true := by
  cases h with
  | groups => simp

theorem SpellsGroups.exists_digit (h : id.SpellsGroups text) (hmem : c ∈ text) :
    c = '-' ∨ ∃ d, SpellsDigit d c := by
  cases h with
  | groups _ _ _ _ _ digits =>
      by_cases hhyphen : c = '-'
      · exact .inl hhyphen
      · right
        apply digits.exists_digit
        simpa [hhyphen] using hmem

theorem parseChars?_cons_of_digit (h : SpellsDigit d c) (rest : List Char) :
    parseChars? (c :: rest) =
      if (c :: rest).contains '-' then ofHyphenated? (c :: rest) else ofDigits? (c :: rest) := by
  obtain ⟨hbrace, -, hmark⟩ := h.ordinary
  unfold parseChars?
  split
  · next hopen => exact absurd (List.cons.inj hopen).1 hbrace
  · rw [if_neg]
    intro hfront
    exact hmark (List.cons.inj hfront).1

theorem head?_marker : marker.head? = some 'u' := by decide

theorem parseChars?_marked {front : List Char} (h : front.map Char.toLower = marker) :
    parseChars? (front ++ text) = ofHyphenated? text := by
  have hlength : marker.length = front.length := by rw [← h, List.length_map]
  unfold parseChars?
  split
  · next hopen =>
      have hhead : (front.map Char.toLower).head? = some 'u' := by rw [h, head?_marker]
      cases front with
      | nil => simp at hhead
      | cons c front =>
          obtain rfl : c = '{' := (List.cons.inj hopen).1
          exact absurd (Option.some.inj hhead) (by decide)
  · rw [hlength, List.take_left, if_pos h, List.drop_left]

theorem Spells.parseChars? (h : id.Spells text) : parseChars? text = some id := by
  cases h with
  | hyphenated groups =>
      obtain ⟨d, c, rest, rfl, hd⟩ := groups.starts
      rw [parseChars?_cons_of_digit hd, if_pos groups.contains]
      exact ofHyphenated?_eq_some_iff.mpr groups
  | plain digits =>
      obtain ⟨d, c, rest, rfl, hd⟩ := digits.starts
      rw [parseChars?_cons_of_digit hd, digits.contains, if_neg Bool.false_ne_true]
      exact ofDigits?_eq_some_iff.mpr digits
  | braced groups =>
      have hinner := ofHyphenated?_eq_some_iff.mpr groups
      simp [Identifier.parseChars?, hinner]
  | marked mark groups =>
      rw [parseChars?_marked mark]
      exact ofHyphenated?_eq_some_iff.mpr groups

theorem spells_of_parseChars? (h : parseChars? text = some id) : id.Spells text := by
  unfold Identifier.parseChars? at h
  split at h
  · next inner =>
      split at h
      · next hlast =>
          have hinner := List.dropLast_append_getLast? '}' hlast
          rw [← hinner]
          exact .braced (ofHyphenated?_eq_some_iff.mp h)
      · simp at h
  · split at h
    · next hmark =>
        rw [← List.take_append_drop marker.length text]
        exact .marked hmark (ofHyphenated?_eq_some_iff.mp h)
    · split at h
      · exact .hyphenated (ofHyphenated?_eq_some_iff.mp h)
      · exact .plain (ofDigits?_eq_some_iff.mp h)

theorem parse?_eq_some_iff {text : String} : parse? text = some id ↔ id.Spells text.toList :=
  ⟨spells_of_parseChars?, Spells.parseChars?⟩

theorem unhyphenate?_hyphenate (lengths : List Nat) {text : List Char}
    (h : text.length = lengths.sum) :
    unhyphenate? lengths (hyphenate lengths text) = some text := by
  induction lengths generalizing text with
  | nil =>
      rw [List.length_eq_zero_iff.mp h]
      rfl
  | cons n more ih =>
      rw [List.sum_cons] at h
      cases more with
      | nil => exact if_pos h
      | cons next more =>
          have htake : (text.take n).length = n := List.length_take_of_le (by omega)
          have hrest := @ih (text.drop n) (by rw [List.length_drop]; omega)
          have hdrop : (hyphenate (n :: next :: more) text).drop n =
              '-' :: hyphenate (next :: more) (text.drop n) :=
            List.drop_left' htake
          have hfront : (hyphenate (n :: next :: more) text).take n = text.take n :=
            List.take_left' htake
          simp only [unhyphenate?, hdrop, hfront, hrest, Option.map_some, List.take_append_drop]

theorem spellsDigits_hexChars (id : Identifier) : id.SpellsDigits (id.digits.map hexChar) := by
  rw [SpellsDigits, List.forall₂_map_right_iff]
  exact List.forall₂_same.mpr fun d _ => .inl rfl

theorem text_groups (id : Identifier) : id.SpellsGroups id.text.toList := by
  have hlength : (id.digits.map hexChar).length = groups.sum := by
    rw [List.length_map, id.length_digits]
    rfl
  rw [text, String.toList_ofList, ← ofHyphenated?_eq_some_iff, ofHyphenated?,
    unhyphenate?_hyphenate groups hlength]
  exact ofDigits?_eq_some_iff.mpr id.spellsDigits_hexChars

theorem parse?_text (id : Identifier) : parse? id.text = some id :=
  parse?_eq_some_iff.mpr (.hyphenated id.text_groups)

theorem map_toLower_hyphenate (lengths : List Nat) (h : text.map Char.toLower = text) :
    (hyphenate lengths text).map Char.toLower = hyphenate lengths text := by
  induction lengths generalizing text with
  | nil => exact h
  | cons n more ih =>
      cases more with
      | nil => exact h
      | cons next more =>
          have hfront : (text.take n).map Char.toLower = text.take n := by rw [List.map_take, h]
          have hrest : (text.drop n).map Char.toLower = text.drop n := by rw [List.map_drop, h]
          simp only [hyphenate, List.map_append, List.map_cons, hfront, ih hrest]
          rfl

theorem map_toLower_text (id : Identifier) : id.text.toList.map Char.toLower = id.text.toList := by
  rw [text, String.toList_ofList]
  apply map_toLower_hyphenate
  rw [List.map_map]
  exact List.map_congr_left fun d _ => toLower_hexChar d

/-- The identifier as a number. -/
def number (id : Identifier) : Nat := Nat.ofDigits 16 (id.digits.reverse.map Fin.val)

theorem number_injective : Function.Injective number := by
  intro id other h
  have hless : ∀ (id : Identifier), ∀ n ∈ id.digits.reverse.map Fin.val, n < 16 := by
    intro id n hn
    obtain ⟨d, -, rfl⟩ := List.mem_map.mp hn
    exact d.isLt
  have hlength : (id.digits.reverse.map Fin.val).length =
      (other.digits.reverse.map Fin.val).length := by
    simp [id.length_digits, other.length_digits]
  have hvalues := Nat.ofDigits_inj_of_len_eq (by decide) hlength (hless id) (hless other) h
  have hdigits : id.digits = other.digits :=
    List.reverse_injective (List.map_injective_iff.mpr Fin.val_injective hvalues)
  cases id
  cases other
  cases hdigits
  rfl

theorem ofDigits_lowDigits (count n : Nat) :
    Nat.ofDigits 16 ((lowDigits count n).reverse.map Fin.val) = n % 16 ^ count := by
  induction count with
  | zero => simp [lowDigits, Nat.mod_one]
  | succ count ih =>
      rw [lowDigits, List.reverse_cons, List.map_append, Nat.ofDigits_append, ih, Nat.mod_pow_succ]
      simp [length_lowDigits]

/-- An identifier is a number of 128 bits. -/
theorem existsUnique_number (n : Fin (2 ^ 128)) : ∃! id : Identifier, id.number = n.val := by
  have hnumber : number ⟨lowDigits 32 n.val, length_lowDigits 32 n.val⟩ = n.val := by
    rw [number, ofDigits_lowDigits]
    exact Nat.mod_eq_of_lt n.isLt
  refine ⟨_, hnumber, ?_⟩
  intro id hid
  exact number_injective (hid.trans hnumber.symm)

end Identifier

namespace IdentifierKind

theorem read_eq_ok_iff {kind : IdentifierKind} {text : String} {id : Identifier} :
    kind.read text = .ok id ↔ id.Spells text.toList := by
  rw [← Identifier.parse?_eq_some_iff, read]
  cases Identifier.parse? text <;> simp

theorem read_eq_error_iff {kind : IdentifierKind} {text : String} :
    kind.read text = .error ⟨kind⟩ ↔ ¬ ∃ id : Identifier, id.Spells text.toList := by
  simp only [← Identifier.parse?_eq_some_iff, read]
  cases Identifier.parse? text <;> simp

/-- Identifiers of every kind are the numbers of 128 bits.  A text is read as an
identifier exactly if it spells it, and is otherwise an error that tells the
kind.  An identifier is written with hyphens and in lower case, which is read
back. -/
theorem spellings_read (kind : IdentifierKind) :
    (∀ n : Fin (2 ^ 128), ∃! id : Identifier, id.number = n.val) ∧
    (∀ (text : String) (id : Identifier), kind.read text = .ok id ↔ id.Spells text.toList) ∧
    (∀ text : String,
      kind.read text = .error ⟨kind⟩ ↔ ¬ ∃ id : Identifier, id.Spells text.toList) ∧
    ∀ id : Identifier, id.SpellsGroups id.text.toList ∧
      id.text.toList.map Char.toLower = id.text.toList ∧ kind.read id.text = .ok id := by
  refine ⟨Identifier.existsUnique_number, ?_, ?_, ?_⟩
  · intro text id
    exact read_eq_ok_iff
  · intro text
    exact read_eq_error_iff
  · intro id
    exact ⟨id.text_groups, id.map_toLower_text, read_eq_ok_iff.mpr (.hyphenated id.text_groups)⟩

-- braces go with hyphens only
example : IdentifierKind.lease.read "\x7b0190c0de00007000800000000000000a\x7d" =
    .error ⟨.lease⟩ := by
  decide

end IdentifierKind

end LeasedListener
