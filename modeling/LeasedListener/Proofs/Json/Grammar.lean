import LeasedListener.Json.Reader
import LeasedListener.Proofs.Text.Decimal

/-!
# The grammar of JSON

A text spells a value if the grammar derives it: with blanks around any token,
with any of the spellings of a character, and with members of one name as often
as they occur.  The reader takes every text that spells a value for that value.
-/

namespace LeasedListener.Json

/-- One piece of a string: a character that stands for itself, a character
behind a backslash, or a code of four digits. -/
inductive SpellsPiece : Piece → List Char → Prop
  | plain {c : Char} (printable : 32 ≤ c.toNat) (inside : c ≠ '"') (unescaped : c ≠ '\\') :
      SpellsPiece (.char c) [c]
  | escape {letter c : Char} (meaning : escaped? letter = some c) :
      SpellsPiece (.char c) ['\\', letter]
  | code {a b c d : Char} {p q r s : Nat} (first : hexValue? a = some p)
      (second : hexValue? b = some q) (third : hexValue? c = some r)
      (fourth : hexValue? d = some s) :
      SpellsPiece (pieceOfCode ((p * 16 + q) * 256 + (r * 16 + s))) ['\\', 'u', a, b, c, d]

inductive SpellsPieces : List Piece → List Char → Prop
  | nil : SpellsPieces [] []
  | cons {piece : Piece} {pieces : List Piece} {text rest : List Char}
      (first : SpellsPiece piece text) (others : SpellsPieces pieces rest) :
      SpellsPieces (piece :: pieces) (text ++ rest)

inductive SpellsString : Option String → List Char → Prop
  | quoted {pieces : List Piece} {inner : List Char} (spelled : SpellsPieces pieces inner) :
      SpellsString ((joinPieces? pieces).map String.ofList) ('"' :: inner ++ ['"'])

inductive SpellsName : Option String → List Char → Prop
  | string {name : Option String} {text : List Char} (string : SpellsString name text) :
      SpellsName name text
  | before {name : Option String} {c : Char} {text : List Char} (blank : isSpace c = true)
      (named : SpellsName name text) : SpellsName name (c :: text)
  | after {name : Option String} {c : Char} {text : List Char} (named : SpellsName name text)
      (blank : isSpace c = true) : SpellsName name (text ++ [c])

structure IsDigits (text : List Char) : Prop where
  digits : ∀ c ∈ text, c.isDigit = true
  nonempty : text ≠ []

inductive IsWhole : List Char → Prop
  | zero : IsWhole ['0']
  | digits {text : List Char} (digits : IsDigits text) (leading : text.head? ≠ some '0') :
      IsWhole text

inductive IsFraction : List Char → Prop
  | none : IsFraction []
  | digits {text : List Char} (digits : IsDigits text) : IsFraction ('.' :: text)

inductive IsExponent : List Char → Prop
  | none : IsExponent []
  | digits {mark : Char} {sign text : List Char} (marked : mark = 'e' ∨ mark = 'E')
      (signed : sign = [] ∨ sign = ['+'] ∨ sign = ['-']) (digits : IsDigits text) :
      IsExponent (mark :: sign ++ text)

inductive IsNumber : List Char → Prop
  | parts {sign whole fraction exponent : List Char} (signed : sign = [] ∨ sign = ['-'])
      (entire : IsWhole whole) (fractional : IsFraction fraction) (scaled : IsExponent exponent) :
      IsNumber (sign ++ whole ++ fraction ++ exponent)

/-- The parts of the grammar that refer to each other. -/
inductive Part
  | value (v : Json)
  /-- What stands between the brackets of an array that is not empty. -/
  | items (items : List Json)
  /-- What stands between the braces of an object that is not empty. -/
  | members (members : List (Option String × Json))

inductive Spells : Part → List Char → Prop
  | null : Spells (.value .null) ['n', 'u', 'l', 'l']
  | true : Spells (.value (.bool true)) ['t', 'r', 'u', 'e']
  | false : Spells (.value (.bool false)) ['f', 'a', 'l', 's', 'e']
  | number {text : List Char} (number : IsNumber text) : Spells (.value (.number text)) text
  | string {value : Option String} {text : List Char} (string : SpellsString value text) :
      Spells (.value (.string value)) text
  | noItems {blanks : List Char} (blank : ∀ c ∈ blanks, isSpace c = true) :
      Spells (.value (.array [])) ('[' :: blanks ++ [']'])
  | array {items : List Json} {text : List Char} (spelled : Spells (.items items) text) :
      Spells (.value (.array items)) ('[' :: text ++ [']'])
  | noMembers {blanks : List Char} (blank : ∀ c ∈ blanks, isSpace c = true) :
      Spells (.value (.object [])) ('{' :: blanks ++ ['}'])
  | object {members : List (Option String × Json)} {text : List Char}
      (spelled : Spells (.members members) text) :
      Spells (.value (.object members)) ('{' :: text ++ ['}'])
  | before {v : Json} {c : Char} {text : List Char} (blank : isSpace c = true)
      (value : Spells (.value v) text) : Spells (.value v) (c :: text)
  | after {v : Json} {c : Char} {text : List Char} (value : Spells (.value v) text)
      (blank : isSpace c = true) : Spells (.value v) (text ++ [c])
  | item {v : Json} {text : List Char} (value : Spells (.value v) text) : Spells (.items [v]) text
  | moreItems {v : Json} {items : List Json} {text rest : List Char}
      (value : Spells (.value v) text) (others : Spells (.items items) rest) :
      Spells (.items (v :: items)) (text ++ ',' :: rest)
  | member {name : Option String} {v : Json} {label text : List Char}
      (named : SpellsName name label) (value : Spells (.value v) text) :
      Spells (.members [(name, v)]) (label ++ ':' :: text)
  | moreMembers {name : Option String} {v : Json} {members : List (Option String × Json)}
      {label text rest : List Char} (named : SpellsName name label)
      (value : Spells (.value v) text) (others : Spells (.members members) rest) :
      Spells (.members ((name, v) :: members)) (label ++ ':' :: text ++ ',' :: rest)

/-- What can follow a value. -/
def Ends (rest : List Char) : Prop :=
  ∀ c, rest.head? = some c → isSpace c = true ∨ c = ',' ∨ c = ']' ∨ c = '}'

variable {text rest : List Char}

theorem Ends.cons {c : Char} (h : isSpace c = true ∨ c = ',' ∨ c = ']' ∨ c = '}') :
    Ends (c :: rest) := by
  rintro _ ⟨⟩
  exact h

theorem ends_nil : Ends [] := by
  intro c hhead
  simp at hhead

theorem isSpace_eq (c : Char) :
    isSpace c = true ↔ c = ' ' ∨ c = '\n' ∨ c = '\t' ∨ c = '\r' := by
  simp [isSpace, or_assoc]

theorem Ends.stops (h : Ends rest) : ∀ c, rest.head? = some c →
    c.isDigit = false ∧ c ≠ '.' ∧ c ≠ 'e' ∧ c ≠ 'E' := by
  intro c hhead
  have hends := h c hhead
  rw [isSpace_eq] at hends
  rcases hends with (rfl | rfl | rfl | rfl) | rfl | rfl | rfl <;> decide

theorem IsDigits.read (h : IsDigits text) (hrest : ∀ c, rest.head? = some c → c.isDigit = false) :
    readDigits? (text ++ rest) = some (text, rest) := by
  unfold readDigits?
  rw [takeWhile_append_of_stop h.digits hrest, dropWhile_append_of_stop h.digits hrest]
  simp [h.nonempty]

theorem IsDigits.head (h : IsDigits text) : ∃ c rest, text = c :: rest ∧ c.isDigit = true := by
  obtain ⟨c, rest, rfl⟩ := List.exists_cons_of_ne_nil h.nonempty
  exact ⟨c, rest, rfl, h.digits c (List.mem_cons_self ..)⟩

theorem IsWhole.head (h : IsWhole text) : ∃ c rest, text = c :: rest ∧ c.isDigit = true := by
  cases h with
  | zero => exact ⟨'0', [], rfl, rfl⟩
  | digits digits _ => exact digits.head

theorem IsWhole.read (h : IsWhole text) (hrest : ∀ c, rest.head? = some c → c.isDigit = false) :
    readWhole? (text ++ rest) = some (text, rest) := by
  cases h with
  | zero => rfl
  | digits digits leading =>
      obtain ⟨c, more, rfl, -⟩ := digits.head
      have hread := digits.read hrest
      rw [← hread]
      unfold readWhole?
      split
      · next h =>
          rw [(List.cons.inj h).1] at leading
          exact absurd rfl leading
      · rfl

theorem IsFraction.read (h : IsFraction text)
    (hrest : ∀ c, rest.head? = some c → c.isDigit = false ∧ c ≠ '.') :
    readFraction? (text ++ rest) = some (text, rest) := by
  cases h with
  | none =>
      cases rest with
      | nil => rfl
      | cons c rest =>
          have hpoint := (hrest c rfl).2
          simp [readFraction?, hpoint]
  | digits digits =>
      have hread := digits.read fun c hhead => (hrest c hhead).1
      simp [readFraction?, hread]

theorem IsFraction.stops (h : IsFraction text)
    (hrest : ∀ c, rest.head? = some c → c.isDigit = false) :
    ∀ c, (text ++ rest).head? = some c → c.isDigit = false := by
  cases h with
  | none => exact hrest
  | digits _ =>
      rintro _ ⟨⟩
      rfl

theorem IsExponent.stops (h : IsExponent text) (hrest : Ends rest) :
    ∀ c, (text ++ rest).head? = some c → c.isDigit = false ∧ c ≠ '.' := by
  cases h with
  | none =>
      intro c hhead
      obtain ⟨hdigit, hpoint, -, -⟩ := hrest.stops c hhead
      exact ⟨hdigit, hpoint⟩
  | digits marked _ _ =>
      rintro _ ⟨⟩
      rcases marked with rfl | rfl <;> decide

theorem IsExponent.read (h : IsExponent text) (hrest : Ends rest) :
    readExponent? (text ++ rest) = some (text, rest) := by
  cases h with
  | none =>
      cases rest with
      | nil => rfl
      | cons c rest =>
          obtain ⟨-, -, hlower, hupper⟩ := hrest.stops c rfl
          exact if_neg (by simp [hlower, hupper])
  | @digits mark sign digits marked signed isDigits =>
      have hread := isDigits.read fun c hhead => (hrest.stops c hhead).1
      obtain ⟨c, more, rfl, hdigit⟩ := isDigits.head
      have hplus : c ≠ '+' := by
        rintro rfl
        simp [Char.isDigit] at hdigit
      have hminus : c ≠ '-' := by
        rintro rfl
        simp [Char.isDigit] at hdigit
      rcases signed with rfl | rfl | rfl
      · simp_all [readExponent?]
      · simp_all [readExponent?]
      · simp_all [readExponent?]

theorem IsNumber.head (h : IsNumber text) :
    ∃ c rest, text = c :: rest ∧ (c = '-' ∨ c.isDigit = true) := by
  cases h with
  | parts signed entire _ _ =>
      obtain ⟨c, rest, rfl, hdigit⟩ := entire.head
      rcases signed with rfl | rfl
      · exact ⟨c, _, rfl, .inr hdigit⟩
      · exact ⟨'-', _, rfl, .inl rfl⟩

theorem IsNumber.read (h : IsNumber text) (hrest : Ends rest) :
    readNumber? (text ++ rest) = some (text, rest) := by
  cases h with
  | @parts sign whole fraction exponent signed entire fractional scaled =>
      have hexponent := scaled.read hrest
      have hfraction := fractional.read (scaled.stops hrest)
      have hwhole := entire.read
        (fractional.stops fun c hhead => (scaled.stops hrest c hhead).1)
      obtain ⟨c, more, rfl, hdigit⟩ := entire.head
      have hminus : c ≠ '-' := by
        rintro rfl
        simp [Char.isDigit] at hdigit
      rcases signed with rfl | rfl
      · simp_all [readNumber?]
      · simp_all [readNumber?]

theorem readPieces?_plain {c : Char} (printable : 32 ≤ c.toNat) (inside : c ≠ '"')
    (unescaped : c ≠ '\\') :
    readPieces? (c :: rest) =
      (readPieces? rest).map fun read => (.char c :: read.1, read.2) := by
  have hprintable : ¬ c.toNat < 32 := by omega
  rw [readPieces?.eq_def]
  simp [unescaped, hprintable]

theorem readPieces?_escape {letter c : Char} (meaning : escaped? letter = some c) :
    readPieces? ('\\' :: letter :: rest) =
      (readPieces? rest).map fun read => (.char c :: read.1, read.2) := by
  have hletter : letter ≠ 'u' := by
    rintro rfl
    simp [escaped?] at meaning
  rw [readPieces?.eq_def]
  cases hread : readPieces? rest <;> simp [hletter, meaning, hread]

theorem SpellsPiece.read {piece : Piece} (h : SpellsPiece piece text) (rest : List Char) :
    readPieces? (text ++ rest) =
      (readPieces? rest).map fun read => (piece :: read.1, read.2) := by
  cases h with
  | plain printable inside unescaped => exact readPieces?_plain printable inside unescaped
  | escape meaning => exact readPieces?_escape meaning
  | code first second third fourth =>
      cases hread : readPieces? rest <;>
        simp [readPieces?, first, second, third, fourth, hread]

theorem SpellsPieces.read {pieces : List Piece} (h : SpellsPieces pieces text)
    (rest : List Char) : readPieces? (text ++ '"' :: rest) = some (pieces, rest) := by
  induction h with
  | nil => rfl
  | cons first _ ih => rw [List.append_assoc, first.read, ih]; rfl

theorem skipSpace_cons {c : Char} (h : isSpace c = true) : skipSpace (c :: text) = skipSpace text :=
  List.dropWhile_cons_of_pos h

theorem skipSpace_of_not {c : Char} (h : isSpace c = false) : skipSpace (c :: text) = c :: text :=
  List.dropWhile_cons_of_neg (by simp [h])

theorem skipSpace_append {blanks : List Char} (h : ∀ c ∈ blanks, isSpace c = true) :
    skipSpace (blanks ++ text) = skipSpace text :=
  List.dropWhile_append_of_pos h

theorem skipSpace_skipSpace (text : List Char) : skipSpace (skipSpace text) = skipSpace text := by
  induction text with
  | nil => rfl
  | cons c rest ih =>
      cases hspace : isSpace c with
      | true => rw [skipSpace_cons hspace, ih]
      | false => rw [skipSpace_of_not hspace, skipSpace_of_not hspace]

theorem SpellsString.read {value : Option String} (h : SpellsString value text) :
    ∃ inner, text = '"' :: inner ∧ ∀ rest, readString? (inner ++ rest) = some (value, rest) := by
  cases h with
  | @quoted pieces inner spelled =>
      refine ⟨inner ++ ['"'], rfl, ?_⟩
      intro rest
      have hread := spelled.read rest
      simp [readString?, hread]

theorem SpellsName.read {name : Option String} (h : SpellsName name text) (rest : List Char) :
    ∃ inner tail, skipSpace (text ++ rest) = '"' :: inner ∧
      readString? inner = some (name, tail) ∧ skipSpace tail = skipSpace rest := by
  induction h generalizing rest with
  | string string =>
      obtain ⟨inner, rfl, hread⟩ := string.read
      exact ⟨_, rest, skipSpace_of_not rfl, hread rest, rfl⟩
  | before blank _ ih =>
      rw [List.cons_append, skipSpace_cons blank]
      exact ih rest
  | @after c text _ blank ih =>
      obtain ⟨inner, tail, hquote, hread, hskip⟩ := ih (c :: rest)
      rw [List.append_assoc]
      exact ⟨inner, tail, hquote, hread, hskip.trans (skipSpace_cons blank)⟩

theorem isSpace_of_isDigit {c : Char} (h : c.isDigit = true) : isSpace c = false := by
  rw [Bool.eq_false_iff, Ne, isSpace_eq]
  rintro (rfl | rfl | rfl | rfl) <;> simp [Char.isDigit] at h

/-- A text that spells something does not start with a closing bracket. -/
theorem Spells.starts {part : Part} (h : Spells part text) (rest : List Char) :
    ∃ c more, skipSpace (text ++ rest) = c :: more ∧ c ≠ ']' ∧ c ≠ '}' := by
  induction h generalizing rest with
  | null | true | false => exact ⟨_, _, skipSpace_of_not rfl, by decide, by decide⟩
  | number number =>
      obtain ⟨c, more, rfl, hfirst⟩ := number.head
      rcases hfirst with rfl | hdigit
      · exact ⟨_, _, skipSpace_of_not rfl, by decide, by decide⟩
      · refine ⟨c, _, skipSpace_of_not (isSpace_of_isDigit hdigit), ?_, ?_⟩
        · rintro rfl
          simp [Char.isDigit] at hdigit
        · rintro rfl
          simp [Char.isDigit] at hdigit
  | string string =>
      obtain ⟨inner, rfl, -⟩ := string.read
      exact ⟨_, _, skipSpace_of_not rfl, by decide, by decide⟩
  | noItems _ | array _ _ | noMembers _ | object _ _ =>
      exact ⟨_, _, skipSpace_of_not rfl, by decide, by decide⟩
  | before blank _ ih =>
      rw [List.cons_append, skipSpace_cons blank]
      exact ih rest
  | after _ _ ih | moreItems _ _ ih _ =>
      rw [List.append_assoc]
      exact ih _
  | item _ ih => exact ih rest
  | member named _ _ =>
      rw [List.append_assoc]
      obtain ⟨inner, tail, hquote, -, -⟩ := named.read _
      exact ⟨_, _, hquote, by decide, by decide⟩
  | moreMembers named _ _ _ _ =>
      rw [List.append_assoc, List.append_assoc]
      obtain ⟨inner, tail, hquote, -, -⟩ := named.read _
      exact ⟨_, _, hquote, by decide, by decide⟩

theorem readValue?_skipSpace (fuel : Nat) (text : List Char) :
    readValue? fuel (skipSpace text) = readValue? fuel text := by
  cases fuel with
  | zero => simp [readValue?]
  | succ fuel => simp only [readValue?, skipSpace_skipSpace]

theorem readItems?_skipSpace (fuel : Nat) (text : List Char) :
    readItems? fuel (skipSpace text) = readItems? fuel text := by
  cases fuel with
  | zero => simp [readItems?]
  | succ fuel => simp only [readItems?, readValue?_skipSpace]

theorem readMembers?_skipSpace (fuel : Nat) (text : List Char) :
    readMembers? fuel (skipSpace text) = readMembers? fuel text := by
  cases fuel with
  | zero => simp [readMembers?]
  | succ fuel => simp only [readMembers?, skipSpace_skipSpace]

/-- The reader takes the text for the part of a value.  What it leaves may
start with the blanks after the value. -/
def Part.IsRead (fuel : Nat) (text : List Char) : Part → Prop
  | .value v => text.length < fuel → ∀ rest, Ends rest →
      ∃ tail, readValue? fuel (text ++ rest) = some (v, tail) ∧ skipSpace tail = skipSpace rest
  | .items vs => text.length + 1 < fuel →
      ∀ rest, readItems? fuel (text ++ ']' :: rest) = some (vs, rest)
  | .members ms => text.length + 1 < fuel →
      ∀ rest, readMembers? fuel (text ++ '}' :: rest) = some (ms, rest)

theorem readValue?_number {fuel : Nat} (h : IsNumber text) :
    readValue? (fuel + 1) (text ++ rest) =
      (readNumber? (text ++ rest)).map fun read => (.number read.1, read.2) := by
  obtain ⟨c, more, rfl, hfirst⟩ := h.head
  have hspace : isSpace c = false := by
    rcases hfirst with rfl | hdigit
    · rfl
    · exact isSpace_of_isDigit hdigit
  rw [readValue?, List.cons_append, skipSpace_of_not hspace]
  split <;> simp_all [Char.isDigit]

section

variable {fuel : Nat} {c : Char} {more tail : List Char} {v : Json} {name : Option String}

theorem readValue?_noItems (h : skipSpace text = ']' :: rest) :
    readValue? (fuel + 1) ('[' :: text) = some (.array [], rest) := by
  simp [readValue?, skipSpace_of_not, isSpace, h]

theorem readValue?_items (h : skipSpace text = c :: more) (hbracket : c ≠ ']') :
    readValue? (fuel + 1) ('[' :: text) =
      (readItems? fuel text).map fun read => (.array read.1, read.2) := by
  rw [← readItems?_skipSpace]
  simp [readValue?, skipSpace_of_not, isSpace, h, hbracket]

theorem readValue?_noMembers (h : skipSpace text = '}' :: rest) :
    readValue? (fuel + 1) ('{' :: text) = some (.object [], rest) := by
  simp [readValue?, skipSpace_of_not, isSpace, h]

theorem readValue?_members (h : skipSpace text = c :: more) (hbrace : c ≠ '}') :
    readValue? (fuel + 1) ('{' :: text) =
      (readMembers? fuel text).map fun read => (.object read.1, read.2) := by
  rw [← readMembers?_skipSpace]
  simp [readValue?, skipSpace_of_not, isSpace, h, hbrace]

theorem readItems?_last (hvalue : readValue? fuel text = some (v, tail))
    (hskip : skipSpace tail = ']' :: rest) : readItems? (fuel + 1) text = some ([v], rest) := by
  simp [readItems?, hvalue, hskip]

theorem readItems?_more {items : List Json} (hvalue : readValue? fuel text = some (v, tail))
    (hskip : skipSpace tail = ',' :: more) (hothers : readItems? fuel more = some (items, rest)) :
    readItems? (fuel + 1) text = some (v :: items, rest) := by
  simp [readItems?, hvalue, hskip, hothers]

section

variable {inner after value : List Char} (hquote : skipSpace text = '"' :: inner)
  (hname : readString? inner = some (name, after)) (hcolon : skipSpace after = ':' :: value)
  (hvalue : readValue? fuel value = some (v, tail))

include hquote hname hcolon hvalue

theorem readMembers?_last (hskip : skipSpace tail = '}' :: rest) :
    readMembers? (fuel + 1) text = some ([(name, v)], rest) := by
  simp [readMembers?, hquote, hname, hcolon, hvalue, hskip]

theorem readMembers?_more {members : List (Option String × Json)}
    (hskip : skipSpace tail = ',' :: more)
    (hothers : readMembers? fuel more = some (members, rest)) :
    readMembers? (fuel + 1) text = some ((name, v) :: members, rest) := by
  simp [readMembers?, hquote, hname, hcolon, hvalue, hskip, hothers]

end

end

theorem exists_fuel {need fuel : Nat} (h : need < fuel) : ∃ less, fuel = less + 1 ∧ need ≤ less :=
  ⟨fuel - 1, by omega, by omega⟩

theorem Spells.isRead {part : Part} (h : Spells part text) (fuel : Nat) :
    part.IsRead fuel text := by
  -- along the grammar, not the fuel: what a part is made of is shorter than the
  -- part, so the fuel that is left is enough for it
  induction h generalizing fuel with
  | null | true | false =>
      intro hfuel rest _
      obtain ⟨fuel, rfl, -⟩ := exists_fuel hfuel
      exact ⟨rest, rfl, rfl⟩
  | number number =>
      intro hfuel rest hends
      obtain ⟨fuel, rfl, -⟩ := exists_fuel hfuel
      refine ⟨rest, ?_, rfl⟩
      rw [readValue?_number number, number.read hends]
      rfl
  | string string =>
      intro hfuel rest _
      obtain ⟨fuel, rfl, -⟩ := exists_fuel hfuel
      obtain ⟨inner, rfl, hread⟩ := string.read
      refine ⟨rest, ?_, rfl⟩
      rw [readValue?, List.cons_append, skipSpace_of_not rfl]
      simp [hread rest]
  | noItems blank =>
      intro hfuel rest _
      obtain ⟨fuel, rfl, -⟩ := exists_fuel hfuel
      refine ⟨rest, ?_, rfl⟩
      rw [List.append_assoc]
      exact readValue?_noItems ((skipSpace_append blank).trans (skipSpace_of_not rfl))
  | noMembers blank =>
      intro hfuel rest _
      obtain ⟨fuel, rfl, -⟩ := exists_fuel hfuel
      refine ⟨rest, ?_, rfl⟩
      rw [List.append_assoc]
      exact readValue?_noMembers ((skipSpace_append blank).trans (skipSpace_of_not rfl))
  | @array items text spelled ih =>
      intro hfuel rest _
      obtain ⟨fuel, rfl, hless⟩ := exists_fuel hfuel
      simp only [List.length_append, List.length_cons, List.length_nil] at hless
      have hread := ih fuel (by omega) rest
      obtain ⟨c, more, hstart, hbracket, -⟩ := spelled.starts (']' :: rest)
      refine ⟨rest, ?_, rfl⟩
      have hitems := @readValue?_items _ fuel _ _ hstart hbracket
      rw [hread] at hitems
      rw [List.append_assoc]
      exact hitems
  | @object members text spelled ih =>
      intro hfuel rest _
      obtain ⟨fuel, rfl, hless⟩ := exists_fuel hfuel
      simp only [List.length_append, List.length_cons, List.length_nil] at hless
      have hread := ih fuel (by omega) rest
      obtain ⟨c, more, hstart, -, hbrace⟩ := spelled.starts ('}' :: rest)
      refine ⟨rest, ?_, rfl⟩
      have hmembers := @readValue?_members _ fuel _ _ hstart hbrace
      rw [hread] at hmembers
      rw [List.append_assoc]
      exact hmembers
  | @before v c text blank _ ih =>
      intro hfuel rest hends
      obtain ⟨tail, hread, hskip⟩ := ih fuel (Nat.lt_of_succ_lt hfuel) rest hends
      refine ⟨tail, ?_, hskip⟩
      rw [← readValue?_skipSpace, List.cons_append, skipSpace_cons blank, readValue?_skipSpace]
      exact hread
  | @after v c text _ blank ih =>
      intro hfuel rest hends
      rw [List.length_append] at hfuel
      obtain ⟨tail, hread, hskip⟩ := ih fuel (Nat.lt_of_add_right_lt hfuel) (c :: rest)
        (.cons (.inl blank))
      refine ⟨tail, ?_, hskip.trans (skipSpace_cons blank)⟩
      rw [List.append_assoc]
      exact hread
  | item _ ih =>
      intro hfuel rest
      obtain ⟨fuel, rfl, hless⟩ := exists_fuel hfuel
      obtain ⟨tail, hread, hskip⟩ := ih fuel hless (']' :: rest) (.cons (by simp))
      exact readItems?_last hread (hskip.trans (skipSpace_of_not rfl))
  | moreItems _ _ ihValue ihOthers =>
      intro hfuel rest
      obtain ⟨fuel, rfl, hless⟩ := exists_fuel hfuel
      simp only [List.length_append, List.length_cons] at hless
      obtain ⟨tail, hread, hskip⟩ := ihValue fuel (by omega) _ (.cons (.inr (.inl rfl)))
      have hothers := ihOthers fuel (by omega) rest
      rw [List.append_assoc]
      exact readItems?_more hread (hskip.trans (skipSpace_of_not rfl)) hothers
  | member named _ ih =>
      intro hfuel rest
      obtain ⟨fuel, rfl, hless⟩ := exists_fuel hfuel
      simp only [List.length_append, List.length_cons] at hless
      obtain ⟨tail, hread, hskip⟩ := ih fuel (by omega) ('}' :: rest) (.cons (by simp))
      obtain ⟨inner, after, hquote, hname, hcolon⟩ := named.read (':' :: _)
      rw [List.append_assoc]
      exact readMembers?_last hquote hname (hcolon.trans (skipSpace_of_not rfl)) hread
        (hskip.trans (skipSpace_of_not rfl))
  | moreMembers named _ _ ihValue ihOthers =>
      intro hfuel rest
      obtain ⟨fuel, rfl, hless⟩ := exists_fuel hfuel
      simp only [List.length_append, List.length_cons] at hless
      obtain ⟨tail, hread, hskip⟩ := ihValue fuel (by omega) _ (.cons (.inr (.inl rfl)))
      have hothers := ihOthers fuel (by omega) rest
      obtain ⟨inner, after, hquote, hname, hcolon⟩ := named.read (':' :: _)
      rw [List.append_assoc, List.append_assoc]
      exact readMembers?_more hquote hname (hcolon.trans (skipSpace_of_not rfl)) hread
        (hskip.trans (skipSpace_of_not rfl)) hothers

theorem parse?_of_spells {text : String} {v : Json} (h : Spells (.value v) text.toList) :
    parse? text = some v := by
  obtain ⟨tail, hread, hskip⟩ := h.isRead (text.toList.length + 1) (Nat.lt_succ_self _) [] ends_nil
  rw [List.append_nil] at hread
  have hempty : skipSpace tail = [] := hskip
  simp [parse?, parseChars?, hread, hempty]

end LeasedListener.Json
