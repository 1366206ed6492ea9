import LeasedListener.Json.Writer
import LeasedListener.Proofs.Json.Grammar

/-!
# Writing follows the grammar

The text in which a value is written spells the value, if it is a value that
can be written: its numbers are spelled as the grammar has them, and its
strings have a text.
-/

namespace LeasedListener.Json

inductive IsPlain : Json → Prop
  | null : IsPlain .null
  | bool (b : Bool) : IsPlain (.bool b)
  | number {spelling : List Char} (number : IsNumber spelling) : IsPlain (.number spelling)
  | string (text : String) : IsPlain (.string (some text))
  | array {items : List Json} (plain : ∀ item ∈ items, IsPlain item) : IsPlain (.array items)
  | object {members : List (Option String × Json)} (named : ∀ member ∈ members, member.1.isSome)
      (plain : ∀ member ∈ members, IsPlain member.2) : IsPlain (.object members)

theorem isPlain_ofString (text : String) : IsPlain (.ofString text) := .string text

theorem isNumber_toDigits (n : Nat) : IsNumber (Nat.toDigits 10 n) := by
  have hwhole : IsWhole (Nat.toDigits 10 n) := by
    rcases Nat.eq_zero_or_pos n with rfl | hpos
    · exact .zero
    · exact .digits ⟨isDigit_toDigits n, Nat.toDigits_ne_nil⟩ (head?_toDigits hpos)
  have hnumber := IsNumber.parts (.inl rfl) hwhole .none .none
  rw [List.append_nil, List.append_nil, List.nil_append] at hnumber
  exact hnumber

theorem isPlain_ofNat (n : Nat) : IsPlain (.ofNat n) := .number (isNumber_toDigits n)

theorem hexValue?_hexDigit (n : Nat) : hexValue? (hexDigit n) = some (n % 16) := by
  have hless : n % 16 < 16 := Nat.mod_lt n (by decide)
  unfold hexDigit
  generalize n % 16 = digit at hless ⊢
  interval_cases digit <;> rfl

theorem spellsPiece_escape (c : Char) : SpellsPiece (.char c) (escape c) := by
  unfold escape
  split
  · next hquote =>
      subst hquote
      exact .escape rfl
  · next hquote =>
      split
      · next hslash =>
          subst hslash
          exact .escape rfl
      · next hslash =>
          split
          · next hcontrol =>
              have hcode : (0 * 16 + 0) * 256 + (c.toNat / 16 % 16 * 16 + c.toNat % 16) = c.toNat := by
                omega
              have hplain : pieceOfCode c.toNat = .char c := by
                unfold pieceOfCode isSurrogate
                rw [Char.ofNat_toNat, if_neg]
                simp
                omega
              have hspelled : SpellsPiece (pieceOfCode
                  ((0 * 16 + 0) * 256 + (c.toNat / 16 % 16 * 16 + c.toNat % 16)))
                  ['\\', 'u', '0', '0', hexDigit (c.toNat / 16), hexDigit c.toNat] :=
                .code rfl rfl (hexValue?_hexDigit _) (hexValue?_hexDigit _)
              rw [hcode, hplain] at hspelled
              exact hspelled
          · next hcontrol => exact .plain (Nat.not_lt.mp hcontrol) hquote hslash

theorem spellsPieces_escape (text : List Char) :
    SpellsPieces (text.map .char) (text.flatMap escape) := by
  induction text with
  | nil => exact .nil
  | cons c text ih => exact .cons (spellsPiece_escape c) ih

theorem joinPieces?_chars (text : List Char) : joinPieces? (text.map .char) = some text := by
  induction text with
  | nil => rfl
  | cons c text ih => rw [List.map_cons, joinPieces?, ih]; rfl

theorem spellsString_quoted (text : String) : SpellsString (some text) (quoted text.toList) := by
  have hspelled := SpellsString.quoted (spellsPieces_escape text.toList)
  rw [joinPieces?_chars, Option.map_some, String.ofList_toList] at hspelled
  exact hspelled

theorem spells_items {items : List Json} (hsome : items ≠ [])
    (h : ∀ item ∈ items, Spells (.value item) item.render) :
    Spells (.items items) (separated (renderItems items)) := by
  induction items with
  | nil => exact absurd rfl hsome
  | cons item items ih =>
      obtain ⟨hitem, hitems⟩ := List.forall_mem_cons.mp h
      cases items with
      | nil => exact .item hitem
      | cons next items => exact .moreItems hitem (ih (List.cons_ne_nil _ _) hitems)

theorem spells_members {members : List (Option String × Json)} (hsome : members ≠ [])
    (hnamed : ∀ member ∈ members, member.1.isSome)
    (h : ∀ member ∈ members, Spells (.value member.2) member.2.render) :
    Spells (.members members) (separated (renderMembers members)) := by
  induction members with
  | nil => exact absurd rfl hsome
  | cons member members ih =>
      obtain ⟨hmember, hmembers⟩ := List.forall_mem_cons.mp h
      obtain ⟨hname, hnames⟩ := List.forall_mem_cons.mp hnamed
      obtain ⟨_ | name, value⟩ := member
      · simp at hname
      have hlabel : SpellsName (some name) (quoted name.toList) :=
        .string (spellsString_quoted name)
      cases members with
      | nil => exact .member hlabel hmember
      | cons next members =>
          exact .moreMembers hlabel hmember (ih (List.cons_ne_nil _ _) hnames hmembers)

theorem IsPlain.spells {v : Json} (h : IsPlain v) : Spells (.value v) v.render := by
  induction h with
  | null => exact .null
  | bool b => cases b with
    | true => exact .true
    | false => exact .false
  | number number => exact .number number
  | string text => exact .string (spellsString_quoted text)
  | @array items _ ih =>
      cases items with
      | nil => exact @Spells.noItems [] (by simp)
      | cons item items => exact .array (spells_items (List.cons_ne_nil _ _) ih)
  | @object members named _ ih =>
      cases members with
      | nil => exact @Spells.noMembers [] (by simp)
      | cons member members => exact .object (spells_members (List.cons_ne_nil _ _) named ih)

/-- A value that can be written is read back from its text. -/
theorem parse?_text {v : Json} (h : IsPlain v) : parse? v.text = some v := by
  refine parse?_of_spells ?_
  rw [text, String.toList_ofList]
  exact h.spells

end LeasedListener.Json
