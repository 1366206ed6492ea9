import LeasedListener.Queue.Record
import LeasedListener.Proofs.Identifier.Grammar
import LeasedListener.Proofs.Json.Writer
import LeasedListener.Proofs.Timestamp.Text

/-!
# Message records and their text

A message is read back from the text in which it is written.  It is also read
from any text that spells an object with its six members, in whichever order
and among whichever other members, and from any that spells the array of the
six values.  An object in which one of the six members is missing or repeated
is no message.
-/

namespace LeasedListener

namespace Json

theorem natural?_ofNat (n : Nat) : (ofNat n).natural? = some n := digitsValue?_toDigits n

theorem string?_ofString (text : String) : (ofString text).string? = some text := rfl

end Json

namespace MessageRecord

theorem readIdentifier?_ofString (id : Identifier) :
    readIdentifier? (.ofString id.text) = some id := by
  rw [readIdentifier?, Json.string?_ofString, Option.bind_some, id.parse?_text]

theorem readTimestamp?_ofString (t : Timestamp) : readTimestamp? (.ofString t.text) = some t := by
  rw [readTimestamp?, Json.string?_ofString, Option.bind_some, t.parse?_text]

theorem readCount?_ofNat (count : UInt32) : readCount? (.ofNat count.toNat) = some count := by
  have hless : count.toNat < UInt32.size := count.toNat_lt
  simp [readCount?, Json.natural?_ofNat, hless]

theorem readByte?_ofNat (byte : UInt8) : readByte? (.ofNat byte.toNat) = some byte := by
  have hless : byte.toNat < UInt8.size := byte.toNat_lt
  simp [readByte?, Json.natural?_ofNat, hless]

theorem readBody?_array (body : List UInt8) :
    readBody? (.array (body.map fun byte => .ofNat byte.toNat)) = some body := by
  unfold readBody?
  induction body with
  | nil => rfl
  | cons byte body ih => simp [List.mapM_cons, readByte?_ofNat, ih]

theorem ofValues?_values (m : MessageRecord) : ofValues? m.values = some m := by
  simp [ofValues?, values, readIdentifier?_ofString, readTimestamp?_ofString, readCount?_ofNat,
    readBody?_array]

def members (m : MessageRecord) : List (Option String × Json) := (memberNames.map some).zip m.values

theorem isPlain_toJson (m : MessageRecord) : m.toJson.IsPlain := by
  have hbody : Json.IsPlain (.array (m.body.map fun byte => .ofNat byte.toNat)) := by
    refine .array ?_
    intro item hitem
    obtain ⟨byte, -, rfl⟩ := List.mem_map.mp hitem
    exact Json.isPlain_ofNat _
  refine .object ?_ ?_
  · simp [memberNames, values]
  · simp [memberNames, values, Json.isPlain_ofString, Json.isPlain_ofNat, hbody]

variable {m : MessageRecord} {name : String} {read extra : List (Option String × Json)}

theorem uniqueMember?_of_filter {member : Option String × Json}
    (h : (read.filter fun member => member.1 = some name).Perm [member]) :
    uniqueMember? name read = some member.2 := by
  rw [uniqueMember?, List.perm_singleton.mp h]

theorem uniqueMember?_eq_none (h : read.countP (·.1 = some name) ≠ 1) :
    uniqueMember? name read = none := by
  unfold uniqueMember?
  split
  · next member hmember =>
      rw [List.countP_eq_length_filter, hmember] at h
      exact absurd rfl h
  · rfl

/-- Among the members of a message and others, each of the six names occurs
once. -/
theorem uniqueMember?_of_perm {value : Json} (hperm : read.Perm (m.members ++ extra))
    (hextra : ∀ member ∈ extra, ∃ other, member.1 = some other ∧ other ∉ memberNames)
    (hname : name ∈ memberNames)
    (hvalue : m.members.filter (fun member => member.1 = some name) = [(some name, value)]) :
    uniqueMember? name read = some value := by
  have hnone : extra.filter (fun member => member.1 = some name) = [] := by
    rw [List.filter_eq_nil_iff]
    intro member hmember hsame
    obtain ⟨other, hother, hforeign⟩ := hextra member hmember
    rw [hother] at hsame
    obtain rfl := Option.some.inj (of_decide_eq_true hsame)
    exact hforeign hname
  have hfiltered := hperm.filter fun member => member.1 = some name
  rw [List.filter_append, hvalue, hnone, List.append_nil] at hfiltered
  exact uniqueMember?_of_filter hfiltered

theorem ofJson?_of_perm (hperm : read.Perm (m.members ++ extra))
    (hextra : ∀ member ∈ extra, ∃ other, member.1 = some other ∧ other ∉ memberNames) :
    ofJson? (.object read) = some m := by
  have hunique : ∀ {name : String} {value : Json}, name ∈ memberNames →
      m.members.filter (fun member => member.1 = some name) = [(some name, value)] →
      uniqueMember? name read = some value :=
    fun hname hvalue => uniqueMember?_of_perm hperm hextra hname hvalue
  have hnamed : read.all (fun member => member.1.isSome) = true := by
    rw [List.all_eq_true]
    intro member hmember
    rcases List.mem_append.mp (hperm.mem_iff.mp hmember) with hown | hother
    · obtain ⟨known, -, hknown⟩ := List.mem_map.mp (List.of_mem_zip hown).1
      rw [← hknown]
      rfl
    · obtain ⟨other, hother, -⟩ := hextra member hother
      rw [hother]
      rfl
  have hvalues : memberNames.mapM (fun name => uniqueMember? name read) = some m.values := by
    simp only [memberNames, List.mapM_cons, List.mapM_nil]
    rw [hunique (by decide) rfl, hunique (by decide) rfl, hunique (by decide) rfl,
      hunique (by decide) rfl, hunique (by decide) rfl, hunique (by decide) rfl]
    rfl
  rw [ofJson?, if_pos hnamed, hvalues]
  exact m.ofValues?_values

theorem mapM_eq_none {names : List String} {f : String → Option Json} (hname : name ∈ names)
    (hnone : f name = none) : names.mapM f = none := by
  induction names with
  | nil => simp at hname
  | cons first names ih =>
      rcases List.mem_cons.mp hname with rfl | hlater
      · simp [List.mapM_cons, hnone]
      · cases hfirst : f first <;> simp [List.mapM_cons, hfirst, ih hlater]

theorem ofJson?_eq_none (hname : name ∈ memberNames) (h : read.countP (·.1 = some name) ≠ 1) :
    ofJson? (.object read) = none := by
  have hnone : memberNames.mapM (fun name => uniqueMember? name read) = none :=
    mapM_eq_none hname (uniqueMember?_eq_none h)
  rw [ofJson?, hnone]
  split
  · rfl
  · rfl

/-- What is read as the message, and what is not read. -/
structure IsReadBack (m : MessageRecord) : Prop where
  written : parse? m.text = some m
  /-- The order of the members and other members make no difference. -/
  object : ∀ (text : String) (read extra : List (Option String × Json)),
    Json.Spells (.value (.object read)) text.toList → read.Perm (m.members ++ extra) →
    (∀ member ∈ extra, ∃ other, member.1 = some other ∧ other ∉ memberNames) →
    parse? text = some m
  array : ∀ text : String, Json.Spells (.value (.array m.values)) text.toList →
    parse? text = some m
  /-- Each of the six members is there exactly once. -/
  rejects : ∀ (text : String) (read : List (Option String × Json)) (name : String),
    Json.Spells (.value (.object read)) text.toList → name ∈ memberNames →
    read.countP (·.1 = some name) ≠ 1 → parse? text = none

theorem record_isReadBack (m : MessageRecord) : m.IsReadBack where
  written := by
    rw [parse?, text, Json.parse?_text m.isPlain_toJson]
    exact @ofJson?_of_perm m m.members [] (by rw [List.append_nil]) (by simp)
  object := by
    intro text read extra hspells hperm hextra
    rw [parse?, Json.parse?_of_spells hspells]
    exact ofJson?_of_perm hperm hextra
  array := by
    intro text hspells
    rw [parse?, Json.parse?_of_spells hspells]
    exact m.ofValues?_values
  rejects := by
    intro text read name hspells hname hcount
    rw [parse?, Json.parse?_of_spells hspells]
    exact ofJson?_eq_none hname hcount

end MessageRecord

end LeasedListener
