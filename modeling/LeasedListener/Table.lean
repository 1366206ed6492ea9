/-!
# Tables

Finite maps from names to values, kept in order of first insertion.
-/

namespace LeasedListener

structure Table (α : Type) where
  entries : List (String × α) := []

namespace Table

variable {α : Type}

def get? (t : Table α) (name : String) : Option α :=
  (t.entries.find? fun entry => entry.1 = name).map (·.2)

def setEntry (name : String) (a : α) : List (String × α) → List (String × α)
  | [] => [(name, a)]
  | entry :: rest => if entry.1 = name then (name, a) :: rest else entry :: setEntry name a rest

/-- Replace the value of `name`, or add it at the end. -/
def set (t : Table α) (name : String) (a : α) : Table α := ⟨setEntry name a t.entries⟩

def erase (t : Table α) (name : String) : Table α :=
  ⟨t.entries.filter fun entry => entry.1 ≠ name⟩

def contains (t : Table α) (name : String) : Bool := (t.get? name).isSome

/-- Change the value of `name`, if there is one. -/
def modify (t : Table α) (name : String) (f : α → α) : Table α :=
  match t.get? name with
  | none => t
  | some a => t.set name (f a)

instance : Inhabited (Table α) := ⟨⟨[]⟩⟩

theorem find?_setEntry_self (name : String) (a : α) (entries : List (String × α)) :
    (setEntry name a entries).find? (fun entry => entry.1 = name) = some (name, a) := by
  induction entries with
  | nil => simp [setEntry]
  | cons entry rest ih =>
      by_cases h : entry.1 = name
      · simp [setEntry, h]
      · simp [setEntry, h, ih]

theorem find?_setEntry_of_ne {name other : String} (a : α) (h : other ≠ name)
    (entries : List (String × α)) :
    (setEntry name a entries).find? (fun entry => entry.1 = other) =
      entries.find? fun entry => entry.1 = other := by
  have hne : name ≠ other := fun e => h e.symm
  induction entries with
  | nil => simp [setEntry, hne]
  | cons entry rest ih =>
      by_cases hn : entry.1 = name
      · simp [setEntry, hn, hne]
      · simp [setEntry, hn, List.find?_cons, ih]

@[simp] theorem get?_set_self (t : Table α) (name : String) (a : α) :
    (t.set name a).get? name = some a := by
  simp [get?, set, find?_setEntry_self]

theorem get?_set_of_ne {t : Table α} {name other : String} (a : α) (h : other ≠ name) :
    (t.set name a).get? other = t.get? other := by
  simp only [get?, set, find?_setEntry_of_ne a h]

end Table

end LeasedListener
