/-!
# Finite tables

A table maps keys to entries and is kept as a list with one entry per key, in
the order in which the keys first came. The view is `get?`; every operation is
described by what it does to it.

## Main results

* `get?_insert`, `get?_erase`: an operation changes the entry of its own key
  and no other.
* `contains_eq_isSome`, `mem_keys_iff`: a table contains the keys that `get?` answers.
-/

namespace EcmaCore

/-- A finite map from keys to entries. -/
structure Table (κ α : Type) where
  entries : List (κ × α)
  deriving DecidableEq, Repr

namespace Table

variable {κ α : Type} [DecidableEq κ]

/-- The table without entries. -/
def empty : Table κ α := ⟨[]⟩

instance : Inhabited (Table κ α) := ⟨empty⟩

/-- The entry found for a key in a list of entries. -/
def find (key : κ) : List (κ × α) → Option α
  | [] => none
  | (k, entry) :: rest => if k = key then some entry else find key rest

/-- The entry of a key. -/
def get? (t : Table κ α) (key : κ) : Option α := find key t.entries

/-- Whether a key has an entry. -/
def contains (t : Table κ α) (key : κ) : Bool := (t.get? key).isSome

/-- The keys in the order in which they first came. -/
def keys (t : Table κ α) : List κ := t.entries.map (·.1)

/-- The list of entries with the entry of one key replaced or added at the end. -/
def put (key : κ) (entry : α) : List (κ × α) → List (κ × α)
  | [] => [(key, entry)]
  | (k, old) :: rest => if k = key then (key, entry) :: rest else (k, old) :: put key entry rest

/-- Gives a key an entry, in place of the one it had. -/
def insert (t : Table κ α) (key : κ) (entry : α) : Table κ α := ⟨put key entry t.entries⟩

/-- Removes a key. -/
def erase (t : Table κ α) (key : κ) : Table κ α := ⟨t.entries.filter (·.1 ≠ key)⟩

@[simp] theorem get?_empty (key : κ) : (empty : Table κ α).get? key = none := rfl

theorem find_put (key other : κ) (entry : α) (entries : List (κ × α)) :
    find other (put key entry entries) =
      if key = other then some entry else find other entries := by
  induction entries with
  | nil => simp [put, find]
  | cons head rest ih =>
      obtain ⟨k, old⟩ := head
      by_cases hk : k = key
      · subst hk
        by_cases ho : k = other <;> simp [put, find, ho]
      · by_cases ho : k = other
        · subst ho
          simp [put, find, hk, Ne.symm hk]
        · simp only [put, if_neg hk, find, if_neg ho, ih]

theorem find_filter (key other : κ) (entries : List (κ × α)) :
    find other (entries.filter (·.1 ≠ key)) = if key = other then none else find other entries := by
  induction entries with
  | nil => simp [find]
  | cons head rest ih =>
      obtain ⟨k, entry⟩ := head
      by_cases hk : k = key
      · subst hk
        simp only [ne_eq, not_true_eq_false, decide_false, Bool.false_eq_true, not_false_eq_true,
          List.filter_cons_of_neg]
        by_cases ho : k = other <;> simp_all [find]
      · simp only [ne_eq, hk, not_false_eq_true, decide_true, List.filter_cons_of_pos, find]
        by_cases ho : k = other
        · subst ho
          simp [Ne.symm hk]
        · simp_all

theorem put_of_find {key : κ} {entry : α} {entries : List (κ × α)}
    (h : find key entries = some entry) : put key entry entries = entries := by
  induction entries with
  | nil => cases h
  | cons head rest ih =>
      obtain ⟨k, old⟩ := head
      by_cases hk : k = key
      · subst hk
        simp only [find, if_true, Option.some.injEq] at h
        simp only [put, if_true, h]
      · simp only [find, if_neg hk] at h
        simp only [put, if_neg hk, ih h]

/-- Inserting what a key has changes nothing. -/
theorem insert_of_get? {t : Table κ α} {key : κ} {entry : α} (h : t.get? key = some entry) :
    t.insert key entry = t := by
  rw [insert, put_of_find h]

/-- Inserting changes the entry of its own key and no other. -/
theorem get?_insert (t : Table κ α) (key other : κ) (entry : α) :
    (t.insert key entry).get? other = if key = other then some entry else t.get? other :=
  find_put key other entry t.entries

@[simp] theorem get?_insert_self (t : Table κ α) (key : κ) (entry : α) :
    (t.insert key entry).get? key = some entry := by
  rw [get?_insert, if_pos rfl]

theorem get?_insert_of_ne (t : Table κ α) {key other : κ} (entry : α) (h : key ≠ other) :
    (t.insert key entry).get? other = t.get? other := by
  rw [get?_insert, if_neg h]

/-- Erasing removes its own key and leaves the others. -/
theorem get?_erase (t : Table κ α) (key other : κ) :
    (t.erase key).get? other = if key = other then none else t.get? other :=
  find_filter key other t.entries

@[simp] theorem get?_erase_self (t : Table κ α) (key : κ) : (t.erase key).get? key = none := by
  rw [get?_erase, if_pos rfl]

theorem get?_erase_of_ne (t : Table κ α) {key other : κ} (h : key ≠ other) :
    (t.erase key).get? other = t.get? other := by
  rw [get?_erase, if_neg h]

/-- A table contains the keys that `get?` answers. -/
theorem contains_eq_isSome (t : Table κ α) (key : κ) : t.contains key = (t.get? key).isSome := rfl

/-- The keys of a table are those that have an entry. -/
theorem mem_keys_iff (t : Table κ α) (key : κ) : key ∈ t.keys ↔ (t.get? key).isSome = true := by
  obtain ⟨entries⟩ := t
  show key ∈ entries.map (·.1) ↔ (find key entries).isSome = true
  induction entries with
  | nil => simp [find]
  | cons head rest ih =>
      obtain ⟨k, entry⟩ := head
      by_cases hk : k = key
      · simp [find, hk]
      · rw [List.map_cons, List.mem_cons, find, if_neg hk, ih]
        simp [Ne.symm hk]

end Table

end EcmaCore
