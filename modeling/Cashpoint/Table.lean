/-
# Finite maps

A `Table` gives each of finitely many keys one value. Its entries keep the order in
which their keys were first set, and no key stands in it twice.

Each operation is pinned down by what it does to `get?`.
-/

namespace Cashpoint

/-- A map from finitely many keys to values. -/
structure Table (κ α : Type) where
  entries : List (κ × α) := []
  nodup_keys : (entries.map Prod.fst).Nodup := by simp
  deriving DecidableEq

namespace Table

variable {κ α : Type} [DecidableEq κ]

/-- The map without keys. -/
def empty : Table κ α := {}

/-- The value of the first entry with a key. -/
def find (key : κ) : List (κ × α) → Option α
  | [] => none
  | (k, value) :: rest => if k = key then some value else find key rest

/-- The value of a key, if it has one. -/
def get? (t : Table κ α) (key : κ) : Option α := find key t.entries

/-- Whether a key has a value. -/
def contains (t : Table κ α) (key : κ) : Bool := (t.get? key).isSome

/-- The number of keys. -/
def size (t : Table κ α) : Nat := t.entries.length

/-- The entries after setting a key: in its place if it is there, at the end if not. -/
def place (key : κ) (value : α) : List (κ × α) → List (κ × α)
  | [] => [(key, value)]
  | (k, old) :: rest => if k = key then (key, value) :: rest else (k, old) :: place key value rest

/-- Setting a key adds it, and takes no other away. -/
theorem mem_keys_place {key k : κ} {value : α} {entries : List (κ × α)} :
    k ∈ (place key value entries).map Prod.fst ↔ k = key ∨ k ∈ entries.map Prod.fst := by
  induction entries with
  | nil => simp [place]
  | cons entry rest ih =>
    obtain ⟨k', old⟩ := entry
    by_cases h : k' = key
    · subst h; simp [place]
    · simp only [place, h, if_false, List.map_cons, List.mem_cons, ih]
      constructor <;> (rintro (h | h | h) <;> simp [h])

/-- Setting a key leaves no key twice. -/
theorem nodup_place {key : κ} {value : α} {entries : List (κ × α)}
    (h : (entries.map Prod.fst).Nodup) : ((place key value entries).map Prod.fst).Nodup := by
  induction entries with
  | nil => simp [place]
  | cons entry rest ih =>
    obtain ⟨k', old⟩ := entry
    simp only [List.map_cons, List.nodup_cons] at h
    by_cases hk : k' = key
    · subst hk; simpa [place] using h
    · simp only [place, hk, if_false, List.map_cons, List.nodup_cons, mem_keys_place, not_or,
        not_false_eq_true, true_and]
      exact ⟨h.1, ih h.2⟩

/-- The map with the value of one key set. -/
def set (t : Table κ α) (key : κ) (value : α) : Table κ α where
  entries := place key value t.entries
  nodup_keys := nodup_place t.nodup_keys

/-- The map without one key. -/
def erase (t : Table κ α) (key : κ) : Table κ α where
  entries := t.entries.filter fun entry => entry.1 ≠ key
  nodup_keys := List.Nodup.sublist (List.Sublist.map _ List.filter_sublist) t.nodup_keys

/-- No key has a value in the empty map. -/
@[simp] theorem get?_empty (key : κ) : (empty : Table κ α).get? key = none := rfl

omit [DecidableEq κ] in
@[simp] theorem size_empty : (empty : Table κ α).size = 0 := rfl

/-- Setting a key changes its value, and no other. -/
theorem find_place (key k : κ) (value : α) (entries : List (κ × α)) :
    find k (place key value entries) = if key = k then some value else find k entries := by
  induction entries with
  | nil => rfl
  | cons entry rest ih =>
    obtain ⟨k', old⟩ := entry
    by_cases hk : k' = key
    · subst hk; by_cases h : k' = k <;> simp [place, find, h]
    · by_cases h : k' = k
      · subst h; simp [place, find, hk, Ne.symm hk]
      · simp [place, find, hk, h, ih]

/-- The last value that is set counts. -/
theorem place_place (key : κ) (value old : α) (entries : List (κ × α)) :
    place key value (place key old entries) = place key value entries := by
  induction entries with
  | nil => simp [place]
  | cons entry rest ih =>
    obtain ⟨k, _⟩ := entry
    by_cases h : k = key <;> simp [place, h, ih]

/-- Setting the value that a key has changes nothing. -/
theorem place_of_find {key : κ} {value : α} {entries : List (κ × α)} (h : find key entries = some value) :
    place key value entries = entries := by
  induction entries with
  | nil => simp [find] at h
  | cons entry rest ih =>
    obtain ⟨k, old⟩ := entry
    by_cases hk : k = key
    · subst hk
      simp only [find, if_true, Option.some.injEq] at h
      simp [place, h]
    · simp only [find, hk, if_false] at h
      simp [place, hk, ih h]

/-- **The value set last stays.** -/
theorem set_set (t : Table κ α) (key : κ) (value old : α) : (t.set key old).set key value = t.set key value := by
  simp only [set, place_place]

/-- Setting a key to the value that it has changes nothing. -/
theorem set_of_get? {t : Table κ α} {key : κ} {value : α} (h : t.get? key = some value) : t.set key value = t := by
  obtain ⟨entries, _⟩ := t
  simp only [set, mk.injEq]
  exact place_of_find h

/-- **Setting a key changes the value of that key only.** -/
theorem get?_set (t : Table κ α) (key k : κ) (value : α) :
    (t.set key value).get? k = if key = k then some value else t.get? k :=
  find_place key k value t.entries

/-- Without the entries of a key, the key has no value, and every other has its own. -/
theorem find_filter_ne (key k : κ) (entries : List (κ × α)) :
    find k (entries.filter fun entry => entry.1 ≠ key) = if key = k then none else find k entries := by
  induction entries with
  | nil => simp [find]
  | cons entry rest ih =>
    obtain ⟨k', old⟩ := entry
    by_cases hk : k' = key
    · subst hk; by_cases h : k' = k <;> simp_all [find]
    · by_cases h : k' = k
      · subst h; simp [find, hk, Ne.symm hk]
      · simp_all [find]

/-- **Erasing a key takes away the value of that key only.** -/
theorem get?_erase (t : Table κ α) (key k : κ) :
    (t.erase key).get? k = if key = k then none else t.get? k :=
  find_filter_ne key k t.entries

/-- A key has no value just if it is not among the keys. -/
theorem find_eq_none_iff {key : κ} {entries : List (κ × α)} :
    find key entries = none ↔ key ∉ entries.map Prod.fst := by
  induction entries with
  | nil => simp [find]
  | cons entry rest ih =>
    obtain ⟨k', old⟩ := entry
    by_cases h : k' = key
    · subst h; simp [find]
    · simp [find, h, ih, Ne.symm h]

end Table
end Cashpoint
