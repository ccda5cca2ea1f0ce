/-!
# Maps that remember the order of their keys

A map whose keys are listed in the order in which they were first inserted.  Inserting under a key
that is there already replaces the value and keeps the place.
-/

namespace ShaderTypes

/-- A map from `κ` to `ν`, as its entries in order. -/
structure OrderedMap (κ ν : Type) where
  /-- The entries, in the order in which their keys were first inserted. -/
  entries : List (κ × ν) := []
deriving DecidableEq

namespace OrderedMap

variable {κ ν : Type} [DecidableEq κ]

/-- The keys in order. -/
def keys (m : OrderedMap κ ν) : List κ :=
  m.entries.map Prod.fst

/-- The values, in the order of their keys. -/
def values (m : OrderedMap κ ν) : List ν :=
  m.entries.map Prod.snd

/-- The number of keys. -/
def size (m : OrderedMap κ ν) : Nat :=
  m.entries.length

/-- The value under a key. -/
def get? (m : OrderedMap κ ν) (k : κ) : Option ν :=
  m.entries.lookup k

/-- The entries with the value under `k` replaced, or with a new one at the end. -/
def insertEntry (k : κ) (v : ν) : List (κ × ν) → List (κ × ν)
  | [] => [(k, v)]
  | entry :: rest => if entry.1 = k then (k, v) :: rest else entry :: insertEntry k v rest

/-- The map with `v` under `k`. -/
def insert (m : OrderedMap κ ν) (k : κ) (v : ν) : OrderedMap κ ν :=
  ⟨insertEntry k v m.entries⟩

variable {m : OrderedMap κ ν} {k l : κ} {v w : ν}

/-- The new value is found under its key. -/
@[simp]
theorem get?_insert_self : (m.insert k v).get? k = some v := by
  obtain ⟨entries⟩ := m
  induction entries with
  | nil => simp [get?, insert, insertEntry]
  | cons entry rest ih =>
    obtain ⟨l, w⟩ := entry
    by_cases h : l = k
    · simp [get?, insert, insertEntry, h]
    · have h' : (k == l) = false := by simpa using Ne.symm h
      simpa [get?, insert, insertEntry, h, List.lookup_cons, h'] using ih

/-- What is found under the other keys stays. -/
theorem get?_insert_of_ne (h : l ≠ k) : (m.insert k v).get? l = m.get? l := by
  obtain ⟨entries⟩ := m
  have hl : (l == k) = false := by simpa using h
  induction entries with
  | nil => simp [get?, insert, insertEntry, List.lookup_cons, hl]
  | cons entry rest ih =>
    obtain ⟨j, w⟩ := entry
    by_cases hj : j = k
    · simp [get?, insert, insertEntry, hj, List.lookup_cons, hl]
    · simp only [get?, insert, insertEntry, if_neg hj, List.lookup_cons] at ih ⊢
      rw [ih]

/-- A key that is there already keeps its place, a new one goes to the end. -/
theorem keys_insert : (m.insert k v).keys = if k ∈ m.keys then m.keys else m.keys ++ [k] := by
  obtain ⟨entries⟩ := m
  induction entries with
  | nil => simp [keys, insert, insertEntry]
  | cons entry rest ih =>
    by_cases h : entry.1 = k
    · simp [keys, insert, insertEntry, h]
    · simp only [keys, insert, insertEntry, if_neg h, List.map_cons, List.mem_cons] at ih ⊢
      rw [ih]
      have h' : ¬ k = entry.1 := Ne.symm h
      by_cases hr : k ∈ rest.map Prod.fst <;> simp [h', hr]

/-- A key has a value exactly when it is listed. -/
theorem get?_eq_none_iff : m.get? k = none ↔ k ∉ m.keys := by
  obtain ⟨entries⟩ := m
  induction entries with
  | nil => simp [get?, keys]
  | cons entry rest ih =>
    obtain ⟨l, w⟩ := entry
    simp only [get?, keys, List.lookup_cons, List.map_cons, List.mem_cons] at ih ⊢
    by_cases h : k = l
    · simp [h]
    · have h' : (k == l) = false := by simpa using h
      simpa [h, h'] using ih

/-- An entry is what is found under its key, if no key is listed twice. -/
theorem get?_of_mem (h : m.keys.Nodup) (hm : (k, v) ∈ m.entries) : m.get? k = some v := by
  obtain ⟨entries⟩ := m
  induction entries with
  | nil => cases hm
  | cons entry rest ih =>
    obtain ⟨l, w⟩ := entry
    obtain ⟨hl, hrest⟩ := List.nodup_cons.1 h
    rw [get?, List.lookup_cons]
    rcases List.mem_cons.1 hm with heq | hlast
    · cases heq
      simp
    · have hne : (k == l) = false := by
        rw [beq_eq_false_iff_ne]
        rintro rfl
        exact hl (List.mem_map.2 ⟨(k, v), hlast, rfl⟩)
      rw [hne]
      exact ih hrest hlast

/-- Under a new key the entry goes to the end of the list. -/
theorem entries_insert_of_get?_eq_none (h : m.get? k = none) :
    (m.insert k v).entries = m.entries ++ [(k, v)] := by
  obtain ⟨entries⟩ := m
  induction entries with
  | nil => rfl
  | cons entry rest ih =>
    have hk : k ∉ entry.1 :: rest.map Prod.fst := get?_eq_none_iff.1 h
    rw [List.mem_cons, not_or] at hk
    have hrest : (OrderedMap.mk rest).get? k = none := get?_eq_none_iff.2 hk.2
    simpa [insert, insertEntry, Ne.symm hk.1] using ih hrest

/-- No key is listed twice after an insertion if none was before. -/
theorem nodup_keys_insert (h : m.keys.Nodup) : (m.insert k v).keys.Nodup := by
  rw [keys_insert]
  split
  · exact h
  · rename_i hk
    refine List.nodup_append.2 ⟨h, by simp, ?_⟩
    intro a ha b hb hab
    rw [List.mem_singleton] at hb
    exact hk (hb ▸ hab ▸ ha)

end OrderedMap

end ShaderTypes
