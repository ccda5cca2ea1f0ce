import ShaderTypes.OrderedMap

/-!
# Members with names

Many parameters of types and debug entries are one of a few members, and each member has a name.
`Named` is the table of the members of such a type.  How a member is found by its name, what its
name is and at which place it stands is said once, for all of these types.  The places are the codes
of the members wherever the codes have no gaps.
-/

namespace ShaderTypes

/-- A type of a few members, with all of them in a table under different names. -/
class Named (α : Type) where
  /-- The members under their names. -/
  table : OrderedMap String α
  /-- No name stands for two members. -/
  distinct : table.keys.Nodup
  /-- No member is missing. -/
  complete : ∀ x, x ∈ table.values

namespace Named

variable {α : Type} [DecidableEq α] [Named α]

/-- The member of the given name. -/
def ofName? (text : String) : Option α :=
  (table (α := α)).get? text

/-- The place of a member in the table, counted from zero. -/
def place (x : α) : Nat :=
  (table (α := α)).entries.findIdx fun entry => entry.2 == x

/-- The name of a member. -/
def name (x : α) : String :=
  ((table (α := α)).entries[place x]?).elim "" Prod.fst

/-- Every member stands in the table at its place, under its name. -/
theorem entries_place (x : α) : (table (α := α)).entries[place x]? = some (name x, x) := by
  obtain ⟨entry, hentry, hx⟩ := List.mem_map.1 (complete x)
  have hlt : place x < (table (α := α)).entries.length :=
    List.findIdx_lt_length_of_exists ⟨entry, hentry, beq_iff_eq.2 hx⟩
  have hfound := beq_iff_eq.1 (List.findIdx_getElem (w := hlt))
  rw [name, List.getElem?_eq_getElem hlt, Option.elim_some]
  exact congrArg some (Prod.ext rfl hfound)

/-- A member is found by its name. -/
theorem ofName?_name (x : α) : ofName? (name x) = some x :=
  OrderedMap.get?_of_mem distinct (List.mem_of_getElem? (entries_place x))

end Named

end ShaderTypes
