import ShaderTypes.Proofs.TypeTable.Keys

/-!
# A table for each family

A context keeps an intern table for each family of types, with the types of the family under their
keys.  Here all types are kept in one table, and a request goes through all of it.  The two come to
the same.  The types of one family, in the order of creation, are the table of that family,
`TypeTable.familyTable`.  The scan of the one table finds a type exactly if that type stands in the
table of the family under the key that was asked for, so that there is never more than one to be
found.  Interning adds to the table of one family and leaves those of the others.

Hybrid shapes belong to no family, and the tables together hold the canonical types.
-/

namespace ShaderTypes

/-- The families of types that have an intern table. -/
inductive Family where
  | void
  | bool
  | integer (signed : Bool)
  | float
  | vector
  | matrix
  | image
  | sampledImage
  | sampler
  | accelerationStructure
  | array
  | runtimeArray
  | struct
  | pointer
  | function
deriving DecidableEq

/-- The family of the types of this shape. -/
def Shape.family? : Shape → Option Family
  | .void => some .void
  | .bool => some .bool
  | .integer _ signed => some (.integer signed)
  | .float _ => some .float
  | .vector .. => some .vector
  | .matrix .. => some .matrix
  | .image _ => some .image
  | .sampledImage _ => some .sampledImage
  | .sampler => some .sampler
  | .accelerationStructure => some .accelerationStructure
  | .array .. => some .array
  | .runtimeArray .. => some .runtimeArray
  | .struct _ => some .struct
  | .pointer .. => some .pointer
  | .function _ => some .function
  | .hybridPointer .. | .hybridSampledImage _ | .hybridStruct _ => none

namespace TypeTable

/-- The intern table of a family: its types, in the order of creation. -/
def familyTable (t : TypeTable) (f : Family) : List TypeId :=
  t.ids.filter fun a => (t.shape? a).bind Shape.family? = some f

variable {t u : TypeTable} {x y : Shape} {a : TypeId} {f : Family}

lemma mem_familyTable :
    a ∈ t.familyTable f ↔ ∃ x, t.shape? a = some x ∧ x.family? = some f := by
  rw [familyTable, List.mem_filter, mem_ids, decide_eq_true_eq, Option.bind_eq_some_iff]
  exact and_iff_right_of_imp fun ⟨_, hx, _⟩ => shape?_lt hx

/-- Requests with the same key belong to one family. -/
lemma SameKey.family?_eq (h : t.SameKey x y) : x.family? = y.family? := by
  cases h <;> rfl

/-- The tables of the families hold the canonical types and no others. -/
theorem mem_canonical_iff_familyTable : a ∈ t.canonical ↔ ∃ f, a ∈ t.familyTable f := by
  have family (x : Shape) : x.isHybrid = false ↔ ∃ f, x.family? = some f := by
    cases x <;> simp [Shape.isHybrid, Shape.family?]
  rw [canonical, List.mem_filter, mem_ids, Bool.not_eq_true', isHybrid]
  constructor
  · rintro ⟨ha, hybrid⟩
    obtain ⟨x, hx⟩ := exists_shape? ha
    rw [hx, Option.any_some, family] at hybrid
    obtain ⟨f, hf⟩ := hybrid
    exact ⟨f, mem_familyTable.2 ⟨x, hx, hf⟩⟩
  · rintro ⟨f, hf⟩
    obtain ⟨x, hx, hf⟩ := mem_familyTable.1 hf
    refine ⟨shape?_lt hx, ?_⟩
    rw [hx, Option.any_some, family]
    exact ⟨f, hf⟩

/-- A type is found exactly if it stands in the table of its family under the key of the request. -/
theorem Interned.find?_eq_some_iff (h : t.Interned) (hx : x.family? = some f) :
    t.find? x = some a ↔ a ∈ t.familyTable f ∧ ∃ y, t.shape? a = some y ∧ t.SameKey x y := by
  constructor
  · intro hfind
    obtain ⟨y, hy, hanswers⟩ := answers_of_find? hfind
    have key := answers_iff_sameKey.1 hanswers
    exact ⟨mem_familyTable.2 ⟨y, hy, key.family?_eq ▸ hx⟩, y, hy, key⟩
  · rintro ⟨-, y, hy, key⟩
    rcases hfind : t.find? x with _ | b
    · have hanswers := answers_iff_sameKey.2 key
      simp [find?_eq_none_iff.1 hfind a y hy] at hanswers
    · -- The type that is found has the same key, and no other type of the table has it.
      obtain ⟨z, hz, hanswers⟩ := answers_of_find? hfind
      have found := answers_iff_sameKey.1 hanswers
      exact congrArg some (h.eq_of_sameKey hz hy ((found.symm h.wellFormed).trans h.wellFormed key))

/-- A new type goes to the end of the table of its family. -/
lemma familyTable_push : (t.push x).familyTable f =
    if x.family? = some f then t.familyTable f ++ [⟨t.size⟩] else t.familyTable f := by
  have hids : (t.push x).ids = t.ids ++ [⟨t.size⟩] := by
    simp [ids, List.range_succ]
  have hold : t.ids.filter (fun a => ((t.push x).shape? a).bind Shape.family? = some f) =
      t.familyTable f := by
    refine List.filter_congr fun a ha => ?_
    rw [shape?_push_of_lt (mem_ids.1 ha)]
  rw [familyTable, hids, List.filter_append, hold, List.filter_singleton, shape?_push_size]
  split <;> simp_all

/-- Interning adds to the table of the family that was asked for, if nothing is found there, and
leaves the tables of the others. -/
theorem familyTable_intern (h : t.intern x = (a, u)) (hx : x.family? = some f) :
    u.familyTable f = (if t.find? x = none then t.familyTable f ++ [a] else t.familyTable f) ∧
      ∀ g, g ≠ f → u.familyTable g = t.familyTable g := by
  rw [intern] at h
  rcases hfind : t.find? x with _ | b
  · rw [hfind] at h
    cases h
    refine ⟨?_, fun g hg => ?_⟩
    · rw [familyTable_push, if_pos hx, if_pos rfl]
    · rw [familyTable_push, if_neg]
      rw [hx, Option.some.injEq]
      exact Ne.symm hg
  · rw [hfind] at h
    cases h
    exact ⟨by simp, fun _ _ => rfl⟩

end TypeTable

end ShaderTypes
