import ShaderTypes.Shape.Basic

/-!
# The type table

Types are kept in one table in the order of their creation, canonical and hybrid types alike, and
are only ever added at its end.  The operands of a type stand before it, so everything that follows
operands is a recursion on the position.
-/

namespace ShaderTypes

/-- The types made so far. -/
structure TypeTable where
  /-- The shape of each type, in the order of creation. -/
  shapes : List Shape := []
deriving DecidableEq

namespace TypeTable

/-- The number of types. -/
def size (t : TypeTable) : Nat :=
  t.shapes.length

/-- The shape of a type. -/
def shape? (t : TypeTable) (a : TypeId) : Option Shape :=
  t.shapes[a.index]?

/-- The table with a new type at its end. -/
def push (t : TypeTable) (s : Shape) : TypeTable :=
  ⟨t.shapes ++ [s]⟩

/-- Every type, in the order of creation. -/
def ids (t : TypeTable) : List TypeId :=
  (List.range t.size).map TypeId.mk

/-- Whether the type wraps an unresolved type. -/
def isHybrid (t : TypeTable) (a : TypeId) : Bool :=
  (t.shape? a).any Shape.isHybrid

/-- The types that are not hybrid, in the order of creation. -/
def canonical (t : TypeTable) : List TypeId :=
  t.ids.filter fun a => !t.isHybrid a

/-- The types that a type is built from. -/
def operands (t : TypeTable) (a : TypeId) : List TypeId :=
  ((t.shape? a).map Shape.operands).getD []

/-- The name of a type. -/
def name (t : TypeTable) (a : TypeId) : String :=
  ((t.shape? a).map (Shape.name fun u => if _h : u.index < a.index then t.name u else "")).getD ""
termination_by a.index

/-- Whether two types look the same all the way down. -/
def alike (t : TypeTable) (a b : TypeId) : Bool :=
  a == b ||
    match t.shape? a, t.shape? b with
    | some x, some y =>
      x.agrees (fun u v => if _h : u.index < a.index then t.alike u v else false) y
    | _, _ => false
termination_by a.index

/-- Every operand of a type stands before it. -/
def WellFormed (t : TypeTable) : Prop :=
  ∀ a s, t.shape? a = some s → ∀ u ∈ s.operands, u.index < a.index

variable {t : TypeTable} {a : TypeId} {s : Shape}

theorem shape?_lt (h : t.shape? a = some s) : a.index < t.size :=
  (List.getElem?_eq_some_iff.1 h).1

/-- A new type leaves the older ones as they are. -/
theorem shape?_push_of_lt (h : a.index < t.size) : (t.push s).shape? a = t.shape? a :=
  List.getElem?_append_left h

/-- The new type stands at the end. -/
theorem shape?_push_size : (t.push s).shape? ⟨t.size⟩ = some s := by
  simp [shape?, push, size]

@[simp]
theorem size_push : (t.push s).size = t.size + 1 := by
  simp [size, push]

theorem mem_ids : a ∈ t.ids ↔ a.index < t.size := by
  constructor
  · intro h
    obtain ⟨i, hi, rfl⟩ := List.mem_map.1 h
    exact List.mem_range.1 hi
  · intro h
    exact List.mem_map.2 ⟨a.index, List.mem_range.2 h, rfl⟩

/-- The table stays well formed when a type is added whose operands are in it. -/
theorem WellFormed.push (h : t.WellFormed) (hs : ∀ u ∈ s.operands, u.index < t.size) :
    (t.push s).WellFormed := by
  intro a r hr u hu
  rcases Nat.lt_or_ge a.index t.size with ha | ha
  · rw [shape?_push_of_lt ha] at hr
    exact h a r hr u hu
  · have hlt := shape?_lt hr
    rw [size_push] at hlt
    have hlast : a = ⟨t.size⟩ := by
      cases a
      simp_all
      omega
    subst hlast
    rw [shape?_push_size] at hr
    cases hr
    exact hs u hu

/-- A type looks like itself. -/
theorem alike_refl (t : TypeTable) (a : TypeId) : t.alike a a = true := by
  rw [alike]
  simp

end TypeTable

end ShaderTypes
