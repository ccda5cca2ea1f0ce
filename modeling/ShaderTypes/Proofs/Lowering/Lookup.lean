import ShaderTypes.Proofs.Store.Extension

/-!
# The debug type that lowering finds

`Store.found?` follows pointers and falls back on the placeholder as lowering does, but makes
nothing.  After a type was lowered its debug type is found, it is found from then on, and lowering
the type again, for whatever builder, gives that node.
-/

namespace ShaderTypes

/-- The debug type of a type, if it was made already: the node listed under the type, that of the
pointee of a pointer, or the placeholder for a type that cannot be described. -/
def Store.found? (s : Store) (a : TypeId) : Option NodeId :=
  match s.debugType? a, s.types.shape? a with
  | some n, _ => some n
  | none, some (.pointer p _) => if _h : p.index < a.index then s.found? p else none
  | none, some x => if x.isDescribed then none else s.debugTypes.get? none
  | none, none => none
termination_by a.index

variable {s t : Store} {a p : TypeId} {n : NodeId} {b : BuilderId} {x : Shape} {c : Storage}

/-! ### The cases of the look-up -/

namespace Store

lemma found?_of_debugType? (h : s.debugType? a = some n) : s.found? a = some n := by
  rw [found?, h]

lemma found?_of_pointer (h : s.debugType? a = none) (hx : s.types.shape? a = some (.pointer p c))
    (hp : p.index < a.index) : s.found? a = s.found? p := by
  rw [found?, h, hx]
  exact dif_pos hp

lemma found?_of_shape? (h : s.debugType? a = none) (hx : s.types.shape? a = some x)
    (pointer : x.isPointer = false) :
    s.found? a = if x.isDescribed then none else s.debugTypes.get? none := by
  rw [found?, h, hx]
  cases x <;> first | rfl | cases pointer

lemma found?_of_undescribed (h : s.debugType? a = none) (hx : s.types.shape? a = some x)
    (described : x.isDescribed = false) (pointer : x.isPointer = false) :
    s.found? a = s.debugTypes.get? none := by
  rw [found?_of_shape? h hx pointer, described]
  rfl

/-- A type is found in one of three ways. -/
lemma found?_cases (h : s.found? a = some n) :
    s.debugType? a = some n ∨ s.debugType? a = none ∧
      ((∃ p c, s.types.shape? a = some (.pointer p c) ∧ p.index < a.index ∧ s.found? p = some n) ∨
        ∃ x, s.types.shape? a = some x ∧ x.isDescribed = false ∧ x.isPointer = false ∧
          s.debugTypes.get? none = some n) := by
  rw [found?] at h
  cases hlisted : s.debugType? a with
  | some m =>
    simp only [hlisted, Option.some.injEq] at h
    exact Or.inl (congrArg some h)
  | none =>
    refine Or.inr ⟨rfl, ?_⟩
    cases hx : s.types.shape? a with
    | none => simp [hlisted, hx] at h
    | some x =>
      cases hpointer : x.isPointer with
      | true =>
        cases x <;> simp only [Shape.isPointer, Bool.false_eq_true] at hpointer
        rename_i p c
        rw [hlisted, hx] at h
        obtain ⟨hp, hfound⟩ : p.index < a.index ∧ s.found? p = some n := by
          simpa using h
        exact Or.inl ⟨p, c, rfl, hp, hfound⟩
      | false =>
        have hfound : (if x.isDescribed then none else s.debugTypes.get? none) = some n := by
          rw [hlisted, hx] at h
          cases x <;> first | exact h | cases hpointer
        cases hdescribed : x.isDescribed with
        | true => simp [hdescribed] at hfound
        | false =>
          simp only [hdescribed, Bool.false_eq_true, ↓reduceIte] at hfound
          exact Or.inr ⟨x, rfl, hdescribed, hpointer, hfound⟩

/-- A debug type that is found is found from then on. -/
lemma Extends.found? (h : s.Extends t) (ha : s.found? a = some n) : t.found? a = some n := by
  induction a using TypeId.strongInduction with
  | _ a ih =>
  rcases found?_cases ha with hs | ⟨hs, ⟨p, c, hx, hp, hfound⟩ | ⟨x, hx, described, pointer, hnone⟩⟩
  · exact found?_of_debugType? (h.get?_debugTypes hs)
  · rw [found?_of_pointer (h.debugType?_eq_none hx rfl hs) (h.shape? hx) hp]
    exact ih p hp hfound
  · rw [found?_of_undescribed (h.debugType?_eq_none hx described hs) (h.shape? hx) described pointer]
    exact h.get?_debugTypes hnone

/-- A debug type that is found is listed. -/
lemma mem_emitted_of_found? (h : s.found? a = some n) : n ∈ s.emitted := by
  induction a using TypeId.strongInduction with
  | _ a ih =>
  rcases found?_cases h with hs | ⟨-, ⟨p, -, -, hp, hfound⟩ | ⟨-, -, -, -, hnone⟩⟩
  · exact List.mem_append_left _ (OrderedMap.mem_values_of_get? hs)
  · exact ih p hp hfound
  · exact List.mem_append_left _ (OrderedMap.mem_values_of_get? hnone)

end Store

/-! ### Looking up and lowering -/

/-- A pointer without a debug type of its own is lowered as what it points to. -/
lemma lower_of_pointer (h : s.debugType? a = none) (hx : s.types.shape? a = some (.pointer p c))
    (hp : p.index < a.index) : lower b a s = lower b p s := by
  rw [lower]
  change (Lowering.lowerWith b _ a).run s = _
  simp only [Lowering.lowerWith, StateT.run_bind, StateT.run_get, pure_bind, h, hx, dif_pos hp]
  rfl

/-- A type that cannot be described is lowered to the placeholder. -/
lemma lower_of_undescribed (h : s.debugType? a = none) (hx : s.types.shape? a = some x)
    (described : x.isDescribed = false) (pointer : x.isPointer = false) :
    lower b a s = .ok ((Lowering.placeholder s).1,
      (Lowering.placeholder s).2.stamp (Lowering.placeholder s).1 b) := by
  rw [lower]
  change (Lowering.lowerWith b _ a).run s = _
  simp only [Lowering.lowerWith, StateT.run_bind, StateT.run_get, pure_bind, h, hx]
  -- Only a struct can go either way; all other shapes are read off the match.
  cases x <;> simp only [Shape.isDescribed, Shape.isPointer, Bool.true_eq_false] at described pointer
  case struct struct =>
    cases hr : struct.record with
    | none => simp only [Lowering.describe, hr]; rfl
    | some record =>
      have henum : record.isEnum = true := by simpa [hr] using described
      simp only [Lowering.describe, hr, henum, ↓reduceIte, Lowering.enumType]
      rfl
  all_goals rfl

/-- A debug type that is found is what lowering gives. -/
theorem lower_of_found? (h : s.found? a = some n) (b : BuilderId) :
    ∃ t, lower b a s = .ok (n, t) := by
  induction a using TypeId.strongInduction with
  | _ a ih =>
  rcases Store.found?_cases h with
    hs | ⟨hs, ⟨p, c, hx, hp, hfound⟩ | ⟨x, hx, described, pointer, hn⟩⟩
  · exact ⟨s, lower_of_debugType? hs⟩
  · rw [lower_of_pointer hs hx hp]
    exact ih p hp hfound
  · rw [lower_of_undescribed hs hx described pointer]
    have hplaceholder : Lowering.placeholder s = (n, s) := Store.keyedNode_of_get? hn
    exact ⟨_, by rw [hplaceholder]⟩

/-- Once a type was lowered its debug type is found. -/
theorem found?_of_lower (h : lower b a s = .ok (n, t)) : t.found? a = some n := by
  refine lower_induction (P := fun a _ n t => t.found? a = some n) ?_ h
  intro a s n t h hstep
  have hext := Store.extends_lower h
  cases hstep with
  | listed ha => exact Store.found?_of_debugType? ha
  | pointer ha hx pointee =>
    rw [Store.found?_of_pointer (hext.debugType?_eq_none hx rfl ha) (hext.shape? hx) pointee.lt]
    exact pointee.kept
  | basic ha hx hb => exact Store.found?_of_debugType? Store.get?_debugTypes_keyedNode
  | built ha hx parts he => exact Store.found?_of_debugType? Store.get?_debugTypes_keyedNode
  | @composite _ t _ _ _ _ _ _ composing =>
    have hlisted : t.debugType? a = some n := composing.debugType?
    exact Store.found?_of_debugType? hlisted
  | placeholder ha hx described pointer =>
    rw [Store.found?_of_undescribed (hext.debugType?_eq_none hx described ha) (hext.shape? hx)
      described pointer]
    exact Store.get?_debugTypes_keyedNode

end ShaderTypes
