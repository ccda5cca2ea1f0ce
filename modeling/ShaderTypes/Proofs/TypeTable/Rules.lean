import ShaderTypes.Proofs.TypeTable.Keys

/-!
# Types that look alike without being the same

In a table whose types obey the rules of the type system, two types that look alike are the same but
for two exceptions: hybrid types, which are new each time, and pointers, which are told apart by the
very type that they point to.  The other kinds that are told apart by identity are over scalars in
the end, below which nothing is hybrid.
-/

namespace ShaderTypes.TypeTable

/-- A table whose types all obey the rules. -/
def Checked (t : TypeTable) : Prop :=
  ∀ a x, t.shape? a = some x → t.check x = .ok ()

variable {t u : TypeTable} {s x : Shape} {a b v : TypeId} {count : UInt32} {i : Image}

/-! ### The rules, kind by kind -/

lemma check_vector : t.check (.vector v count) = .ok () ↔
    t.has v Shape.isScalar = true ∧ isPartCount count = true := by
  rw [check]
  cases t.has v Shape.isScalar <;> cases isPartCount count <;> simp

lemma check_matrix : t.check (.matrix v count) = .ok () ↔
    (t.component? v).isSome = true ∧ isPartCount count = true := by
  rw [check]
  cases t.component? v <;> cases isPartCount count <;> simp

lemma check_image : t.check (.image i) = .ok () ↔ t.has i.sampled Shape.isNumerical = true := by
  rw [check]
  cases t.has i.sampled Shape.isNumerical <;> simp

lemma check_sampledImage : t.check (.sampledImage v) = .ok () ↔
    t.has v Shape.isImage = true := by
  rw [check]
  cases t.has v Shape.isImage <;> simp

lemma isSome_component?_iff :
    (t.component? v).isSome = true ↔ ∃ c count, t.shape? v = some (.vector c count) := by
  rw [component?]
  rcases hv : t.shape? v with _ | x
  · simp
  · cases x <;> simp

/-- What obeys the rules obeys them in a longer table. -/
lemma check_mono (h : t.shapes <+: u.shapes) (hx : t.check x = .ok ()) : u.check x = .ok () := by
  cases x with
  | vector v count =>
    rw [check_vector] at hx ⊢
    exact ⟨has_mono h hx.1, hx.2⟩
  | matrix v count =>
    rw [check_matrix, isSome_component?_iff] at hx ⊢
    obtain ⟨⟨c, n, hv⟩, hcount⟩ := hx
    exact ⟨⟨c, n, shape?_mono h hv⟩, hcount⟩
  | image i =>
    rw [check_image] at hx ⊢
    exact has_mono h hx
  | sampledImage v =>
    rw [check_sampledImage] at hx ⊢
    exact has_mono h hx
  | _ => exact hx

/-- The shape that stands for one that obeys the rules obeys them too. -/
lemma check_resolve (hx : t.check x = .ok ()) : t.check (t.resolve x) = .ok () := by
  cases x <;> simp only [resolve] <;> try exact hx
  split
  · exact hx
  · rfl

lemma checked_empty : Checked {} := by
  intro a x h
  simp [shape?] at h

/-- A table stays checked when a shape that obeys the rules is interned. -/
lemma Checked.intern (h : t.Checked) (hs : t.check s = .ok ()) : (t.intern s).2.Checked := by
  rw [TypeTable.intern]
  rcases t.find? s with _ | a
  · have hlonger : t.shapes <+: (t.push s).shapes := List.prefix_append _ _
    intro a x hx
    rcases shape?_push_cases hx with hx | ⟨-, rfl⟩
    · exact check_mono hlonger (h a x hx)
    · exact check_mono hlonger hs
  · exact h

/-! ### Types over scalars -/

lemma hybridFree_of_isScalar (h : t.has a Shape.isScalar = true) : t.HybridFree a := by
  obtain ⟨x, hx, hscalar⟩ := (Option.any_eq_true _ _).1 h
  cases x <;>
    simp only [Shape.isScalar, Shape.isNumerical, Shape.isInteger, Shape.isFloat, Bool.or_self,
      Bool.false_eq_true] at hscalar
  all_goals exact .intro hx rfl (by simp [Shape.operands])

lemma isScalar_of_isNumerical (h : x.isNumerical = true) : x.isScalar = true := by
  cases x <;> first | rfl | exact h

namespace Checked

lemma hybridFree_of_vector (h : t.Checked) (ha : t.shape? a = some (.vector v count)) :
    t.HybridFree a := by
  have hscalar := (check_vector.1 (h a _ ha)).1
  exact .intro ha rfl (by simpa [Shape.operands] using hybridFree_of_isScalar hscalar)

lemma hybridFree_of_matrix (h : t.Checked) (ha : t.shape? a = some (.matrix v count)) :
    t.HybridFree a := by
  obtain ⟨c, n, hv⟩ := isSome_component?_iff.1 (check_matrix.1 (h a _ ha)).1
  exact .intro ha rfl (by simpa [Shape.operands] using h.hybridFree_of_vector hv)

lemma hybridFree_of_image (h : t.Checked) (ha : t.shape? a = some (.image i)) :
    t.HybridFree a := by
  obtain ⟨x, hx, hnumerical⟩ := (Option.any_eq_true _ _).1 (check_image.1 (h a _ ha))
  have hscalar : t.has i.sampled Shape.isScalar = true :=
    (Option.any_eq_true _ _).2 ⟨x, hx, isScalar_of_isNumerical hnumerical⟩
  exact .intro ha rfl (by simpa [Shape.operands] using hybridFree_of_isScalar hscalar)

lemma hybridFree_of_sampledImage (h : t.Checked) (ha : t.shape? a = some (.sampledImage v)) :
    t.HybridFree a := by
  obtain ⟨x, hx, himage⟩ := (Option.any_eq_true _ _).1 (check_sampledImage.1 (h a _ ha))
  cases x <;> simp only [Shape.isImage, Bool.false_eq_true] at himage
  exact .intro ha rfl (by simpa [Shape.operands] using h.hybridFree_of_image hx)

end Checked

/-- Two types that look alike are the same, or pointers to types that look alike, or both hybrid. -/
lemma Interned.alike_cases (h : t.Interned) (checked : t.Checked) (hab : t.alike a b = true) :
    a = b ∨
      (∃ p q c, t.shape? a = some (.pointer p c) ∧ t.shape? b = some (.pointer q c) ∧
        t.alike p q = true) ∨
      ∃ x y, t.shape? a = some x ∧ t.shape? b = some y ∧ x.isHybrid = true ∧
        y.isHybrid = true := by
  rcases (alike_iff h.wellFormed).1 hab with rfl | ⟨x, y, hx, hy, hagrees⟩
  · exact Or.inl rfl
  -- A kind that is told apart by likeness would have answered the request for the other.
  have same (hybrid : x.isHybrid = false) (keyed : x.isKeyedByIdentity = false) : a = b := by
    refine h.eq_of_sameKey hx hy (answers_iff_sameKey.1 ?_)
    rw [answers, hybrid, keyed]
    exact hagrees
  cases x <;> try exact Or.inl (same rfl rfl)
  all_goals
    cases y <;> simp only [Shape.agrees.eq_def, Bool.false_eq_true, Bool.and_eq_true,
      beq_iff_eq] at hagrees
  case vector.vector =>
    exact Or.inl (h.eq_of_alike (checked.hybridFree_of_vector hx)
      (checked.hybridFree_of_vector hy) hab)
  case matrix.matrix =>
    exact Or.inl (h.eq_of_alike (checked.hybridFree_of_matrix hx)
      (checked.hybridFree_of_matrix hy) hab)
  case sampledImage.sampledImage =>
    exact Or.inl (h.eq_of_alike (checked.hybridFree_of_sampledImage hx)
      (checked.hybridFree_of_sampledImage hy) hab)
  case pointer.pointer p c q c' =>
    obtain ⟨hpq, rfl⟩ := hagrees
    exact Or.inr (Or.inl ⟨p, q, c, hx, hy, hpq⟩)
  all_goals exact Or.inr (Or.inr ⟨_, _, hx, hy, rfl, rfl⟩)

end ShaderTypes.TypeTable
