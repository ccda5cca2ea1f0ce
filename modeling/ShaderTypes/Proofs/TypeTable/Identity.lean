import ShaderTypes.Proofs.TypeTable.Likeness

/-!
# Identity of types

The kinds of types are looked up in different ways: some by the identity of their operands, others
by what their operands look like.  That both give one type for each shape is an invariant of the
whole table, `TypeTable.Interned`: no type answers a request for a later one.  It is kept by every
request, and it makes two types the same as soon as they look alike, unless an unresolved type is
somewhere below them.
-/

namespace ShaderTypes.TypeTable

/-- A type that has no unresolved type anywhere below it, nor is one. -/
inductive HybridFree (t : TypeTable) : TypeId → Prop
  | intro {a : TypeId} {x : Shape} (hx : t.shape? a = some x) (hybrid : x.isHybrid = false)
      (operands : ∀ u ∈ x.operands, HybridFree t u) : HybridFree t a

/-- A table in which every operand stands before its type, and no type answers a request for a later
one. -/
structure Interned (t : TypeTable) : Prop where
  wellFormed : t.WellFormed
  distinct : ∀ {a b : TypeId} {x y : Shape}, a.index < b.index → t.shape? a = some x →
    t.shape? b = some y → t.answers y x = false

variable {t u : TypeTable} {s x y : Shape} {a b : TypeId}

/-! ### What a request does to the table -/

lemma shape?_push_cases (h : (t.push s).shape? a = some x) :
    t.shape? a = some x ∨ a.index = t.size ∧ x = s := by
  have hlt := shape?_lt h
  rw [size_push] at hlt
  rcases Nat.lt_or_ge a.index t.size with ha | ha
  · rw [shape?_push_of_lt ha] at h
    exact Or.inl h
  · have hlast : a = ⟨t.size⟩ := by
      cases a
      simp only [TypeId.mk.injEq] at ha hlt ⊢
      omega
    subst hlast
    rw [shape?_push_size, Option.some.injEq] at h
    exact Or.inr ⟨rfl, h.symm⟩

/-- A new table has no types. -/
lemma interned_empty : Interned {} := by
  constructor
  · intro a s h
    simp [shape?] at h
  · intro a b x y _ h
    simp [shape?] at h

lemma find?_eq_none_iff : t.find? s = none ↔ ∀ a x, t.shape? a = some x → t.answers s x = false := by
  rw [find?, Option.map_eq_none_iff, List.findIdx?_eq_none_iff]
  constructor
  · intro h a x hx
    exact h x (List.mem_of_getElem? hx)
  · intro h x hx
    obtain ⟨i, hi⟩ := List.mem_iff_getElem?.1 hx
    exact h ⟨i⟩ x hi

/-- Whether a type answers a request stays the same in a longer table. -/
lemma answers_extend (wf : t.WellFormed) (wf' : u.WellFormed) (h : t.shapes <+: u.shapes)
    (hs : ∀ v ∈ s.operands, v.index < t.size) (hx : ∀ v ∈ x.operands, v.index < t.size) :
    u.answers s x = t.answers s x := by
  rw [answers, answers]
  congr 1
  apply Shape.agrees_congr
  intro v hv w hw
  split
  · rfl
  · exact alike_extend wf wf' h (hs v hv) (hx w hw)

/-- The operands of a type are in the table. -/
lemma WellFormed.operand_lt (wf : t.WellFormed) (hx : t.shape? a = some x) {v : TypeId}
    (hv : v ∈ x.operands) : v.index < t.size :=
  Nat.lt_trans (wf a x hx v hv) (shape?_lt hx)

/-- A type that was not found can be added. -/
lemma Interned.push (h : t.Interned) (hs : ∀ v ∈ s.operands, v.index < t.size)
    (hnew : t.find? s = none) : (t.push s).Interned := by
  have wf := h.wellFormed.push hs
  have hpre : t.shapes <+: (t.push s).shapes := List.prefix_append _ _
  refine ⟨wf, ?_⟩
  intro a b x y hab hx' hy
  -- The earlier of the two types was there before.
  have hx : t.shape? a = some x := by
    rcases shape?_push_cases hx' with hx | ⟨ha, -⟩
    · exact hx
    · have := shape?_lt hy
      rw [size_push] at this
      omega
  have hxlt (v : TypeId) (hv : v ∈ x.operands) := h.wellFormed.operand_lt hx hv
  rcases shape?_push_cases hy with hy | ⟨-, rfl⟩
  · rw [answers_extend h.wellFormed wf hpre (fun v hv => h.wellFormed.operand_lt hy hv) hxlt]
    exact h.distinct hab hx hy
  · rw [answers_extend h.wellFormed wf hpre hs hxlt]
    exact find?_eq_none_iff.1 hnew a x hx

/-- Interning keeps the table interned. -/
lemma Interned.intern (h : t.Interned) (hs : ∀ v ∈ s.operands, v.index < t.size) :
    (t.intern s).2.Interned := by
  rw [TypeTable.intern]
  cases hfind : t.find? s with
  | some a => exact h
  | none => exact h.push hs hfind

/-- The type that interning gives is in the table after it. -/
lemma intern_fst_lt (t : TypeTable) (s : Shape) : (t.intern s).1.index < (t.intern s).2.size := by
  rw [TypeTable.intern]
  cases hfind : t.find? s with
  | some a =>
    obtain ⟨r, hr, -⟩ := answers_of_find? hfind
    exact shape?_lt hr
  | none => simp

/-! ### Growth -/

/-- A table grows by interning shapes whose operands it has. -/
inductive Grows (t : TypeTable) : TypeTable → Prop
  | refl : Grows t t
  | intern {u : TypeTable} {s : Shape} (h : Grows t u) (hs : ∀ v ∈ s.operands, v.index < u.size) :
      Grows t (u.intern s).2

lemma Grows.trans {v : TypeTable} (h : t.Grows u) (h' : u.Grows v) : t.Grows v := by
  induction h' with
  | refl => exact h
  | intern _ hs ih => exact ih.intern hs

/-- A table only grows at its end. -/
lemma Grows.shapes_le (h : t.Grows u) : t.shapes <+: u.shapes := by
  induction h with
  | refl => exact List.prefix_refl _
  | intern _ _ ih => exact ih.trans (shapes_prefix_intern _ _)

lemma Grows.interned (h : t.Grows u) (ht : t.Interned) : u.Interned := by
  induction h with
  | refl => exact ht
  | intern _ hs ih => exact ih.intern hs

/-- A table that has more types at its end, and only such as are told by `p`. -/
def Gains (t : TypeTable) (p : Shape → Bool) (u : TypeTable) : Prop :=
  ∃ more, u.shapes = t.shapes ++ more ∧ ∀ x ∈ more, p x = true

namespace Gains

variable {v : TypeTable} {p : Shape → Bool}

lemma refl (t : TypeTable) : t.Gains p t :=
  ⟨[], by simp, by simp⟩

lemma trans (h : t.Gains p u) (h' : u.Gains p v) : t.Gains p v := by
  obtain ⟨more, hmore, hp⟩ := h
  obtain ⟨last, hlast, hp'⟩ := h'
  refine ⟨more ++ last, by rw [hlast, hmore, List.append_assoc], fun x hx => ?_⟩
  exact (List.mem_append.1 hx).elim (hp x) (hp' x)

lemma intern (h : t.Gains p u) (hs : p s = true) : t.Gains p (u.intern s).2 := by
  rw [TypeTable.intern]
  cases hfind : u.find? s with
  | some a => exact h
  | none => exact h.trans ⟨[s], rfl, by simpa using hs⟩

/-- A type of the longer table was there before, or is one of those that are told by `p`. -/
lemma shape?_cases (h : t.Gains p u) (hx : u.shape? a = some x) :
    t.shape? a = some x ∨ t.size ≤ a.index ∧ p x = true := by
  obtain ⟨more, hmore, hp⟩ := h
  rw [shape?, hmore] at hx
  rcases Nat.lt_or_ge a.index t.size with hlt | hge
  · exact Or.inl ((List.getElem?_append_left hlt).symm.trans hx)
  · rw [List.getElem?_append_right hge] at hx
    exact Or.inr ⟨hge, hp x (List.mem_of_getElem? hx)⟩

end Gains

/-- The shape that stands for a requested one has the same operands. -/
lemma operands_resolve (t : TypeTable) (s : Shape) : (t.resolve s).operands = s.operands := by
  cases s <;> simp only [resolve]
  split <;> rfl

/-- A request is granted by interning the shape that stands for the requested one. -/
lemma request_eq_ok (h : t.request s = .ok (a, u)) :
    t.check s = .ok () ∧ t.intern (t.resolve s) = (a, u) := by
  unfold request at h
  cases hcheck : t.check s with
  | error fault => simp [hcheck, bind, Except.bind] at h
  | ok => simpa [hcheck, bind, Except.bind, pure, Except.pure] using h

lemma grows_request (hs : ∀ v ∈ s.operands, v.index < t.size) (h : t.request s = .ok (a, u)) :
    t.Grows u := by
  have hu : u = (t.intern (t.resolve s)).2 := by rw [(request_eq_ok h).2]
  rw [hu]
  exact Grows.refl.intern (by rwa [operands_resolve])

/-- A type may be built from the one interned just before. -/
lemma Grows.internAround {r : Shape} (h : t.Grows u) (hr : ∀ v ∈ r.operands, v.index < u.size)
    (hs : s.operands = [(u.intern r).1]) : t.Grows ((u.intern r).2.intern s).2 := by
  refine (h.intern hr).intern ?_
  simpa only [hs, List.mem_singleton, forall_eq] using intern_fst_lt u r

lemma grows_byteAddressBuffer (t : TypeTable) (writable : Bool) :
    t.Grows (t.byteAddressBuffer writable).2 := by
  have word : t.Grows (t.intern (.integer 32 false)).2 := Grows.refl.intern (by simp [Shape.operands])
  have words : ∀ v ∈ (Shape.runtimeArray (t.intern (.integer 32 false)).1 (some 4)).operands,
      v.index < (t.intern (.integer 32 false)).2.size := by
    simpa only [Shape.operands, List.mem_singleton, forall_eq] using intern_fst_lt t _
  exact word.internAround words rfl

lemma grows_counterBuffer (t : TypeTable) : t.Grows t.counterBuffer.2 :=
  Grows.refl.internAround (by simp [Shape.operands]) rfl

/-! ### Questions about types -/

/-- What is asked about a type stays the answer in a longer table. -/
lemma has_eq_of_lt {p : Shape → Bool} (h : t.shapes <+: u.shapes) (ha : a.index < t.size) :
    u.has a p = t.has a p := by
  rw [has, has, shape?_eq_of_lt h ha]

lemma has_mono {p : Shape → Bool} (h : t.shapes <+: u.shapes) (ha : t.has a p = true) :
    u.has a p = true := by
  obtain ⟨x, hx, -⟩ := (Option.any_eq_true _ _).1 ha
  rw [has_eq_of_lt h (shape?_lt hx), ha]

/-- A shape that agrees with no other is the one that interning it gives. -/
lemma shape?_intern (alone : ∀ same y, s.agrees same y = true → y = s) :
    (t.intern s).2.shape? (t.intern s).1 = some s := by
  rw [TypeTable.intern]
  cases hfind : t.find? s with
  | some a =>
    obtain ⟨y, hy, hanswers⟩ := answers_of_find? hfind
    rw [answers, Bool.and_eq_true] at hanswers
    rw [hy, alone _ y hanswers.2]
  | none => exact shape?_push_size

/-- A scalar is interned as it is. -/
lemma shape?_intern_of_isScalar (h : s.isScalar = true) :
    (t.intern s).2.shape? (t.intern s).1 = some s := by
  refine shape?_intern fun same y hagrees => ?_
  cases s <;>
    simp only [Shape.isScalar, Shape.isNumerical, Shape.isInteger, Shape.isFloat, Bool.or_self,
      Bool.false_eq_true] at h
  all_goals cases y <;> simp_all [Shape.agrees.eq_def]

/-- Interning `void` gives a void type. -/
lemma has_intern_void : (t.intern .void).2.has (t.intern .void).1 Shape.isVoid = true := by
  rw [has, shape?_intern fun same y => by cases y <;> simp [Shape.agrees.eq_def]]
  rfl

/-! ### Likeness and identity -/

/-- Of two types with the same shape and the same operands, the earlier one answers the request for
the later one. -/
lemma answers_of_agrees (hybrid : x.isHybrid = false) (h : x.agrees (· == ·) y = true) :
    t.answers x y = true := by
  rw [answers, hybrid, Bool.not_false, Bool.true_and]
  split
  · exact h
  · refine Shape.agrees_mono ?_ h
    intro v _ w _ hvw
    rw [beq_iff_eq.1 hvw]
    exact alike_refl t w

/-- In an interned table two types without unresolved ones below them are the same when they look
alike.  By induction on the position their operands are the same, so neither can be earlier. -/
lemma Interned.eq_of_alike (h : t.Interned) (ha : t.HybridFree a) (hb : t.HybridFree b)
    (hab : t.alike a b = true) : a = b := by
  induction a using TypeId.strongInduction generalizing b with
  | _ a ih =>
  obtain ⟨hx, hybridx, operandsx⟩ := ha
  obtain ⟨hy, hybridy, operandsy⟩ := hb
  rename_i x y
  rcases (alike_iff h.wellFormed).1 hab with rfl | ⟨x', y', hx', hy', hagrees⟩
  · rfl
  obtain rfl : x = x' := Option.some.inj (hx.symm.trans hx')
  obtain rfl : y = y' := Option.some.inj (hy.symm.trans hy')
  -- The operands look alike and stand before, so they are the same.
  have hsame : x.agrees (· == ·) y = true := by
    refine Shape.agrees_mono ?_ hagrees
    intro u hu v hv huv
    exact beq_iff_eq.2 (ih u (h.wellFormed a x hx u hu) (operandsx u hu) (operandsy v hv) huv)
  -- Then the earlier of the two would have answered the request for the later one.
  rcases Nat.lt_trichotomy a.index b.index with hlt | heq | hgt
  · rw [Shape.agrees_comm fun u v => Bool.beq_comm] at hsame
    have hanswers : t.answers y x = true := answers_of_agrees hybridy hsame
    simp [h.distinct hlt hx hy] at hanswers
  · cases a
    cases b
    exact congrArg TypeId.mk heq
  · have hanswers : t.answers x y = true := answers_of_agrees hybridx hsame
    simp [h.distinct hgt hy hx] at hanswers

end ShaderTypes.TypeTable
