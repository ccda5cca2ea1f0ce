import Mathlib.Tactic.Tauto
import ShaderTypes.TypeTable.Request

/-!
# Likeness of types

Likeness compares two types all the way down.  In a well-formed table its recursion never meets its
guard, so two types are alike exactly when they are the same or their shapes agree on operands that
are alike.

Everything rests on `Shape.agrees_iff`: whether two shapes agree is a question about the shapes
without their operands, and a question about the operands one by one.
-/

namespace ShaderTypes

/-- Induction on the position of a type. -/
@[elab_as_elim]
theorem TypeId.strongInduction {P : TypeId → Prop}
    (h : ∀ a, (∀ u : TypeId, u.index < a.index → P u) → P a) (a : TypeId) : P a :=
  h a fun u _ => strongInduction h u
termination_by a.index

section OneByOne

variable {α : Type*} {p q : α → α → Bool} {as bs : List α}

/-- Members that are related one by one stay so under a relation that is weaker on them. -/
lemma isEqv_mono (h : ∀ a ∈ as, ∀ b ∈ bs, p a b = true → q a b = true)
    (hab : as.isEqv bs p = true) : as.isEqv bs q = true := by
  induction as generalizing bs with
  | nil => cases bs <;> simp_all [List.isEqv]
  | cons a as ih =>
    cases bs with
    | nil => simp [List.isEqv] at hab
    | cons b bs =>
      simp only [List.isEqv, Bool.and_eq_true] at hab ⊢
      refine ⟨h a List.mem_cons_self b List.mem_cons_self hab.1, ih ?_ hab.2⟩
      intro a' ha' b' hb'
      exact h a' (List.mem_cons_of_mem _ ha') b' (List.mem_cons_of_mem _ hb')

/-- Being related one by one, from the other side. -/
lemma isEqv_swap (as bs : List α) : as.isEqv bs (fun a b => p b a) = bs.isEqv as p := by
  induction as generalizing bs with
  | nil => cases bs <;> rfl
  | cons a as ih =>
    cases bs with
    | nil => rfl
    | cons b bs => simp only [List.isEqv, ih bs]

/-- Being related one by one is transitive when the relation is. -/
lemma isEqv_trans {cs : List α} (h : ∀ a ∈ as, ∀ b c, p a b = true → p b c = true → p a c = true)
    (hab : as.isEqv bs p = true) (hbc : bs.isEqv cs p = true) : as.isEqv cs p = true := by
  induction as generalizing bs cs with
  | nil => cases bs <;> cases cs <;> simp_all [List.isEqv]
  | cons a as ih =>
    rcases bs with _ | ⟨b, bs⟩
    · simp [List.isEqv] at hab
    rcases cs with _ | ⟨c, cs⟩
    · simp [List.isEqv] at hbc
    simp only [List.isEqv, Bool.and_eq_true] at hab hbc ⊢
    refine ⟨h a List.mem_cons_self b c hab.1 hbc.1, ih ?_ hab.2 hbc.2⟩
    intro a' ha'
    exact h a' (List.mem_cons_of_mem _ ha')

end OneByOne

/-! ### Agreement of shapes -/

section Agreement

variable {same same' : TypeId → TypeId → Bool}

/-- Fields agree one by one when they do so apart from their types, and their types are related. -/
lemma fields_agree_iff (fs gs : List Field) :
    fs.isEqv gs (Field.agrees same) = true ↔
      fs.isEqv gs (Field.agrees fun _ _ => true) = true ∧
        (fs.map Field.type).isEqv (gs.map Field.type) same = true := by
  induction fs generalizing gs with
  | nil => cases gs <;> simp [List.isEqv]
  | cons f fs ih =>
    cases gs with
    | nil => simp [List.isEqv]
    | cons g gs =>
      simp only [List.map_cons, List.isEqv, Field.agrees, Bool.and_eq_true, ih gs]
      tauto

namespace Shape

variable {x y : Shape}

/-- Two shapes agree when they do so apart from their operands, and their operands are related one
by one. -/
lemma agrees_iff :
    x.agrees same y = true ↔
      x.agrees (fun _ _ => true) y = true ∧ x.operands.isEqv y.operands same = true := by
  cases x <;> cases y <;>
    simp only [agrees.eq_def, operands, Signature.agrees, Image.agrees, List.isEqv, Bool.and_eq_true,
      reduceCtorEq, false_and, and_true, true_and]
  case function.function f g =>
    -- Parameters that are related one by one are as many.
    have hlength : f.params.isEqv g.params same = true →
        f.params.isEqv g.params (fun _ _ => true) = true :=
      isEqv_mono fun _ _ _ _ _ => rfl
    tauto
  case struct.struct s r =>
    simp only [Struct.agrees, Bool.and_eq_true]
    rw [fields_agree_iff]
    tauto
  all_goals tauto

/-- Two shapes still agree under a relation that is weaker on their operands. -/
lemma agrees_mono (h : ∀ u ∈ x.operands, ∀ v ∈ y.operands, same u v = true → same' u v = true)
    (hxy : x.agrees same y = true) : x.agrees same' y = true := by
  rw [agrees_iff] at hxy ⊢
  exact ⟨hxy.1, isEqv_mono h hxy.2⟩

/-- Two relations that are the same on the operands of two shapes give the same agreement. -/
lemma agrees_congr (h : ∀ u ∈ x.operands, ∀ v ∈ y.operands, same u v = same' u v) :
    x.agrees same y = x.agrees same' y := by
  rw [Bool.eq_iff_iff]
  constructor
  · exact agrees_mono fun u hu v hv huv => by rwa [← h u hu v hv]
  · exact agrees_mono fun u hu v hv huv => by rwa [h u hu v hv]

/-- Agreement of shapes, from the other side. -/
lemma agrees_swap (x y : Shape) : x.agrees (fun u v => same v u) y = y.agrees same x := by
  have hfield : Field.agrees (fun u v => same v u) = fun f g => g.agrees same f := by
    funext f g
    rw [Field.agrees, Field.agrees, Bool.beq_comm (a := f.name), Bool.beq_comm (a := f.offset)]
  have hhybrid : HybridField.agrees = fun f g => g.agrees f := by
    funext f g
    rw [HybridField.agrees, HybridField.agrees, Unresolved.agrees_comm, Bool.beq_comm (a := f.name),
      Bool.beq_comm (a := f.offset)]
  have hstruct (fs gs : List Field) :
      fs.isEqv gs (Field.agrees fun u v => same v u) = gs.isEqv fs (Field.agrees same) := by
    rw [hfield, isEqv_swap]
  have hhybridStruct (fs gs : List HybridField) :
      fs.isEqv gs HybridField.agrees = gs.isEqv fs HybridField.agrees := by
    rw [hhybrid, isEqv_swap, ← hhybrid]
  cases x <;> cases y <;>
    simp only [agrees.eq_def, Signature.agrees, Image.agrees, Struct.agrees, HybridStruct.agrees,
      isEqv_swap, hstruct, hhybridStruct, Unresolved.agrees_comm, Bool.beq_comm]

/-- Agreement of shapes is symmetric when the relation is. -/
lemma agrees_comm (h : ∀ u v, same u v = same v u) (x y : Shape) :
    x.agrees same y = y.agrees same x := by
  rw [← agrees_swap x y]
  exact agrees_congr fun u _ v _ => h u v

/-- Agreement of shapes is transitive when the relation is on the operands of the first. -/
lemma agrees_trans {z : Shape} (h : ∀ u ∈ x.operands, ∀ v w, same u v = true → same v w = true →
    same u w = true) (hxy : x.agrees same y = true) (hyz : y.agrees same z = true) :
    x.agrees same z = true := by
  rw [agrees_iff] at hxy hyz ⊢
  refine ⟨?_, isEqv_trans h hxy.2 hyz.2⟩
  replace hxy := hxy.1
  replace hyz := hyz.1
  have hfield (f g k : Field) (hfg : f.agrees (fun _ _ => true) g = true)
      (hgk : g.agrees (fun _ _ => true) k = true) : f.agrees (fun _ _ => true) k = true := by
    simp_all [Field.agrees]
  have hunresolved (u v w : Unresolved) (huv : u.agrees v = true) (hvw : v.agrees w = true) :
      u.agrees w = true := by
    cases u <;> cases v <;> cases w <;> simp_all [Unresolved.agrees]
  have hhybrid (f g k : HybridField) (hfg : f.agrees g = true) (hgk : g.agrees k = true) :
      f.agrees k = true := by
    simp only [HybridField.agrees, Bool.and_eq_true, beq_iff_eq] at hfg hgk ⊢
    exact ⟨⟨hunresolved _ _ _ hfg.1.1 hgk.1.1, hfg.1.2.trans hgk.1.2⟩, hfg.2.trans hgk.2⟩
  -- Shapes of two kinds do not agree, so one case a kind is left.
  cases x <;> cases y <;> simp only [agrees.eq_def, Bool.false_eq_true] at hxy
  all_goals cases z <;> simp only [agrees.eq_def, Bool.false_eq_true] at hyz
  case function.function.function f g k =>
    simp only [Signature.agrees, Bool.true_and, Bool.and_eq_true, beq_iff_eq, agrees.eq_def]
      at hxy hyz ⊢
    exact ⟨isEqv_trans (fun _ _ _ _ _ _ => rfl) hxy.1 hyz.1, hxy.2.trans hyz.2⟩
  case struct.struct.struct f g k =>
    simp only [Struct.agrees, Bool.and_eq_true, beq_iff_eq, agrees.eq_def] at hxy hyz ⊢
    refine ⟨?_, isEqv_trans (fun f _ g k => hfield f g k) hxy.2 hyz.2⟩
    exact ⟨⟨hxy.1.1.1.trans hyz.1.1.1, hxy.1.1.2.trans hyz.1.1.2⟩, hxy.1.2.trans hyz.1.2⟩
  case hybridStruct.hybridStruct.hybridStruct f g k =>
    simp only [HybridStruct.agrees, Bool.and_eq_true, beq_iff_eq, agrees.eq_def] at hxy hyz ⊢
    refine ⟨?_, isEqv_trans (fun f _ g k => hhybrid f g k) hxy.2 hyz.2⟩
    exact ⟨⟨hxy.1.1.1.trans hyz.1.1.1, hxy.1.1.2.trans hyz.1.1.2⟩, hxy.1.2.trans hyz.1.2⟩
  case hybridPointer.hybridPointer.hybridPointer =>
    simp only [Bool.and_eq_true, beq_iff_eq, agrees.eq_def] at hxy hyz ⊢
    exact ⟨hunresolved _ _ _ hxy.1 hyz.1, hxy.2.trans hyz.2⟩
  case hybridSampledImage.hybridSampledImage.hybridSampledImage =>
    exact hunresolved _ _ _ hxy hyz
  all_goals simp_all [agrees.eq_def, Image.agrees]

end Shape

end Agreement

/-! ### Likeness of types -/

namespace TypeTable

variable {t t' : TypeTable} {a b : TypeId}

/-- The types of a table keep their shapes in a longer one. -/
lemma shape?_mono {x : Shape} (h : t.shapes <+: t'.shapes) (ha : t.shape? a = some x) :
    t'.shape? a = some x := by
  obtain ⟨more, hmore⟩ := h
  rw [shape?, ← hmore, List.getElem?_append_left (shape?_lt ha)]
  exact ha

lemma exists_shape? (known : a.index < t.size) : ∃ x, t.shape? a = some x :=
  ⟨_, List.getElem?_eq_getElem known⟩

lemma shape?_eq_of_lt (h : t.shapes <+: t'.shapes) (known : a.index < t.size) :
    t'.shape? a = t.shape? a := by
  obtain ⟨x, hx⟩ := exists_shape? known
  rw [hx, shape?_mono h hx]

/-- The recursion of likeness, without its guard. -/
lemma alike_iff (wf : t.WellFormed) :
    t.alike a b = true ↔
      a = b ∨ ∃ x y, t.shape? a = some x ∧ t.shape? b = some y ∧ x.agrees t.alike y = true := by
  rw [alike, Bool.or_eq_true, beq_iff_eq]
  refine or_congr_right ?_
  cases hx : t.shape? a with
  | none => simp
  | some x =>
    cases hy : t.shape? b with
    | none => simp
    | some y =>
      -- The operands of `a` stand before it, so the guard of the recursion always holds.
      have hguard : x.agrees (fun u v => if _h : u.index < a.index then t.alike u v else false) y =
          x.agrees t.alike y := by
        apply Shape.agrees_congr
        intro u hu v _
        exact dif_pos (wf a x hx u hu)
      simp only [hguard]
      simp

/-- What two types of a table look like stays the same in a longer one. -/
lemma alike_extend (wf : t.WellFormed) (wf' : t'.WellFormed) (h : t.shapes <+: t'.shapes)
    (ha : a.index < t.size) (hb : b.index < t.size) : t'.alike a b = t.alike a b := by
  induction a using TypeId.strongInduction generalizing b with
  | _ a ih =>
    obtain ⟨x, hx⟩ := exists_shape? ha
    obtain ⟨y, hy⟩ := exists_shape? hb
    have hagrees : x.agrees t'.alike y = x.agrees t.alike y := by
      apply Shape.agrees_congr
      intro u hu v hv
      have hua := wf a x hx u hu
      have hvb := wf b y hy v hv
      exact ih u hua (by omega) (by omega)
    rw [Bool.eq_iff_iff, alike_iff wf, alike_iff wf', shape?_mono h hx, shape?_mono h hy,
      hx, hy]
    simp [hagrees]

/-- Likeness is symmetric. -/
lemma alike_comm (wf : t.WellFormed) (a b : TypeId) : t.alike a b = t.alike b a := by
  induction a using TypeId.strongInduction generalizing b with
  | _ a ih =>
  have agrees {x y : Shape} (hx : t.shape? a = some x) :
      x.agrees t.alike y = y.agrees t.alike x := by
    rw [← Shape.agrees_swap x y]
    exact Shape.agrees_congr fun u hu v _ => ih u (wf a x hx u hu) v
  rw [Bool.eq_iff_iff, alike_iff wf, alike_iff wf]
  constructor
  · rintro (rfl | ⟨x, y, hx, hy, hxy⟩)
    · exact Or.inl rfl
    · exact Or.inr ⟨y, x, hy, hx, (agrees hx).symm.trans hxy⟩
  · rintro (rfl | ⟨y, x, hy, hx, hyx⟩)
    · exact Or.inl rfl
    · exact Or.inr ⟨x, y, hx, hy, (agrees hx).trans hyx⟩

/-- Likeness is transitive. -/
lemma alike_trans {c : TypeId} (wf : t.WellFormed) (hab : t.alike a b = true)
    (hbc : t.alike b c = true) : t.alike a c = true := by
  induction a using TypeId.strongInduction generalizing b c with
  | _ a ih =>
  rcases (alike_iff wf).1 hab with rfl | ⟨x, y, hx, hy, hxy⟩
  · exact hbc
  rcases (alike_iff wf).1 hbc with rfl | ⟨y', z, hy', hz, hyz⟩
  · exact hab
  obtain rfl : y = y' := Option.some.inj (hy.symm.trans hy')
  refine (alike_iff wf).2 (Or.inr ⟨x, z, hx, hz, Shape.agrees_trans ?_ hxy hyz⟩)
  intro u hu v w huv hvw
  exact ih u (wf a x hx u hu) huv hvw

end TypeTable

end ShaderTypes
