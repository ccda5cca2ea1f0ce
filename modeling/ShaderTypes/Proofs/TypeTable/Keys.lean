import Mathlib.Data.List.Forall2
import ShaderTypes.Proofs.TypeTable.Identity

/-!
# The keys of requests

`TypeTable.SameKey` says which requests for a type ask for the same one, family by family.  Vectors,
matrices, sampled images and pointers are keyed by the very type that they are over; images, arrays,
functions and structs by what their operands look like.  A hybrid shape has no key.

Interning gives an entry of the key that was asked for, and an interned table has one entry a key,
so that two types of the table are the same exactly when their keys are.
-/

namespace ShaderTypes.TypeTable

/-- Two requests of one family whose keys are equal. -/
inductive SameKey (t : TypeTable) : Shape → Shape → Prop
  | void : SameKey t .void .void
  | bool : SameKey t .bool .bool
  | sampler : SameKey t .sampler .sampler
  | accelerationStructure : SameKey t .accelerationStructure .accelerationStructure
  | integer {bits : UInt32} {signed : Bool} :
      SameKey t (.integer bits signed) (.integer bits signed)
  | float {bits : UInt32} : SameKey t (.float bits) (.float bits)
  | vector {u : TypeId} {count : UInt32} : SameKey t (.vector u count) (.vector u count)
  | matrix {u : TypeId} {count : UInt32} : SameKey t (.matrix u count) (.matrix u count)
  | sampledImage {u : TypeId} : SameKey t (.sampledImage u) (.sampledImage u)
  | pointer {u : TypeId} {storage : Storage} : SameKey t (.pointer u storage) (.pointer u storage)
  | image {i : Image} {v : TypeId} (sampled : t.alike i.sampled v = true) :
      SameKey t (.image i) (.image { i with sampled := v })
  | array {u v : TypeId} {count : UInt32} {stride : Option UInt32}
      (element : t.alike u v = true) : SameKey t (.array u count stride) (.array v count stride)
  | runtimeArray {u v : TypeId} {stride : Option UInt32} (element : t.alike u v = true) :
      SameKey t (.runtimeArray u stride) (.runtimeArray v stride)
  | function {f g : Signature} (result : t.alike f.result g.result = true)
      (params : List.Forall₂ (fun u v => t.alike u v = true) f.params g.params)
      (isMember : f.isMember = g.isMember) : SameKey t (.function f) (.function g)
  | struct {r s : Struct} (name : r.name = s.name) (readOnly : r.readOnly = s.readOnly)
      (interface : r.interface = s.interface)
      (fields : List.Forall₂ (fun f g => t.alike f.type g.type = true ∧ f.name = g.name ∧
        f.offset = g.offset) r.fields s.fields) : SameKey t (.struct r) (.struct s)

variable {t u : TypeTable} {s x y z : Shape} {a b : TypeId}

/-- Being related one by one, as a relation. -/
lemma isEqv_iff_forall₂ {α : Type*} {p : α → α → Bool} {as bs : List α} :
    as.isEqv bs p = true ↔ List.Forall₂ (fun a b => p a b = true) as bs := by
  induction as generalizing bs with
  | nil => cases bs <;> simp [List.isEqv]
  | cons a as ih => cases bs <;> simp [List.isEqv, ih]

/-- An entry answers a request when it has the same key. -/
lemma answers_iff_sameKey : t.answers x y = true ↔ t.SameKey x y := by
  constructor
  · intro h
    -- Shapes of two families do not agree, and a hybrid one answers nothing.
    cases x <;> cases y <;>
      simp only [answers, Shape.isHybrid, Shape.isKeyedByIdentity, Shape.agrees.eq_def,
        Bool.not_true, Bool.not_false, Bool.true_and, Bool.false_and, Bool.false_eq_true,
        ↓reduceIte, Bool.and_eq_true, beq_iff_eq] at h
    case array.array => rcases h with ⟨⟨element, rfl⟩, rfl⟩; exact .array element
    case runtimeArray.runtimeArray => rcases h with ⟨element, rfl⟩; exact .runtimeArray element
    case image.image i j =>
      obtain ⟨v, dimension, depth, arrayed, multisampled, sampling, texel⟩ := j
      simp only [Image.agrees, Bool.and_eq_true, beq_iff_eq] at h
      obtain ⟨⟨⟨⟨⟨⟨sampled, rfl⟩, rfl⟩, rfl⟩, rfl⟩, rfl⟩, rfl⟩ := h
      exact .image sampled
    case function.function f g =>
      simp only [Signature.agrees, Bool.and_eq_true, beq_iff_eq, isEqv_iff_forall₂] at h
      exact .function h.1.1 h.1.2 h.2
    case struct.struct r s =>
      simp only [Struct.agrees, Bool.and_eq_true, beq_iff_eq, isEqv_iff_forall₂, Field.agrees,
        and_assoc] at h
      exact .struct h.1 h.2.1 h.2.2.1 h.2.2.2
    -- What is left of the others is that their keys are equal.
    all_goals simp_all; constructor
  · intro h
    cases h <;>
      simp_all [answers, Shape.isHybrid, Shape.isKeyedByIdentity, Shape.agrees.eq_def, Image.agrees,
        Signature.agrees, Struct.agrees, Field.agrees, isEqv_iff_forall₂, and_assoc]

namespace SameKey

/-- A request without a hybrid shape has its own key. -/
lemma refl (hybrid : x.isHybrid = false) : t.SameKey x x := by
  have same (as : List TypeId) : List.Forall₂ (fun u v => t.alike u v = true) as as :=
    List.forall₂_same.2 fun u _ => alike_refl t u
  cases x with
  | void => exact .void
  | bool => exact .bool
  | integer => exact .integer
  | float => exact .float
  | vector => exact .vector
  | matrix => exact .matrix
  | array => exact .array (alike_refl t _)
  | runtimeArray => exact .runtimeArray (alike_refl t _)
  | image i => exact .image (alike_refl t i.sampled)
  | sampledImage => exact .sampledImage
  | sampler => exact .sampler
  | accelerationStructure => exact .accelerationStructure
  | pointer => exact .pointer
  | function f => exact .function (alike_refl t _) (same _) rfl
  | struct r =>
    refine .struct rfl rfl rfl (List.forall₂_same.2 fun f _ => ?_)
    exact ⟨alike_refl t f.type, rfl, rfl⟩
  | hybridPointer => cases hybrid
  | hybridSampledImage => cases hybrid
  | hybridStruct => cases hybrid

lemma isHybrid_left (h : t.SameKey x y) : x.isHybrid = false := by
  cases h <;> rfl

lemma isHybrid_right (h : t.SameKey x y) : y.isHybrid = false := by
  cases h <;> rfl

lemma isKeyedByIdentity_eq (h : t.SameKey x y) : x.isKeyedByIdentity = y.isKeyedByIdentity := by
  cases h <;> rfl

lemma symm (wf : t.WellFormed) (h : t.SameKey x y) : t.SameKey y x := by
  have keyed := h.isKeyedByIdentity_eq
  have hybrid := h.isHybrid_right
  rw [← answers_iff_sameKey, answers, Bool.and_eq_true] at h ⊢
  refine ⟨by rw [hybrid]; rfl, ?_⟩
  rw [← keyed, Shape.agrees_comm]
  · exact h.2
  · intro u v
    split
    · exact Bool.beq_comm
    · exact alike_comm wf u v

lemma trans (wf : t.WellFormed) (h : t.SameKey x y) (h' : t.SameKey y z) : t.SameKey x z := by
  have keyed := h.isKeyedByIdentity_eq
  rw [← answers_iff_sameKey, answers, Bool.and_eq_true] at h h' ⊢
  rw [← keyed] at h'
  refine ⟨h.1, Shape.agrees_trans ?_ h.2 h'.2⟩
  intro u _ v w
  split
  · simp +contextual
  · exact alike_trans wf

/-- The keys of requests for types over known ones are equal or not once and for all. -/
lemma extend (wf : t.WellFormed) (wf' : u.WellFormed) (h : t.shapes <+: u.shapes)
    (hx : ∀ v ∈ x.operands, v.index < t.size) (hy : ∀ v ∈ y.operands, v.index < t.size)
    (hxy : t.SameKey x y) : u.SameKey x y := by
  rw [← answers_iff_sameKey] at hxy ⊢
  rwa [answers_extend wf wf' h hx hy]

end SameKey

/-- Two types of an interned table are the same when their keys are equal: the earlier one would
have answered the request for the later one. -/
lemma Interned.eq_of_sameKey (h : t.Interned) (ha : t.shape? a = some x) (hb : t.shape? b = some y)
    (hxy : t.SameKey x y) : a = b := by
  rcases Nat.lt_trichotomy a.index b.index with hlt | heq | hgt
  · have hanswers := answers_iff_sameKey.2 (hxy.symm h.wellFormed)
    simp [h.distinct hlt ha hb] at hanswers
  · cases a
    cases b
    exact congrArg TypeId.mk heq
  · have hanswers := answers_iff_sameKey.2 hxy
    simp [h.distinct hgt hb ha] at hanswers

variable {r : TypeTable}

lemma grows_of_intern (h : t.intern s = (a, r)) (known : ∀ v ∈ s.operands, v.index < t.size) :
    t.Grows r ∧ a.index < r.size := by
  have hgrows : t.Grows (t.intern s).2 := Grows.refl.intern known
  have hlt := intern_fst_lt t s
  rw [h] at hgrows hlt
  exact ⟨hgrows, hlt⟩

/-- Interning gives a type of the key that was asked for, now and in every longer table. -/
lemma Interned.exists_sameKey_of_intern (ht : t.Interned) (h : t.intern s = (a, r))
    (known : ∀ v ∈ s.operands, v.index < t.size) (hybrid : s.isHybrid = false) (hu : r.Grows u) :
    ∃ x, u.shape? a = some x ∧ u.SameKey s x := by
  have hgrows : t.Grows u := (grows_of_intern h known).1.trans hu
  have wf := (hgrows.interned ht).wellFormed
  rw [TypeTable.intern] at h
  rcases hfind : t.find? s with _ | a'
  · rw [hfind] at h
    cases h
    exact ⟨s, shape?_mono hu.shapes_le shape?_push_size, .refl hybrid⟩
  · rw [hfind] at h
    cases h
    obtain ⟨x, hx, hanswers⟩ := answers_of_find? hfind
    refine ⟨x, shape?_mono hgrows.shapes_le hx, ?_⟩
    exact (answers_iff_sameKey.1 hanswers).extend ht.wellFormed wf hgrows.shapes_le known
      fun v hv => ht.wellFormed.operand_lt hx hv

/-- Interning a hybrid shape gives a new type of that very shape. -/
lemma shape?_of_intern_isHybrid (h : t.intern s = (a, r)) (hybrid : s.isHybrid = true)
    (hu : r.Grows u) : a.index = t.size ∧ u.shape? a = some s := by
  rw [intern_of_isHybrid hybrid, Prod.mk.injEq] at h
  obtain ⟨rfl, rfl⟩ := h
  exact ⟨rfl, shape?_mono hu.shapes_le shape?_push_size⟩

/-- Two shapes interned one before the other give the same type if and only if their keys are
equal. -/
lemma Interned.intern_eq_iff_sameKey {t' r' : TypeTable} (ht : t.Interned) (ht' : t'.Interned)
    (hx : ∀ v ∈ x.operands, v.index < t.size) (hy : ∀ v ∈ y.operands, v.index < t'.size)
    (h : t.intern x = (a, r)) (between : r.Grows t') (h' : t'.intern y = (b, r')) :
    a = b ↔ r'.SameKey x y := by
  have hgrows : t'.Grows r' := (grows_of_intern h' hy).1
  have interned := hgrows.interned ht'
  have wf := interned.wellFormed
  have left (hybrid : x.isHybrid = false) : ∃ p, r'.shape? a = some p ∧ r'.SameKey x p :=
    ht.exists_sameKey_of_intern h hx hybrid (between.trans hgrows)
  have right (hybrid : y.isHybrid = false) : ∃ q, r'.shape? b = some q ∧ r'.SameKey y q :=
    ht'.exists_sameKey_of_intern h' hy hybrid .refl
  constructor
  · rintro rfl
    rcases hybrid : x.isHybrid with _ | _ <;> rcases hybrid' : y.isHybrid with _ | _
    · obtain ⟨p, hp, key⟩ := left hybrid
      obtain ⟨q, hq, key'⟩ := right hybrid'
      obtain rfl : p = q := Option.some.inj (hp.symm.trans hq)
      exact key.trans wf (key'.symm wf)
    · -- A type that was asked for by a shape with a key is not of a hybrid shape.
      obtain ⟨p, hp, key⟩ := left hybrid
      have hq := (shape?_of_intern_isHybrid h' hybrid' .refl).2
      obtain rfl : p = y := Option.some.inj (hp.symm.trans hq)
      cases hybrid'.symm.trans key.isHybrid_right
    · obtain ⟨q, hq, key⟩ := right hybrid'
      have hp := (shape?_of_intern_isHybrid h hybrid (between.trans hgrows)).2
      obtain rfl : q = x := Option.some.inj (hq.symm.trans hp)
      cases hybrid.symm.trans key.isHybrid_right
    · -- The later type is new, and the earlier one was there before.
      have hnew := (shape?_of_intern_isHybrid h' hybrid' .refl).1
      have hold := (grows_of_intern h hx).2
      have hle : r.size ≤ t'.size := between.shapes_le.length_le
      omega
  · intro key
    obtain ⟨p, hp, keyp⟩ := left key.isHybrid_left
    obtain ⟨q, hq, keyq⟩ := right key.isHybrid_right
    exact interned.eq_of_sameKey hp hq (((keyp.symm wf).trans wf key).trans wf keyq)

end ShaderTypes.TypeTable
