import ShaderTypes.Proofs.Store.Soundness
import ShaderTypes.Proofs.TypeTable.Keys

/-!
# Requests and the types they give

Whatever happens in a compilation between two requests, they give the same type exactly when their
keys are the same.  `Operation.Asks` says which shape an operation asks for: a matrix of columns
that are not floating is asked for as an array, and the two buffers are asked for as the structs
they are.  A type that is asked for by an unresolved shape is never given again.
-/

namespace ShaderTypes

/-- A vector of floating numbers. -/
def TypeTable.IsFloatVector (t : TypeTable) (u : TypeId) : Prop :=
  ∃ c count bits, t.shape? u = some (.vector c count) ∧ t.shape? c = some (.float bits)

/-- The shape that an operation asks for, over the types of a table. -/
inductive Operation.Asks (t : TypeTable) : Operation → Shape → Prop
  | type {x : Shape} (columns : ∀ u count, x = .matrix u count → t.IsFloatVector u) :
      Asks t (.type x) x
  | columns {u : TypeId} {count : UInt32} (columns : ¬ t.IsFloatVector u) :
      Asks t (.type (.matrix u count)) (.array u count none)
  | byteAddressBuffer {writable : Bool} {word words : TypeId}
      (hword : t.shape? word = some (.integer 32 false))
      (hwords : t.shape? words = some (.runtimeArray word (some 4))) :
      Asks t (.byteAddressBuffer writable) (.struct
        { fields := [{ type := words, name := some "", offset := some 0 }]
          name := if writable then "type.RWByteAddressBuffer" else "type.ByteAddressBuffer"
          readOnly := !writable
          interface := .storageBuffer })
  | counterBuffer {int : TypeId} (hint : t.shape? int = some (.integer 32 true)) :
      Asks t .counterBuffer (.struct
        { fields := [{ type := int, name := some "counter", offset := some 0 }]
          name := "type.ACSBuffer.counter"
          interface := .storageBuffer })

/-- Whether the shape is a struct. -/
def Shape.isStruct : Shape → Bool
  | .struct _ => true
  | _ => false

namespace TypeTable

variable {t u : TypeTable} {x : Shape} {a c v : TypeId} {writable : Bool}

/-! ### The shape that is asked for -/

lemma has_isFloat_iff : t.has c Shape.isFloat = true ↔ ∃ bits, t.shape? c = some (.float bits) := by
  rw [has, Option.any_eq_true]
  constructor
  · rintro ⟨x, hx, hfloat⟩
    cases x <;> simp only [Shape.isFloat, Bool.false_eq_true] at hfloat
    exact ⟨_, hx⟩
  · rintro ⟨bits, hx⟩
    exact ⟨_, hx, rfl⟩

lemma isFloatVector_iff : (t.component? v).any (t.has · Shape.isFloat) = true ↔
    t.IsFloatVector v := by
  rw [component?, IsFloatVector]
  rcases hv : t.shape? v with _ | x
  · simp
  · cases x <;> simp [has_isFloat_iff]

lemma IsFloatVector.mono (h : t.shapes <+: u.shapes) (hv : t.IsFloatVector v) :
    u.IsFloatVector v := by
  obtain ⟨c, count, bits, hx, hc⟩ := hv
  exact ⟨c, count, bits, shape?_mono h hx, shape?_mono h hc⟩

/-- A longer table makes no vector of a type that was there. -/
lemma IsFloatVector.of_longer (wf : t.WellFormed) (h : t.shapes <+: u.shapes)
    (hlt : v.index < t.size) (hv : u.IsFloatVector v) : t.IsFloatVector v := by
  obtain ⟨c, count, bits, hx, hc⟩ := hv
  rw [shape?_eq_of_lt h hlt] at hx
  rw [shape?_eq_of_lt h (wf.operand_lt hx List.mem_cons_self)] at hc
  exact ⟨c, count, bits, hx, hc⟩

/-- A request by a shape asks for the shape that stands for it. -/
lemma asks_type_iff {y : Shape} (wf : t.WellFormed) (h : t.shapes <+: u.shapes)
    (known : ∀ v ∈ x.operands, v.index < t.size) :
    (Operation.type x).Asks u y ↔ y = t.resolve x := by
  by_cases hmatrix : ∃ v count, x = .matrix v count
  · obtain ⟨v, count, rfl⟩ := hmatrix
    have hfloat : u.IsFloatVector v ↔ t.IsFloatVector v :=
      ⟨.of_longer wf h (known v List.mem_cons_self), .mono h⟩
    rw [resolve]
    by_cases hv : t.IsFloatVector v
    · rw [if_pos (isFloatVector_iff.2 hv)]
      constructor
      · rintro (_ | hnot)
        · rfl
        · exact absurd (hfloat.2 hv) hnot
      · rintro rfl
        refine .type fun w count' heq => ?_
        cases heq
        exact hfloat.2 hv
    · rw [if_neg (mt isFloatVector_iff.1 hv)]
      constructor
      · rintro (hcolumns | _)
        · exact absurd (hfloat.1 (hcolumns _ _ rfl)) hv
        · rfl
      · rintro rfl
        exact .columns (mt hfloat.1 hv)
  · have hresolve : t.resolve x = x := by
      cases x <;> first | rfl | exact absurd ⟨_, _, rfl⟩ hmatrix
    rw [hresolve]
    constructor
    · rintro (_ | _)
      · rfl
      · exact absurd ⟨_, _, rfl⟩ hmatrix
    · rintro rfl
      exact .type fun v count heq => absurd ⟨v, count, heq⟩ hmatrix

/-! ### The buffers -/

section Buffers

variable {r : TypeTable} {bits : UInt32} {signed writable : Bool} {stride : Option UInt32}

/-- Interning an integer gives that integer. -/
lemma shape?_of_intern_integer (h : t.intern (.integer bits signed) = (a, r)) :
    r.shape? a = some (.integer bits signed) := by
  have hshape := shape?_intern_of_isScalar (t := t) (s := .integer bits signed) rfl
  rwa [h] at hshape

/-- Interning a runtime array of integers gives the one over the very same integers: what looks like
them is an integer type itself, and there is only one. -/
lemma Interned.shape?_of_intern_runtimeArray (ht : t.Interned)
    (hv : t.shape? v = some (.integer bits signed))
    (h : t.intern (.runtimeArray v stride) = (a, r)) :
    r.shape? a = some (.runtimeArray v stride) := by
  have known : ∀ w ∈ (Shape.runtimeArray v stride).operands, w.index < t.size := by
    simpa [Shape.operands] using shape?_lt hv
  have hgrows := (grows_of_intern h known).1
  have interned := hgrows.interned ht
  have hv' := shape?_mono hgrows.shapes_le hv
  obtain ⟨x, hx, key⟩ := ht.exists_sameKey_of_intern h known rfl .refl
  cases key with
  | runtimeArray element =>
    rename_i w
    rcases (alike_iff interned.wellFormed).1 element with rfl | ⟨y, z, hy, hz, hagrees⟩
    · exact hx
    · obtain rfl : Shape.integer bits signed = y := Option.some.inj (hv'.symm.trans hy)
      cases z <;> simp only [Shape.agrees.eq_def, Bool.false_eq_true, Bool.and_eq_true,
        beq_iff_eq] at hagrees
      obtain ⟨rfl, rfl⟩ := hagrees
      obtain rfl : v = w := interned.eq_of_sameKey hv' hz .integer
      exact hx

/-- The buffer of raw bytes is interned as a struct over the one array of words. -/
lemma Interned.exists_intern_byteAddressBuffer (ht : t.Interned) :
    ∃ r x, (t.Grows r ∧ t.Gains (fun y => !y.isStruct) r) ∧
      r.intern x = t.byteAddressBuffer writable ∧ (∀ v ∈ x.operands, v.index < r.size) ∧
        ∀ u, (t.byteAddressBuffer writable).2.Grows u →
          ∀ y, (Operation.byteAddressBuffer writable).Asks u y ↔ y = x := by
  rcases hword : t.intern (.integer 32 false) with ⟨word, t₁⟩
  rcases hwords : t₁.intern (.runtimeArray word (some 4)) with ⟨words, t₂⟩
  obtain ⟨hgrows₁, hlt₁⟩ := grows_of_intern hword (by simp [Shape.operands])
  obtain ⟨hgrows₂, hlt₂⟩ := grows_of_intern hwords (by simpa [Shape.operands] using hlt₁)
  have interned := hgrows₁.interned ht
  have word₁ := shape?_of_intern_integer hword
  have words₂ := interned.shape?_of_intern_runtimeArray word₁ hwords
  have word₂ := shape?_mono hgrows₂.shapes_le word₁
  have known : ∀ v ∈ (Shape.struct
      { fields := [{ type := words, name := some "", offset := some 0 }]
        name := if writable then "type.RWByteAddressBuffer" else "type.ByteAddressBuffer"
        readOnly := !writable
        interface := .storageBuffer }).operands, v.index < t₂.size := by
    simpa [Shape.operands] using hlt₂
  have gains : t.Gains (fun y => !y.isStruct) t₂ := by
    have gains₁ : t.Gains (fun y => !y.isStruct) (t.intern (.integer 32 false)).2 :=
      (Gains.refl t).intern rfl
    rw [hword] at gains₁
    have gains₂ : t.Gains (fun y => !y.isStruct) (t₁.intern (.runtimeArray word (some 4))).2 :=
      gains₁.intern rfl
    rwa [hwords] at gains₂
  refine ⟨t₂, _, ⟨hgrows₁.trans hgrows₂, gains⟩, ?_, known, ?_⟩
  · simp only [byteAddressBuffer, hword, hwords]
  · intro u hu y
    have hlater : t₂.Grows u := by
      refine .trans (Grows.refl.intern known) ?_
      simpa only [byteAddressBuffer, hword, hwords] using hu
    have hu' := hlater.interned (hgrows₂.interned interned)
    have word' := shape?_mono hlater.shapes_le word₂
    have words' := shape?_mono hlater.shapes_le words₂
    constructor
    · rintro ⟨⟩
      rename_i w ws hw hws
      obtain rfl : w = word := hu'.eq_of_sameKey hw word' .integer
      obtain rfl : ws = words := hu'.eq_of_sameKey hws words' (.refl rfl)
      rfl
    · rintro rfl
      exact .byteAddressBuffer word' words'

/-- The counter is interned as a struct over the one type of its number. -/
lemma Interned.exists_intern_counterBuffer (ht : t.Interned) :
    ∃ r x, (t.Grows r ∧ t.Gains (fun y => !y.isStruct) r) ∧ r.intern x = t.counterBuffer ∧
      (∀ v ∈ x.operands, v.index < r.size) ∧
        ∀ u, t.counterBuffer.2.Grows u → ∀ y, Operation.counterBuffer.Asks u y ↔ y = x := by
  rcases hint : t.intern (.integer 32 true) with ⟨int, t₁⟩
  obtain ⟨hgrows, hlt⟩ := grows_of_intern hint (by simp [Shape.operands])
  have int₁ := shape?_of_intern_integer hint
  have known : ∀ v ∈ (Shape.struct
      { fields := [{ type := int, name := some "counter", offset := some 0 }]
        name := "type.ACSBuffer.counter"
        interface := .storageBuffer }).operands, v.index < t₁.size := by
    simpa [Shape.operands] using hlt
  have gains : t.Gains (fun y => !y.isStruct) (t.intern (.integer 32 true)).2 :=
    (Gains.refl t).intern rfl
  rw [hint] at gains
  refine ⟨t₁, _, ⟨hgrows, gains⟩, ?_, known, ?_⟩
  · simp only [counterBuffer, hint]
  · intro u hu y
    have hlater : t₁.Grows u := by
      refine .trans (Grows.refl.intern known) ?_
      simpa only [counterBuffer, hint] using hu
    have hu' := hlater.interned (hgrows.interned ht)
    have int' := shape?_mono hlater.shapes_le int₁
    constructor
    · rintro ⟨⟩
      rename_i i hi
      obtain rfl : i = int := hu'.eq_of_sameKey hi int' .integer
      rfl
    · rintro rfl
      exact .counterBuffer int'

end Buffers

end TypeTable

namespace Store

variable {s s₁ s₂ t : Store} {op op' : Operation} {a b : TypeId}

/-! ### Requests in a compilation -/

/-- An operation that gives a type interns the one shape that it asks for, last of all, and no other
struct before. -/
lemma exists_gains_of_run (hs : s.Sound) (h : s.run op = .ok (.type a, t)) :
    ∃ r x, (s.types.Grows r ∧ s.types.Gains (fun y => !y.isStruct) r) ∧
      r.intern x = (a, t.types) ∧ (∀ v ∈ x.operands, v.index < r.size) ∧
        ∀ u, t.types.Grows u → ∀ y, op.Asks u y ↔ y = x := by
  cases effect_of_run h with
  | idle idles => cases idles
  | opened opens => cases opens
  | types grants =>
    cases grants with
    | @type x _ types known granted =>
      have hintern := (TypeTable.request_eq_ok granted).2
      refine ⟨s.types, s.types.resolve x, ⟨.refl, .refl _⟩, hintern, ?_, fun u hu y => ?_⟩
      · rwa [TypeTable.operands_resolve]
      · have hgrows : s.types.Grows u := (TypeTable.grows_request known granted).trans hu
        exact TypeTable.asks_type_iff hs.types.wellFormed hgrows.shapes_le known
    | byteAddressBuffer => exact hs.types.exists_intern_byteAddressBuffer
    | counterBuffer => exact hs.types.exists_intern_counterBuffer

lemma exists_intern_of_run (hs : s.Sound) (h : s.run op = .ok (.type a, t)) :
    ∃ r x, s.types.Grows r ∧ r.intern x = (a, t.types) ∧ (∀ v ∈ x.operands, v.index < r.size) ∧
      ∀ u, t.types.Grows u → ∀ y, op.Asks u y ↔ y = x := by
  obtain ⟨r, x, ⟨hgrows, -⟩, hintern⟩ := exists_gains_of_run hs h
  exact ⟨r, x, hgrows, hintern⟩

/-- The types that two operations give in one compilation, whatever happens between them, are the
same if and only if the operations ask for shapes of one family with equal keys.  In particular a
type that was asked for by an unresolved shape is not given again. -/
theorem Reachable.request_eq_iff_sameKey {ops : List Operation} {replies : List Reply}
    (hs : s.Reachable) (h : s.run op = .ok (.type a, s₁)) (hops : s₁.runAll ops = .ok (replies, s₂))
    (h' : s₂.run op' = .ok (.type b, t)) :
    (∃ x, op.Asks t.types x) ∧ (∃ y, op'.Asks t.types y) ∧
      ∀ x y, op.Asks t.types x → op'.Asks t.types y → (a = b ↔ t.types.SameKey x y) := by
  have sound₁ := (run_edits h).sound hs.sound
  have sound₂ := (runAll_edits hops).sound sound₁
  obtain ⟨r, x, hgrows, hintern, known, hasks⟩ := exists_intern_of_run hs.sound h
  obtain ⟨r', y, hgrows', hintern', known', hasks'⟩ := exists_intern_of_run sound₂ h'
  have hlater : s₁.types.Grows t.types := (runAll_edits hops).grows.trans (run_edits h').grows
  replace hasks := hasks _ hlater
  replace hasks' := hasks' _ .refl
  refine ⟨⟨x, (hasks x).2 rfl⟩, ⟨y, (hasks' y).2 rfl⟩, fun x' y' hx hy => ?_⟩
  obtain rfl := (hasks x').1 hx
  obtain rfl := (hasks' y').1 hy
  exact (hgrows.interned hs.sound.types).intern_eq_iff_sameKey (hgrows'.interned sound₂.types) known
    known' hintern ((runAll_edits hops).grows.trans hgrows') hintern'

/-- The same unresolved pointer is asked for twice. -/
def twinSession : List Operation :=
  [.type (.hybridPointer (.named "Texture2D") .functionLocal),
    .type (.hybridPointer (.named "Texture2D") .functionLocal)]

/-- The two unresolved pointers are two types that look alike.  The array over the one is given
again for the other, and each has pointers of its own. -/
theorem request_eq_iff_sameKey_of_twins : ∃ s s₁ s₂ t t' : Store, s.Reachable ∧
    s.run (.type (.array ⟨0⟩ 4 none)) = .ok (.type ⟨2⟩, s₁) ∧
    s₁.run (.type (.pointer ⟨0⟩ .functionLocal)) = .ok (.type ⟨3⟩, s₂) ∧
    s₂.run (.type (.array ⟨1⟩ 4 none)) = .ok (.type ⟨2⟩, t) ∧
    t.types.SameKey (.array ⟨0⟩ 4 none) (.array ⟨1⟩ 4 none) ∧
    s₂.run (.type (.pointer ⟨1⟩ .functionLocal)) = .ok (.type ⟨4⟩, t') ∧
    ¬ t'.types.SameKey (.pointer ⟨0⟩ .functionLocal) (.pointer ⟨1⟩ .functionLocal) := by
  obtain ⟨replies, s, hsession, hruns⟩ := exists_of_runAll {} twinSession
    (fun s => ((s.run (.type (.array ⟨0⟩ 4 none))).toOption.any fun p =>
      p.1 = .type ⟨2⟩ && (p.2.run (.type (.pointer ⟨0⟩ .functionLocal))).toOption.any fun q =>
        q.1 = .type ⟨3⟩ && (q.2.run (.type (.array ⟨1⟩ 4 none))).toOption.any (·.1 = .type ⟨2⟩) &&
          (q.2.run (.type (.pointer ⟨1⟩ .functionLocal))).toOption.any (·.1 = .type ⟨4⟩)) = true)
    (by decide +kernel)
  have reachable : s.Reachable := ⟨{}, twinSession, replies, hsession⟩
  simp only [Option.any_eq_true, Bool.and_eq_true, decide_eq_true_eq, Prod.exists] at hruns
  obtain ⟨_, s₁, hrun₁, rfl, _, s₂, hrun₂, ⟨rfl, _, t, hrun₃, rfl⟩, _, t', hrun₄, rfl⟩ := hruns
  have run₁ := eq_ok_of_toOption hrun₁
  have run₂ := eq_ok_of_toOption hrun₂
  have run₃ := eq_ok_of_toOption hrun₃
  have run₄ := eq_ok_of_toOption hrun₄
  have between : s₁.runAll [.type (.pointer ⟨0⟩ .functionLocal)] = .ok ([.type ⟨3⟩], s₂) := by
    simp [runAll, run₂, bind, Except.bind, pure, Except.pure]
  have nothing : s₂.runAll [] = .ok ([], s₂) := rfl
  have arrays := (reachable.request_eq_iff_sameKey run₁ between run₃).2.2 _ _
    (.type (by simp)) (.type (by simp))
  have pointers := ((reachable.run run₁).request_eq_iff_sameKey run₂ nothing run₄).2.2 _ _
    (.type (by simp)) (.type (by simp))
  refine ⟨s, s₁, s₂, t, t', reachable, run₁, run₂, run₃, arrays.1 rfl, run₄, ?_⟩
  rw [← pointers]
  decide

end Store

end ShaderTypes
