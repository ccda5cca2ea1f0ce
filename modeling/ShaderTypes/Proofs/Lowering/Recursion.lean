import ShaderTypes.Lowering.Basic
import ShaderTypes.Proofs.TypeTable.Likeness

/-!
# One level of lowering

A successful lowering is taken apart here once and for all.  `Lowering.Step` says what lowering a
type does to the store when its parts are lowered as a relation `R` says: one constructor for each
way the type can be described.  `lower_induction` is the principle that everything about lowering is
proved with: a relation that is closed under `Step` holds of every successful lowering.
-/

namespace ShaderTypes

/-! ### Kinds of types -/

/-- The name, the size in bits and the encoding of a type without parts. -/
def Shape.basic? : Shape → Option (String × UInt32 × Debug.Encoding)
  | .bool => some ("bool", 32, .boolean)
  | .integer bits true =>
    some (if bits = 32 then "int" else "int" ++ toString bits.toNat ++ "_t", bits, .signed)
  | .integer bits false =>
    some (if bits = 32 then "uint" else "uint" ++ toString bits.toNat ++ "_t", bits, .unsigned)
  | .float bits =>
    some (if bits = 32 then "float" else "float" ++ toString bits.toNat ++ "_t", bits, .float)
  | _ => none

/-- Whether the types of a shape have a debug type of their own. -/
def Shape.isDescribed : Shape → Bool
  | .bool | .integer .. | .float _ | .vector .. | .array .. | .function _ => true
  | .struct s => s.record.any (!·.isEnum)
  | _ => false

/-- Whether the shape is a pointer. -/
def Shape.isPointer : Shape → Bool
  | .pointer .. => true
  | _ => false

/-- The type of the field that a slot describes. -/
def Lowering.Slot.type? : Slot → Option TypeId
  | .method _ => none
  | .data _ field => some field.type

/-- The types that are described along with a type of the given shape, in order. -/
def TypeTable.parts (t : TypeTable) : Shape → List TypeId
  | .pointer u _ | .vector u _ | .array u _ _ => [u]
  | .function signature =>
    if t.has signature.result Shape.isVoid then signature.params
    else signature.result :: signature.params
  | .struct struct =>
    match struct.record with
    | some record =>
      if record.isEnum then []
      else (Lowering.pair record struct).slots.filterMap Lowering.Slot.type?
    | none => []
  | _ => []

/-- The fields of a struct that are described are among its operands. -/
lemma Shape.mem_operands_of_mem_pair {struct : Struct} {record : Decl.Record} {decl : Decl.Field}
    {field : Field} (h : .data decl field ∈ (Lowering.pair record struct).slots) :
    field.type ∈ (Shape.struct struct).operands :=
  List.mem_map.2 ⟨field, Lowering.mem_of_data_mem_pairFrom h, rfl⟩

/-- What the debug type of a vector, an array or a function says, given those of its parts. -/
inductive TypeTable.Builds (t : TypeTable) : Shape → List NodeId → Debug.Entry → Prop
  | vector {u : TypeId} {count : UInt32} {element : NodeId} :
      Builds t (.vector u count) [element] (.vector { element, count })
  | array {u : TypeId} {count : UInt32} {stride : Option UInt32} {element : NodeId} :
      Builds t (.array u count stride) [element] (.array { element, counts := [count] })
  | procedure {signature : Signature} {params : List NodeId}
      (void : t.has signature.result Shape.isVoid = true) :
      Builds t (.function signature) params
        (.functionType { flags := .isPublic, result := none, params })
  | function {signature : Signature} {result : NodeId} {params : List NodeId}
      (void : t.has signature.result Shape.isVoid = false) :
      Builds t (.function signature) (result :: params)
        (.functionType { flags := .isPublic, result := some result, params })

lemma Shape.isDescribed_of_basic? {x : Shape} (h : x.basic?.isSome = true) :
    x.isDescribed = true := by
  cases x <;> first | rfl | simp [basic?] at h

lemma TypeTable.Builds.isDescribed {t : TypeTable} {x : Shape} {nodes : List NodeId}
    {e : Debug.Entry} (h : t.Builds x nodes e) : x.isDescribed = true := by
  cases h <;> rfl

lemma TypeTable.Builds.type?_eq_none {t : TypeTable} {x : Shape} {nodes : List NodeId}
    {e : Debug.Entry} (h : t.Builds x nodes e) : e.type? = none := by
  cases h <;> rfl

/-! ### Successful computations -/

namespace Lower

variable {α β : Type} {s t : Store} {r : β}

/-- A sequence of computations succeeds when its parts do, one after the other. -/
lemma bind_eq_ok {x : Lower α} {f : α → Lower β} :
    (x >>= f) s = .ok (r, t) ↔ ∃ a s', x s = .ok (a, s') ∧ f a s' = .ok (r, t) := by
  change (x s >>= fun p => f p.1 p.2) = .ok (r, t) ↔ _
  cases x s with
  | error fault => simp [bind, Except.bind]
  | ok p =>
    constructor
    · exact fun h => ⟨p.1, p.2, rfl, h⟩
    · rintro ⟨a, s', hp, h⟩
      cases hp
      exact h

lemma map_eq_ok {x : Lower α} {f : α → β} :
    (f <$> x) s = .ok (r, t) ↔ ∃ a, x s = .ok (a, t) ∧ f a = r := by
  change (x s >>= fun p => .ok (f p.1, p.2)) = .ok (r, t) ↔ _
  cases x s with
  | error fault => simp [bind, Except.bind]
  | ok p =>
    constructor
    · rintro ⟨⟩
      exact ⟨p.1, rfl, rfl⟩
    · rintro ⟨a, hp, rfl⟩
      cases hp
      rfl

lemma pure_eq_ok {a : β} : (pure a : Lower β) s = .ok (r, t) ↔ a = r ∧ s = t := by
  change Except.ok (a, s) = .ok (r, t) ↔ _
  simp

lemma get_eq_ok {r : Store} : (get : Lower Store) s = .ok (r, t) ↔ s = r ∧ s = t := by
  change Except.ok (s, s) = .ok (r, t) ↔ _
  simp

lemma set_eq_ok {u : Store} {r : PUnit} : (set u : Lower PUnit) s = .ok (r, t) ↔ u = t := by
  change Except.ok (PUnit.unit, u) = .ok (r, t) ↔ _
  simp

lemma modify_eq_ok {f : Store → Store} {r : PUnit} :
    (modify f : Lower PUnit) s = .ok (r, t) ↔ f s = t := by
  change Except.ok (PUnit.unit, f s) = .ok (r, t) ↔ _
  simp

lemma modifyGet_eq_ok {f : Store → β × Store} :
    (modifyGet f : Lower β) s = .ok (r, t) ↔ f s = (r, t) := by
  change Except.ok (f s) = .ok (r, t) ↔ _
  simp

lemma throw_eq_ok {fault : Fault} : ¬ (throw fault : Lower β) s = .ok (r, t) := by
  change ¬ Except.error fault = .ok (r, t)
  simp

/-- A lifted result succeeds when it is one, and leaves the store as it is. -/
lemma lift_eq_ok {x : Except Fault β} :
    (liftM x : Lower β) s = .ok (r, t) ↔ x = .ok r ∧ s = t := by
  cases x with
  | error fault => change Except.error fault = .ok (r, t) ↔ _; simp
  | ok a => change Except.ok (a, s) = .ok (r, t) ↔ _; simp

end Lower

/-! ### The steps of a lowering -/

namespace Lowering

variable (R : TypeId → Store → NodeId → Store → Prop) (b : BuilderId)

/-- Types lowered one after the other. -/
inductive Chain : List TypeId → Store → List NodeId → Store → Prop
  | nil {s : Store} : Chain [] s [] s
  | cons {a : TypeId} {as : List TypeId} {n : NodeId} {ns : List NodeId} {s s' t : Store}
      (head : R a s n s') (tail : Chain as s' ns t) : Chain (a :: as) s (n :: ns) t

/-- The members of a composite made one after the other. -/
inductive Filling (composite : NodeId) : List Slot → Extent → Store → Extent → Store → Prop
  | nil {extent : Extent} {s : Store} : Filling composite [] extent s extent s
  | method {decl : Decl.Method} {slots : List Slot} {extent extent' : Extent} {function : NodeId}
      {s t : Store} (saved : s.function? decl.id = some function)
      (tail : Filling composite slots extent (s.pushMember composite function) extent' t) :
      Filling composite (.method decl :: slots) extent s extent' t
  | data {decl : Decl.Field} {field : Field} {slots : List Slot} {extent extent' : Extent}
      {type : NodeId} {s s' t : Store} (head : R field.type s type s')
      (tail : Filling composite slots (addMember b s' composite extent decl field type).1
        (addMember b s' composite extent decl field type).2 extent' t) :
      Filling composite (.data decl field :: slots) extent s extent' t

/-- The composite of a struct as it is before its members are made, or as it was found. -/
def openComposite (s : Store) (a : TypeId) (struct : Struct) (record : Decl.Record)
    (tag : Debug.CompositeTag) : NodeId × Store :=
  let (file, s) := s.openFile record.location.file
  s.compositeType a (heading struct record tag file) 0

/-- A struct described as a composite: one that has members is left as it is. -/
inductive Composing (a : TypeId) (struct : Struct) (record : Decl.Record) (s : Store) :
    NodeId → Store → Prop
  | found {tag : Debug.CompositeTag} {c : Debug.Composite} (htag : compositeTag record = .ok tag)
      (hc : (openComposite s a struct record tag).2.nodes.composite?
        (openComposite s a struct record tag).1 = some c)
      (members : c.members.isEmpty = false) :
      Composing a struct record s (openComposite s a struct record tag).1
        (openComposite s a struct record tag).2
  | filled {tag : Debug.CompositeTag} {c : Debug.Composite} {extent : Extent} {t : Store}
      (htag : compositeTag record = .ok tag)
      (hc : (openComposite s a struct record tag).2.nodes.composite?
        (openComposite s a struct record tag).1 = some c)
      (members : c.members.isEmpty = true) (fault : (pair record struct).fault = none)
      (slots : Filling R b (openComposite s a struct record tag).1 (pair record struct).slots {}
        (openComposite s a struct record tag).2 extent t) :
      Composing a struct record s (openComposite s a struct record tag).1
        (t.setSize (openComposite s a struct record tag).1 extent.size)

/-- One level of lowering. -/
inductive Step : TypeId → Store → NodeId → Store → Prop
  | listed {a : TypeId} {s : Store} {n : NodeId} (h : s.debugType? a = some n) : Step a s n s
  | pointer {a p : TypeId} {c : Storage} {s t : Store} {n : NodeId} (h : s.debugType? a = none)
      (hs : s.types.shape? a = some (.pointer p c)) (pointee : R p s n t) : Step a s n t
  | basic {a : TypeId} {s : Store} {shape : Shape} {name : String} {bits : UInt32}
      {encoding : Debug.Encoding} (h : s.debugType? a = none) (hs : s.types.shape? a = some shape)
      (hb : shape.basic? = some (name, bits, encoding)) :
      Step a s (basicType s a name bits encoding).1
        ((basicType s a name bits encoding).2.stamp (basicType s a name bits encoding).1 b)
  | built {a : TypeId} {s s' : Store} {shape : Shape} {nodes : List NodeId} {e : Debug.Entry}
      (h : s.debugType? a = none) (hs : s.types.shape? a = some shape)
      (parts : Chain R (s.types.parts shape) s nodes s') (he : s.types.Builds shape nodes e) :
      Step a s (s'.keyedNode (some a) e).1
        ((s'.keyedNode (some a) e).2.stamp (s'.keyedNode (some a) e).1 b)
  | composite {a : TypeId} {s t : Store} {struct : Struct} {record : Decl.Record} {n : NodeId}
      (h : s.debugType? a = none) (hs : s.types.shape? a = some (.struct struct))
      (hr : struct.record = some record) (composing : Composing R b a struct record s n t) :
      Step a s n (t.stamp n b)
  | placeholder {a : TypeId} {s : Store} {shape : Shape} (h : s.debugType? a = none)
      (hs : s.types.shape? a = some shape) (described : shape.isDescribed = false)
      (pointer : shape.isPointer = false) :
      Step a s (placeholder s).1 ((placeholder s).2.stamp (placeholder s).1 b)

section Monotone

variable {R b} {R' : TypeId → Store → NodeId → Store → Prop} {s t : Store} {a : TypeId} {n : NodeId}

lemma Filling.mono {slots : List Slot} {extent extent' : Extent}
    (hR : ∀ decl field, .data decl field ∈ slots → ∀ s n t,
      R field.type s n t → R' field.type s n t)
    (h : Filling R b n slots extent s extent' t) : Filling R' b n slots extent s extent' t := by
  induction h with
  | nil => exact .nil
  | method saved _ ih =>
    exact .method saved (ih fun decl field hslot => hR decl field (List.mem_cons_of_mem _ hslot))
  | data head _ ih =>
    refine .data (hR _ _ List.mem_cons_self _ _ _ head) (ih fun decl field hslot => ?_)
    exact hR decl field (List.mem_cons_of_mem _ hslot)

lemma Composing.mono {struct : Struct} {record : Decl.Record}
    (hR : ∀ decl field, .data decl field ∈ (pair record struct).slots → ∀ s n t,
      R field.type s n t → R' field.type s n t)
    (h : Composing R b a struct record s n t) : Composing R' b a struct record s n t := by
  cases h with
  | found htag hc members => exact .found htag hc members
  | filled htag hc members fault slots => exact .filled htag hc members fault (slots.mono hR)

variable (hR : ∀ a s n t, R a s n t → R' a s n t)
include hR

lemma Chain.mono {as : List TypeId} {ns : List NodeId} (h : Chain R as s ns t) :
    Chain R' as s ns t := by
  induction h with
  | nil => exact .nil
  | cons head _ ih => exact .cons (hR _ _ _ _ head) ih

lemma Step.mono (h : Step R b a s n t) : Step R' b a s n t := by
  cases h with
  | listed h => exact .listed h
  | pointer h hs pointee => exact .pointer h hs (hR _ _ _ _ pointee)
  | basic h hs hb => exact .basic h hs hb
  | built h hs parts he => exact .built h hs (parts.mono hR) he
  | composite h hs hr composing =>
    exact .composite h hs hr (composing.mono fun _ field _ => hR field.type)
  | placeholder h hs described pointer => exact .placeholder h hs described pointer

end Monotone

/-! ### From the computation to its steps -/

section Inversion

variable {b} {operand : TypeId → Lower NodeId} {s t : Store} {a : TypeId} {n : NodeId}

/-- What a way to lower operands does when it succeeds. -/
abbrev Ran (operand : TypeId → Lower NodeId) (a : TypeId) (s : Store) (n : NodeId) (t : Store) :
    Prop :=
  operand a s = .ok (n, t)

lemma chain_of_mapM {as : List TypeId} {ns : List NodeId}
    (h : as.mapM operand s = .ok (ns, t)) : Chain (Ran operand) as s ns t := by
  induction as generalizing s ns with
  | nil =>
    obtain ⟨rfl, rfl⟩ := Lower.pure_eq_ok.1 h
    exact .nil
  | cons a as ih =>
    rw [List.mapM_cons, Lower.bind_eq_ok] at h
    obtain ⟨m, s', hm, h⟩ := h
    obtain ⟨ms, s'', hms, h⟩ := Lower.bind_eq_ok.1 h
    obtain ⟨rfl, rfl⟩ := Lower.pure_eq_ok.1 h
    exact .cons hm (ih hms)

lemma filling_of_foldlM {record : String} {composite : NodeId} {slots : List Slot}
    {extent extent' : Extent}
    (h : slots.foldlM (addSlot b operand record composite) extent s = .ok (extent', t)) :
    Filling (Ran operand) b composite slots extent s extent' t := by
  induction slots generalizing s extent with
  | nil =>
    obtain ⟨rfl, rfl⟩ := Lower.pure_eq_ok.1 h
    exact .nil
  | cons slot slots ih =>
    rw [List.foldlM_cons, Lower.bind_eq_ok] at h
    obtain ⟨next, s', hslot, h⟩ := h
    cases slot with
    | method decl =>
      rw [addSlot, Lower.bind_eq_ok] at hslot
      obtain ⟨_, _, hget, hslot⟩ := hslot
      obtain ⟨rfl, rfl⟩ := Lower.get_eq_ok.1 hget
      cases hsaved : s.function? decl.id with
      | none =>
        rw [hsaved] at hslot
        exact absurd hslot Lower.throw_eq_ok
      | some function =>
        rw [hsaved] at hslot
        obtain ⟨_, _, hpush, hslot⟩ := Lower.bind_eq_ok.1 hslot
        obtain ⟨rfl, rfl⟩ := Lower.pure_eq_ok.1 hslot
        rw [Lower.modify_eq_ok] at hpush
        subst hpush
        exact .method hsaved (ih h)
    | data decl field =>
      rw [addSlot, Lower.bind_eq_ok] at hslot
      obtain ⟨type, s'', htype, hslot⟩ := hslot
      rw [Lower.modifyGet_eq_ok] at hslot
      have hfst : (addMember b s'' composite extent decl field type).1 = next := by rw [hslot]
      have hsnd : (addMember b s'' composite extent decl field type).2 = s' := by rw [hslot]
      subst hfst hsnd
      exact .data htype (ih h)

lemma composing_of_compositeWith {struct : Struct} {record : Decl.Record}
    (h : compositeWith b operand a struct record s = .ok (n, t)) :
    Composing (Ran operand) b a struct record s n t := by
  rw [compositeWith, Lower.bind_eq_ok] at h
  obtain ⟨tag, s₁, hlift, h⟩ := h
  obtain ⟨htag, rfl⟩ := Lower.lift_eq_ok.1 hlift
  obtain ⟨file, s₁, hfile, h⟩ := Lower.bind_eq_ok.1 h
  obtain ⟨m, s₂, hcomposite, h⟩ := Lower.bind_eq_ok.1 h
  rw [Lower.modifyGet_eq_ok] at hfile hcomposite
  have hopen : openComposite s a struct record tag = (m, s₂) := by
    rw [openComposite, hfile, ← hcomposite]
  obtain ⟨_, _, hget, h⟩ := Lower.bind_eq_ok.1 h
  obtain ⟨rfl, rfl⟩ := Lower.get_eq_ok.1 hget
  have hfst : (openComposite s a struct record tag).1 = m := by rw [hopen]
  have hsnd : (openComposite s a struct record tag).2 = s₂ := by rw [hopen]
  cases hc : s₂.nodes.composite? m with
  | none =>
    rw [hc] at h
    exact absurd h Lower.throw_eq_ok
  | some c =>
    rw [hc] at h
    subst hfst hsnd
    cases hmembers : c.members.isEmpty with
    | false =>
      simp only [hmembers, Bool.false_eq_true, ↓reduceIte, Lower.pure_eq_ok] at h
      obtain ⟨rfl, rfl⟩ := h
      exact .found htag hc hmembers
    | true =>
      simp only [hmembers, ↓reduceIte, Lower.bind_eq_ok, Lower.pure_eq_ok] at h
      obtain ⟨_, s₃, hpopulate, rfl, rfl⟩ := h
      rw [populate, Lower.bind_eq_ok] at hpopulate
      obtain ⟨extent, s₄, hslots, hpopulate⟩ := hpopulate
      cases hfault : (pair record struct).fault with
      | some fault =>
        rw [hfault] at hpopulate
        exact absurd hpopulate Lower.throw_eq_ok
      | none =>
        rw [hfault, Lower.modify_eq_ok] at hpopulate
        subst hpopulate
        exact .filled htag hc hmembers hfault (filling_of_foldlM hslots)

lemma isDescribed_of_compositeTag {struct : Struct} {record : Decl.Record}
    {tag : Debug.CompositeTag} (hr : struct.record = some record)
    (htag : compositeTag record = .ok tag) : (Shape.struct struct).isDescribed = true := by
  rw [Shape.isDescribed, hr]
  rw [compositeTag] at htag
  cases hkeyword : record.keyword <;> simp_all [Decl.Record.isEnum]

/-- What describing a type of a shape does, before the node is stamped. -/
lemma step_of_describe {shape : Shape} (h : s.debugType? a = none)
    (hs : s.types.shape? a = some shape) (pointer : shape.isPointer = false)
    (hd : describe b operand a shape s = .ok (n, t)) :
    Step (Ran operand) b a s n (t.stamp n b) := by
  -- Composites apart, a node is made in three ways; the cases only say which of them it is.
  have hplaceholder (hd : (modifyGet placeholder : Lower NodeId) s = .ok (n, t))
      (described : shape.isDescribed = false) : Step (Ran operand) b a s n (t.stamp n b) := by
    rw [Lower.modifyGet_eq_ok] at hd
    simpa only [hd] using Step.placeholder (R := Ran operand) (b := b) h hs described pointer
  have hbasic {name : String} {bits : UInt32} {encoding : Debug.Encoding}
      (hb : shape.basic? = some (name, bits, encoding))
      (hd : (modifyGet (basicType · a name bits encoding) : Lower NodeId) s = .ok (n, t)) :
      Step (Ran operand) b a s n (t.stamp n b) := by
    rw [Lower.modifyGet_eq_ok] at hd
    simpa only [hd] using Step.basic (R := Ran operand) (b := b) h hs hb
  have hbuilt {nodes : List NodeId} {e : Debug.Entry} {s' : Store}
      (parts : Chain (Ran operand) (s.types.parts shape) s nodes s')
      (he : s.types.Builds shape nodes e)
      (hd : (modifyGet (·.keyedNode (some a) e) : Lower NodeId) s' = .ok (n, t)) :
      Step (Ran operand) b a s n (t.stamp n b) := by
    rw [Lower.modifyGet_eq_ok] at hd
    simpa only [hd] using Step.built (b := b) h hs parts he
  cases shape with
  | bool => exact hbasic rfl hd
  | integer bits signed =>
    cases signed with
    | false => exact hbasic rfl hd
    | true => exact hbasic rfl hd
  | float bits => exact hbasic rfl hd
  | vector u count =>
    obtain ⟨element, s', hu, hd⟩ := Lower.bind_eq_ok.1 hd
    exact hbuilt (.cons hu .nil) .vector hd
  | array u count stride =>
    obtain ⟨element, s', hu, hd⟩ := Lower.bind_eq_ok.1 hd
    exact hbuilt (.cons hu .nil) .array hd
  | function signature =>
    rw [describe, functionType, Lower.bind_eq_ok] at hd
    obtain ⟨_, _, hget, hd⟩ := hd
    obtain ⟨rfl, rfl⟩ := Lower.get_eq_ok.1 hget
    cases hvoid : s.types.has signature.result Shape.isVoid with
    | true =>
      rw [if_pos hvoid] at hd
      obtain ⟨_, _, hresult, hd⟩ := Lower.bind_eq_ok.1 hd
      obtain ⟨rfl, rfl⟩ := Lower.pure_eq_ok.1 hresult
      obtain ⟨params, s₁, hparams, hd⟩ := Lower.bind_eq_ok.1 hd
      refine hbuilt ?_ (.procedure hvoid) hd
      simpa only [TypeTable.parts, hvoid, ↓reduceIte] using chain_of_mapM hparams
    | false =>
      rw [if_neg (by simp [hvoid])] at hd
      obtain ⟨_, s₁, hsome, hd⟩ := Lower.bind_eq_ok.1 hd
      obtain ⟨result, hresult, rfl⟩ := Lower.map_eq_ok.1 hsome
      obtain ⟨params, s₂, hparams, hd⟩ := Lower.bind_eq_ok.1 hd
      refine hbuilt ?_ (.function hvoid) hd
      simpa only [TypeTable.parts, hvoid, Bool.false_eq_true, ↓reduceIte] using
        Chain.cons hresult (chain_of_mapM hparams)
  | struct struct =>
    cases hr : struct.record with
    | none =>
      rw [describe, hr] at hd
      exact hplaceholder hd (by simp [Shape.isDescribed, hr])
    | some record =>
      cases henum : record.isEnum with
      | true =>
        simp only [describe, hr, henum, ↓reduceIte, enumType] at hd
        exact hplaceholder hd (by simp [Shape.isDescribed, hr, henum])
      | false =>
        simp only [describe, hr, henum, Bool.false_eq_true, ↓reduceIte] at hd
        exact .composite h hs hr (composing_of_compositeWith hd)
  | pointer => simp [Shape.isPointer] at pointer
  | void => exact hplaceholder hd rfl
  | matrix => exact hplaceholder hd rfl
  | runtimeArray => exact hplaceholder hd rfl
  | image => exact hplaceholder hd rfl
  | sampledImage => exact hplaceholder hd rfl
  | sampler => exact hplaceholder hd rfl
  | accelerationStructure => exact hplaceholder hd rfl
  | hybridPointer => exact hplaceholder hd rfl
  | hybridSampledImage => exact hplaceholder hd rfl
  | hybridStruct => exact hplaceholder hd rfl

lemma step_of_lowerWith (h : lowerWith b operand a s = .ok (n, t)) :
    Step (Ran operand) b a s n t := by
  rw [lowerWith, Lower.bind_eq_ok] at h
  obtain ⟨_, _, hget, h⟩ := h
  obtain ⟨rfl, rfl⟩ := Lower.get_eq_ok.1 hget
  cases hlisted : s.debugType? a with
  | some m =>
    rw [hlisted] at h
    obtain ⟨rfl, rfl⟩ := Lower.pure_eq_ok.1 h
    exact .listed hlisted
  | none =>
    cases hshape : s.types.shape? a with
    | none =>
      rw [hlisted, hshape] at h
      exact absurd h Lower.throw_eq_ok
    | some shape =>
      rw [hlisted, hshape] at h
      cases hpointer : shape.isPointer with
      | true =>
        cases shape <;> simp only [Shape.isPointer, Bool.false_eq_true] at hpointer
        exact .pointer hlisted hshape h
      | false =>
        -- All other shapes share one branch of the match.
        have h : (describe b operand a shape >>= fun n => do
            modify (·.stamp n b)
            return n : Lower NodeId) s = .ok (n, t) := by
          cases shape <;> first | exact h | simp [Shape.isPointer] at hpointer
        obtain ⟨m, s', hdescribe, h⟩ := Lower.bind_eq_ok.1 h
        obtain ⟨_, s'', hstamp, h⟩ := Lower.bind_eq_ok.1 h
        obtain ⟨rfl, rfl⟩ := Lower.pure_eq_ok.1 h
        rw [Lower.modify_eq_ok] at hstamp
        subst hstamp
        exact step_of_describe hlisted hshape hpointer hdescribe

end Inversion

end Lowering

/-- The lowering of a type that stands before `a`, of which `P` is known. -/
structure Lowering.Lowered (b : BuilderId) (P : TypeId → Store → NodeId → Store → Prop)
    (a u : TypeId) (s : Store) (n : NodeId) (t : Store) : Prop where
  lt : u.index < a.index
  run : lower b u s = .ok (n, t)
  kept : P u s n t

/-- What one step of lowering keeps holds of every successful lowering: a lowering is one step over
the lowerings of types that stand before it. -/
theorem lower_induction {b : BuilderId} {P : TypeId → Store → NodeId → Store → Prop}
    (step : ∀ a s n t, lower b a s = .ok (n, t) →
      Lowering.Step (Lowering.Lowered b P a) b a s n t → P a s n t)
    {a : TypeId} {s t : Store} {n : NodeId} (h : lower b a s = .ok (n, t)) : P a s n t := by
  induction a using TypeId.strongInduction generalizing s n t with
  | _ a ih =>
  refine step a s n t h ?_
  rw [lower] at h
  refine (Lowering.step_of_lowerWith h).mono ?_
  intro u s n t hu
  by_cases hlt : u.index < a.index
  · simp only [Lowering.Ran, dif_pos hlt] at hu
    exact ⟨hlt, hu, ih u hlt hu⟩
  · simp only [Lowering.Ran, dif_neg hlt] at hu
    exact absurd hu Lower.throw_eq_ok

end ShaderTypes
