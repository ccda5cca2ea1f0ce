import ShaderTypes.Proofs.Lowering.Alignment
import ShaderTypes.Proofs.Lowering.Membership

/-!
# Sizes follow the type

The size of a type in bits can be told from the type and the records that its structs were made
from, without any debug type: `TypeTable.bits` computes it by recursion on the type.  When the debug
types are left to lowering, the size that is read through the debug type of a type is this one.

Lowering reads sizes while it fills composites.  What it reads is the size that the node has in the
end, whatever was lowered before: a composite that is still being filled stands behind every type
whose size is read meanwhile.  The proof does not go along the recursion again.  What a lowering
lists is depicted in the end, and there the sizes are those of the types by induction on the type;
what was listed before keeps its size, unless the caller sets it.
-/

namespace ShaderTypes

/-- The fields of a struct that are laid out, given the record it was made from. -/
def Struct.keptFields (struct : Struct) (record : Decl.Record) : List Field :=
  (Lowering.firstOccurrences (record.dataFields.zip struct.fields)).map Prod.snd

/-- The ends of fields in bits, each placed at its own offset or else behind the one before, where
`next` is the end of the one before the first. -/
def Lowering.ends (bits : TypeId → UInt32) : UInt32 → List Field → List UInt32
  | _, [] => []
  | next, f :: fs =>
    ((f.offset.map (· * 8)).getD next + bits f.type) ::
      ends bits ((f.offset.map (· * 8)).getD next + bits f.type) fs

/-- The size of a type of this shape in bits, from the sizes of its operands.  Sizes are words and
wrap around. -/
def Shape.bits (operand : TypeId → UInt32) : Shape → UInt32
  | .bool => 32
  | .integer width _ | .float width => width
  | .vector u count | .array u count _ => operand u * count
  | .pointer u _ => operand u
  | .struct s =>
    match s.record with
    | some record =>
      if record.isEnum then 0
      else (Lowering.ends operand 0 (s.keptFields record)).foldl max 0
    | none => 0
  | _ => 0

/-- The size of a type in bits. -/
def TypeTable.bits (t : TypeTable) (a : TypeId) : UInt32 :=
  ((t.shape? a).map (Shape.bits fun u => if _h : u.index < a.index then t.bits u else 0)).getD 0
termination_by a.index

/-! ### The size of a type -/

namespace Lowering

lemma ends_congr {f g : TypeId → UInt32} {next : UInt32} {fields : List Field}
    (h : ∀ field ∈ fields, f field.type = g field.type) :
    ends f next fields = ends g next fields := by
  induction fields generalizing next with
  | nil => rfl
  | cons field fields ih =>
    obtain ⟨hfield, hfields⟩ := List.forall_mem_cons.1 h
    rw [ends, ends, hfield, ih hfields]

end Lowering

lemma Struct.mem_of_mem_keptFields {struct : Struct} {record : Decl.Record} {field : Field}
    (h : field ∈ struct.keptFields record) : field ∈ struct.fields := by
  obtain ⟨⟨decl, _⟩, hmem, rfl⟩ := List.mem_map.1 h
  exact (List.of_mem_zip (Lowering.mem_of_mem_firstOccurrences hmem)).2

/-- Only the sizes of the operands matter. -/
lemma Shape.bits_congr {f g : TypeId → UInt32} {x : Shape} (h : ∀ u ∈ x.operands, f u = g u) :
    x.bits f = x.bits g := by
  cases x with
  | vector => simp only [bits, h _ List.mem_cons_self]
  | array => simp only [bits, h _ List.mem_cons_self]
  | pointer => simp only [bits, h _ List.mem_cons_self]
  | struct struct =>
    have hends (record : Decl.Record) : Lowering.ends f 0 (struct.keptFields record) =
        Lowering.ends g 0 (struct.keptFields record) := by
      refine Lowering.ends_congr fun field hfield => h _ ?_
      exact List.mem_map.2 ⟨field, Struct.mem_of_mem_keptFields hfield, rfl⟩
    simp only [bits, hends]
  | _ => rfl

namespace TypeTable

variable {t t' : TypeTable} {a : TypeId} {x : Shape}

/-- The recursion of sizes, without its guard. -/
lemma bits_eq (wf : t.WellFormed) (hx : t.shape? a = some x) : t.bits a = x.bits t.bits := by
  rw [bits, hx, Option.map_some, Option.getD_some]
  exact Shape.bits_congr fun u hu => dif_pos (wf a x hx u hu)

/-- A type keeps its size when types are added. -/
lemma bits_eq_of_le (wf : t.WellFormed) (wf' : t'.WellFormed) (h : t.shapes <+: t'.shapes)
    (known : a.index < t.size) : t'.bits a = t.bits a := by
  induction a using TypeId.strongInduction with
  | _ a ih =>
  obtain ⟨x, hx⟩ := exists_shape? known
  rw [bits_eq wf hx, bits_eq wf' (shape?_mono h hx)]
  refine Shape.bits_congr fun u hu => ?_
  have hlt := wf a x hx u hu
  exact ih u hlt (Nat.lt_trans hlt known)

end TypeTable

/-- The size of a type without parts. -/
lemma Shape.bits_of_basic? {f : TypeId → UInt32} {x : Shape} {name : String} {width : UInt32}
    {encoding : Debug.Encoding} (h : x.basic? = some (name, width, encoding)) :
    x.bits f = width := by
  cases x with
  | bool => cases h; rfl
  | integer _ signed => cases signed <;> cases h <;> rfl
  | float => cases h; rfl
  | _ => cases h

/-- What cannot be described is of no size. -/
lemma Shape.bits_of_undescribed {f : TypeId → UInt32} {x : Shape}
    (described : x.isDescribed = false) (pointer : x.isPointer = false) : x.bits f = 0 := by
  cases x with
  | struct struct =>
    rw [isDescribed] at described
    rw [bits]
    rcases hrecord : struct.record with _ | record
    · rfl
    · simp_all
  | pointer => cases pointer
  | _ => first | rfl | cases described

/-! ### The fields that are laid out -/

namespace Lowering

/-- The struct field that a slot describes. -/
def Slot.field? (slot : Slot) : Option Field :=
  slot.pair?.map Prod.snd

lemma Aligns.fields {record : Decl.Record} {struct : Struct} {slots : List Slot}
    (h : Aligns record struct slots) :
    slots.filterMap Slot.field? = struct.keptFields record := by
  rw [Struct.keptFields, ← h.pairs, List.map_filterMap]
  rfl

end Lowering

/-! ### Sizes in the registry -/

lemma Debug.NodeTable.constantSize_ofNat (w : TypeId) (bits : UInt32) :
    constantSize ⟨w, .int (Int64.ofNat bits.toNat)⟩ = bits := by
  have hlt := bits.toNat_lt
  have hvalue : (Int64.ofNat bits.toNat).toInt = bits.toNat :=
    Int64.toInt_ofNat_of_lt (by omega)
  simp only [constantSize, hvalue]
  rw [if_pos (by omega), Int.toNat_natCast, UInt32.ofNat_toNat]

namespace Store

open Debug.NodeTable

/-- Whether an operation leaves the debug types and the sizes of composites to lowering. -/
def leavesSizes (_ : Store) (op : Operation) : Bool :=
  op.leavesDebugTypes && !op.setsSize

/-- Every data field among the slots has its member at its place, with the debug type of its type
and of the size of it. -/
def LaidOut (s : Store) (slots : List Lowering.Slot) (members : List NodeId) : Prop :=
  ∀ (i : Nat) (decl : Decl.Field) (field : Field), slots[i]? = some (.data decl field) →
    ∃ l d, members[i]? = some l ∧ s.nodes.entry? l = some (.member d) ∧
      s.resolve? field.type = some d.type ∧ d.size = s.nodes.sizeInBits d.type

/-- What is listed under a type is of the size of the type, with the members laid out if it is a
composite, and under no type there is the placeholder. -/
structure Sized (s : Store) : Prop where
  typed : ∀ {a : TypeId} {n : NodeId}, s.debugType? a = some n →
    s.nodes.sizeInBits n = s.types.bits a
  placeholder : ∀ {n : NodeId}, s.debugTypes.get? none = some n →
    s.nodes.entry? n = some placeholderEntry
  laidOut : ∀ {a : TypeId} {struct : Struct} {record : Decl.Record} {n : NodeId}
    {c : Debug.Composite}, s.types.shape? a = some (.struct struct) →
    struct.record = some record → s.debugType? a = some n →
    s.nodes.entry? n = some (.composite c) →
    ∃ slots, Lowering.Aligns record struct slots ∧ s.LaidOut slots c.members

variable {s t : Store} {a : TypeId} {n m d : NodeId} {b : BuilderId} {x : Shape} {e : Debug.Entry}
  {slots : List Lowering.Slot} {low : Nat} {extent extent' : Lowering.Extent} {ms ms' : List NodeId}
  {op : Operation} {fixed closed : Prop}

/-! ### What is new -/

/-- The members are laid out with the sizes of the types of the fields. -/
lemma Populates.size_eq (h : s.Populates n slots low extent ms extent')
    (sizes : ∀ decl field, .data decl field ∈ slots → ∀ d, s.resolve? field.type = some d →
      s.nodes.sizeInBits d = s.types.bits field.type) :
    extent'.size = (Lowering.ends s.types.bits extent.next
      (slots.filterMap Lowering.Slot.field?)).foldl max extent.size := by
  induction h with
  | nil => rfl
  | method _ _ ih =>
    exact ih fun decl field hslot => sizes decl field (List.mem_cons_of_mem _ hslot)
  | @data decl field _ _ extent _ _ type _ _ _ _ described _ _ _ _ ih =>
    have hsize := sizes decl field List.mem_cons_self type described
    have hoffset : extent.offset field.offset = (field.offset.map (· * 8)).getD extent.next := by
      rcases field.offset with _ | bytes <;> rfl
    rw [ih fun decl field hslot => sizes decl field (List.mem_cons_of_mem _ hslot), hsize, hoffset]
    rfl

lemma Populates.laidOut (h : s.Populates n slots low extent ms extent') : s.LaidOut slots ms := by
  induction h with
  | nil =>
    intro i decl field hslot
    cases hslot
  | method _ _ ih =>
    rintro (_ | i) decl field hslot
    · cases hslot
    · exact ih i decl field hslot
  | data _ described _ _ member _ ih =>
    rintro (_ | i) decl field hslot
    · cases hslot
      exact ⟨_, _, rfl, member, described, rfl⟩
    · exact ih i decl field hslot

/-- The debug type of a type is of its size, if those that are listed under types up to it are. -/
lemma sizeInBits_of_resolve? (wf : s.types.WellFormed)
    (typed : ∀ {u m}, u.index ≤ a.index → s.debugType? u = some m →
      s.nodes.sizeInBits m = s.types.bits u)
    (placeholder : ∀ {m}, s.debugTypes.get? none = some m →
      s.nodes.entry? m = some placeholderEntry) (h : s.resolve? a = some n) :
    s.nodes.sizeInBits n = s.types.bits a := by
  induction a using TypeId.strongInduction with
  | _ a ih =>
  rcases resolve?_cases h with ⟨p, c, hx, hp, hn⟩ | ⟨x, hx, pointer, hn⟩
  · rw [TypeTable.bits_eq wf hx]
    exact ih p hp (fun hu => typed (Nat.le_trans hu (Nat.le_of_lt hp))) hn
  cases described : x.isDescribed with
  | false =>
    simp only [described, Bool.false_eq_true, ↓reduceIte] at hn
    rw [TypeTable.bits_eq wf hx, Shape.bits_of_undescribed described pointer, sizeInBits,
      placeholder hn]
    rfl
  | true =>
    simp only [described, ↓reduceIte] at hn
    exact typed (Nat.le_refl _) hn

/-- What depicts a type is of the size of the type, if the debug types of its parts are of theirs
and stand before it. -/
lemma Depicts.sizeInBits_eq (hd : s.Depicts x n e) (he : s.nodes.entry? n = some e)
    (staged : s.Staged) (sizes : ∀ u ∈ x.operands, ∀ m, s.resolve? u = some m →
      s.nodes.sizeInBits m = s.types.bits u) :
    s.nodes.sizeInBits n = x.bits s.types.bits := by
  cases hd with
  | @basic _ _ _ bits _ w basic =>
    rw [Shape.bits_of_basic? basic, sizeInBits, he]
    exact constantSize_ofNat w bits
  | built resolved builds =>
    cases builds with
    | vector =>
      have older := (staged.uses he _ List.mem_cons_self).2
      have resolved := (List.cons.inj resolved).1
      rw [sizeInBits, he]
      simp only [dif_pos older, sizes _ List.mem_cons_self _ resolved, Shape.bits]
    | array =>
      have older := (staged.uses he _ List.mem_cons_self).2
      have resolved := (List.cons.inj resolved).1
      rw [sizeInBits, he]
      simp only [dif_pos older, sizes _ List.mem_cons_self _ resolved, Shape.bits,
        List.foldl_cons, List.foldl_nil]
    | procedure =>
      rw [sizeInBits, he]
      rfl
    | function =>
      rw [sizeInBits, he]
      rfl
  | composite made _ headed aligned filled =>
    have size := filled.size_eq fun decl field hslot m hm =>
      sizes _ (aligned.mem_operands hslot) m hm
    rw [aligned.fields] at size
    rw [sizeInBits_composite he, size, Shape.bits, made]
    simp only [headed.isEnum, Bool.false_eq_true, ↓reduceIte]

/-! ### What was there before -/

/-- Nodes keep their sizes unless these are set. -/
lemma Keeps.sizeInBits_eq (after : s.Keeps fixed closed t) (same : fixed)
    (hn : n.index < s.nodes.size) : t.nodes.sizeInBits n = s.nodes.sizeInBits n := by
  induction hi : n.index using Nat.strongRecOn generalizing n with
  | _ i ih =>
  subst hi
  obtain ⟨node, hnode⟩ := exists_node? hn
  have he := entry?_of_node? hnode
  obtain ⟨e', he', retains⟩ := after n _ he
  generalize node.entry = e at he retains
  cases retains with
  | same =>
    exact sizeInBits_congr he he' fun m _ hm => ih m.index hm (Nat.lt_trans hm hn) rfl
  | composite size => rw [sizeInBits_composite he, sizeInBits_composite he', size same]
  | template => rw [sizeInBits, sizeInBits, he, he']

/-- Members that are laid out stay so, and more may be listed behind them. -/
lemma LaidOut.of_keeps (h : s.LaidOut slots ms) (sound : s.Sound) (after : s.Keeps fixed closed t)
    (same : fixed) (more : ms <+: ms')
    (resolve : ∀ {u m}, s.resolve? u = some m → t.resolve? u = some m) : t.LaidOut slots ms' := by
  intro i decl field hslot
  obtain ⟨l, d, hl, hmember, hresolve, hsize⟩ := h i decl field hslot
  refine ⟨l, d, ?_, after.entry?_eq hmember rfl, resolve hresolve, ?_⟩
  · obtain ⟨rest, rfl⟩ := more
    rwa [List.getElem?_append_left (List.getElem?_eq_some_iff.1 hl).1]
  · rw [hsize, after.sizeInBits_eq same (sound.resolve?_lt hresolve)]

section Later

variable (hs : s.Sized) (regular : s.Regular) (after : s.Keeps fixed closed t) (same : fixed)
  (grows : s.types.Grows t.types)
  (listed : ∀ {key n}, s.debugTypes.get? key = some n → t.debugTypes.get? key = some n)
include hs regular after same grows

/-- What was listed is of the size of its type in a later store. -/
lemma Sized.sizeInBits_of_keeps (ha : s.debugType? a = some n) :
    t.nodes.sizeInBits n = t.types.bits a := by
  obtain ⟨x, hx, -⟩ := regular.described ha
  have interned := regular.sound.types
  rw [after.sizeInBits_eq same (regular.sound.lt_of_get? ha), hs.typed ha]
  exact (TypeTable.bits_eq_of_le interned.wellFormed (grows.interned interned).wellFormed
    grows.shapes_le (TypeTable.shape?_lt hx)).symm

include listed

/-- A composite that was listed is laid out in a later store. -/
lemma Sized.laidOut_of_keeps {struct : Struct} {record : Decl.Record} {c : Debug.Composite}
    (hx : t.types.shape? a = some (.struct struct)) (made : struct.record = some record)
    (ha : s.debugType? a = some n) (hc : t.nodes.entry? n = some (.composite c)) :
    ∃ slots, Lowering.Aligns record struct slots ∧ t.LaidOut slots c.members := by
  obtain ⟨x, hx', -⟩ := regular.described ha
  obtain rfl : x = .struct struct :=
    Option.some.inj ((TypeTable.shape?_mono grows.shapes_le hx').symm.trans hx)
  obtain ⟨c', hc', -, more⟩ := after.exists_composite (regular.sound.lt_of_get? ha) hc
  obtain ⟨slots, aligned, laidOut⟩ := hs.laidOut hx' made ha hc'
  exact ⟨slots, aligned, laidOut.of_keeps regular.sound after same more fun hm =>
    resolve?_mono grows.shapes_le listed hm⟩

omit listed

/-- Where the registry is left and no size is set, all stays of its size. -/
lemma Sized.of_keeps (debugTypes : t.debugTypes = s.debugTypes) : t.Sized where
  typed := by
    intro a n ha
    rw [debugType?, debugTypes] at ha
    exact hs.sizeInBits_of_keeps regular after same grows ha
  placeholder := after.entry?_placeholder debugTypes hs.placeholder
  laidOut := by
    intro a struct record n c hx made ha hc
    rw [debugType?, debugTypes] at ha
    exact hs.laidOut_of_keeps regular after same grows (fun hn => by rwa [debugTypes]) hx made ha hc

end Later

/-- What a lowering lists is of the size of its type. -/
lemma Sized.lower (hs : s.Sized) (regular : s.Regular) (staged : s.Staged)
    (h : lower b a s = .ok (n, t)) : t.Sized := by
  have after := extends_lower h
  have keeps : s.Keeps True True t := keeps_of_extends after
  have depicted := listsDepicted_lower h regular
  have wf := ((regular.of_changes (lower_changes h)).sound.types).wellFormed
  have staged' := (advances_of_lower h).1.staged staged
  have placeholder {n : NodeId} (hn : t.debugTypes.get? none = some n) :
      t.nodes.entry? n = some placeholderEntry :=
    depicted.entry?_placeholder after hs.placeholder hn
  refine ⟨fun {v n} hv => ?_, placeholder, fun {v struct record n c} hx made hv hc => ?_⟩
  · -- By induction on the type, since the debug types of the parts may be new as well.
    induction v using TypeId.strongInduction generalizing n with
    | _ v ih =>
    rcases hold : s.debugType? v with _ | n'
    · obtain ⟨x, e, hx, he, hd⟩ := depicted.typed hv hold
      rw [TypeTable.bits_eq wf hx]
      refine hd.sizeInBits_eq he staged' fun u hu m hm => ?_
      have hlt := wf v x hx u hu
      exact sizeInBits_of_resolve? wf (fun hle hm => ih _ (Nat.lt_of_le_of_lt hle hlt) hm)
        placeholder hm
    · obtain rfl : n' = n := Option.some.inj ((after.get?_debugTypes hold).symm.trans hv)
      exact hs.sizeInBits_of_keeps regular keeps trivial after.types hold
  · rcases hold : s.debugType? v with _ | n'
    · obtain ⟨x, e, hx', he, hd⟩ := depicted.typed hv hold
      obtain rfl := Option.some.inj (hx'.symm.trans hx)
      obtain rfl := Option.some.inj (he.symm.trans hc)
      cases hd with
      | built _ builds => cases builds
      | composite made' _ _ aligned filled =>
        obtain rfl := Option.some.inj (made'.symm.trans made)
        exact ⟨_, aligned, filled.laidOut⟩
    · obtain rfl : n' = n := Option.some.inj ((after.get?_debugTypes hold).symm.trans hv)
      exact hs.laidOut_of_keeps regular keeps trivial after.types after.get?_debugTypes hx made
        hold hc

lemma leavesDebugTypes_of_leavesSizes (leaves : s.leavesSizes op = true) :
    op.leavesDebugTypes = true :=
  (Bool.and_eq_true_iff.1 leaves).1

lemma ReachedBy.sized (h : s.ReachedBy leavesSizes) : s.Sized := by
  refine h.induction (P := Sized) leavesDebugTypes_of_leavesSizes (fun options => ?_)
    (fun regular leaves h hs => ?_) (fun regular h hs => ?_)
    (fun regular staged h hs => hs.lower regular staged h)
  · exact ⟨fun ha => (by cases ha), fun hn => (by cases hn), fun _ _ ha => (by cases ha)⟩
  · have same := (Bool.and_eq_true_iff.1 leaves).2
    exact hs.of_keeps regular h.keeps (by simpa using same) h.grows h.debugTypes
  · have keeps : Keeps True True _ _ := keeps_of_extends h.after
    exact hs.of_keeps regular keeps trivial h.after.types h.debugTypes

/-- What is lowered is a type in the table. -/
lemma Regular.lt_of_lower (hs : s.Regular) (h : lower b a s = .ok (n, t)) :
    a.index < s.types.size := by
  refine lower_induction (P := fun a s _ _ => s.Regular → a.index < s.types.size) ?_ h hs
  intro a s n t _ hstep hs
  cases hstep with
  | listed ha =>
    obtain ⟨x, hx, -⟩ := hs.described ha
    exact TypeTable.shape?_lt hx
  | pointer _ hx => exact TypeTable.shape?_lt hx
  | basic _ hx => exact TypeTable.shape?_lt hx
  | built _ hx => exact TypeTable.shape?_lt hx
  | composite _ hx => exact TypeTable.shape?_lt hx
  | placeholder _ hx => exact TypeTable.shape?_lt hx

/-- If the debug types and the sizes of composites are left to lowering, the debug type that
lowering gives for a type is of the size of the type, which follows from the type and the records of
its structs.  In every composite that is listed then, record and struct fit together, a data field
that is laid out has its member at its place, and the size that was read for the member is the size
of the field's type, which its debug type still has. -/
theorem ReachedBy.sizeInBits_eq_bits (h : s.ReachedBy leavesSizes)
    (hlower : ShaderTypes.lower b a s = .ok (n, t)) :
    t.nodes.sizeInBits n = s.types.bits a ∧
    ∀ (v : TypeId) (struct : Struct) (record : Decl.Record) (m : NodeId) (c : Debug.Composite),
      t.types.shape? v = some (.struct struct) → struct.record = some record →
      t.debugType? v = some m → t.nodes.entry? m = some (.composite c) →
      ∃ slots, Lowering.Aligns record struct slots ∧
      ∀ (i : Nat) (decl : Decl.Field) (field : Field), slots[i]? = some (.data decl field) →
      ∃ l d, c.members[i]? = some l ∧ t.nodes.entry? l = some (.member d) ∧
        t.resolve? field.type = some d.type ∧ d.size = t.nodes.sizeInBits d.type ∧
        d.size = t.types.bits field.type := by
  have left := h.leftToLowering leavesDebugTypes_of_leavesSizes
  have changes := lower_changes hlower
  have interned := left.regular.sound.types
  have interned' := (left.regular.of_changes changes).sound.types
  have sized := h.sized.lower left.regular left.staged hlower
  have size {u m} (hm : t.resolve? u = some m) : t.nodes.sizeInBits m = t.types.bits u :=
    sizeInBits_of_resolve? interned'.wellFormed (fun _ hu => sized.typed hu) sized.placeholder hm
  constructor
  · rw [size (left.regular.resolve?_of_lower hlower)]
    exact TypeTable.bits_eq_of_le interned.wellFormed interned'.wellFormed changes.grows.shapes_le
      (left.regular.lt_of_lower hlower)
  · intro v struct record m c hx made hv hc
    obtain ⟨slots, aligned, laidOut⟩ := sized.laidOut hx made hv hc
    refine ⟨slots, aligned, fun i decl field hslot => ?_⟩
    obtain ⟨l, d, hl, hmember, hresolve, hsize⟩ := laidOut i decl field hslot
    exact ⟨l, d, hl, hmember, hresolve, hsize, hsize.trans (size hresolve)⟩

/-- A struct with a number and an array of structs that is too large for a word of bits. -/
def hugeStruct : Struct where
  name := "Huge"
  fields := [{ type := ⟨0⟩ }, { type := ⟨2⟩ }]
  record := some
    { id := ⟨2⟩, name := "Huge", keyword := .structKeyword, location := ⟨"a.hlsl", 11, 1⟩
      members := [.field { id := ⟨6⟩, name := "n", location := ⟨"a.hlsl", 12, 3⟩ },
        .field { id := ⟨7⟩, name := "a", location := ⟨"a.hlsl", 13, 3⟩ }] }

/-- The types are made, and none of them is lowered yet. -/
def hugeSession : List Operation :=
  [.type (.integer 32 false), .type (.struct innerStruct), .type (.array ⟨1⟩ 0x4000001 none),
    .type (.struct hugeStruct)]

/-- The array wraps around to the size of one struct, and behind the number it ends at 96 bits. -/
theorem sizeInBits_eq_bits_of_huge : ∃ (s t : Store) (n : NodeId),
    s.ReachedBy leavesSizes ∧ lower ⟨0⟩ ⟨3⟩ s = .ok (n, t) ∧
    s.types.bits ⟨2⟩ = 64 ∧ t.nodes.sizeInBits n = 96 := by
  obtain ⟨replies, s, hsession, hlowers, harray, hstruct⟩ := exists_of_runAll {} hugeSession
    (fun s => (lower ⟨0⟩ ⟨3⟩ s).toOption.isSome = true ∧ s.types.bits ⟨2⟩ = 64 ∧
      s.types.bits ⟨3⟩ = 96) (by decide +kernel)
  have built : s.ReachedBy leavesSizes :=
    ReachedBy.runAll (.new {}) (by decide +kernel) hsession
  obtain ⟨⟨n, t⟩, hlower⟩ := Option.isSome_iff_exists.1 hlowers
  have hok := eq_ok_of_toOption hlower
  exact ⟨s, t, n, built, hok, harray, (built.sizeInBits_eq_bits hok).1.trans hstruct⟩

end Store

end ShaderTypes
