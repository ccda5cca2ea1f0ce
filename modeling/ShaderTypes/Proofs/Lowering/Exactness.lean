import Mathlib.Algebra.Ring.Nat
import Mathlib.Order.Bounds.Basic
import ShaderTypes.Proofs.Lowering.Layout

/-!
# Layouts that fit into words

Offsets and sizes are words and wrap around, and a fixed offset may move the layout back or forth.
`Lowering.spans` lays out the fields of a struct over the natural numbers.  If every field ends
within a word there, nothing wraps around: members and composite have the offsets and the size of
this layout.  The fields then tile the composite if none of them is fixed.

The loop is followed by `Lowering.Placement`, which says of members and fields alone how the one are
placed for the other.  So it cannot be lost later, and what else was said of the members when they
were made is kept as long as nothing but lowering sets sizes, `Store.Laying`.  Structs may be
described on request as well, as long as they are what the type is.
-/

namespace ShaderTypes

/-! ### Spans -/

/-- A stretch of bits. -/
structure Span where
  start : Nat
  length : Nat
deriving DecidableEq

namespace Span

/-- Where a stretch ends. -/
def finish (p : Span) : Nat :=
  p.start + p.length

/-- Stretches that lead from one place to another, each beginning where the one before it ends. -/
inductive Tiles : Nat → List Span → Nat → Prop
  | nil {place : Nat} : Tiles place [] place
  | cons {p : Span} {ps : List Span} {place : Nat} (tail : Tiles p.finish ps place) :
      Tiles p.start (p :: ps) place

variable {ps : List Span} {first last : Nat}

lemma Tiles.add_sum (h : Tiles first ps last) : first + (ps.map length).sum = last := by
  induction h with
  | nil => rfl
  | cons _ ih => rw [List.map_cons, List.sum_cons, ← Nat.add_assoc, ← finish, ih]

lemma Tiles.le_start (h : Tiles first ps last) : ∀ p ∈ ps, first ≤ p.start := by
  induction h with
  | nil => simp
  | @cons p _ _ _ ih =>
    refine List.forall_mem_cons.2 ⟨Nat.le_refl _, fun q hq => ?_⟩
    exact Nat.le_trans (Nat.le_add_right _ _) (ih q hq)

/-- No two of them have a bit in common. -/
lemma Tiles.pairwise (h : Tiles first ps last) : ps.Pairwise fun p q => p.finish ≤ q.start := by
  induction h with
  | nil => exact .nil
  | cons tail ih => exact .cons tail.le_start ih

end Span

/-- The bits that a member takes up. -/
def Debug.Member.span (d : Debug.Member) : Span :=
  ⟨d.offset.toNat, d.size.toNat⟩

/-- The largest of some numbers and a first one is the least bound for all of them. -/
lemma foldl_max_le_iff {ks : List Nat} {first bound : Nat} :
    ks.foldl max first ≤ bound ↔ first ≤ bound ∧ ∀ k ∈ ks, k ≤ bound := by
  induction ks generalizing first with
  | nil => simp
  | cons k ks ih => rw [List.foldl_cons, ih, Nat.max_le, List.forall_mem_cons, and_assoc]

namespace Lowering

/-- What a field takes up over the natural numbers: it begins where it is fixed, or else at
`next`. -/
def fieldSpan (bits : TypeId → Nat) (next : Nat) (field : Field) : Span :=
  ⟨(field.offset.map fun bytes => 8 * bytes.toNat).getD next, bits field.type⟩

/-- The layout of fields over the natural numbers, where what is not fixed begins where the field
before it ends, and the first at `next`. -/
def spans (bits : TypeId → Nat) : Nat → List Field → List Span
  | _, [] => []
  | next, field :: fields =>
    fieldSpan bits next field :: spans bits (fieldSpan bits next field).finish fields

/-- Members placed for fields one after the other, with the extents before and after them. -/
inductive Placement : Extent → List Field → List Debug.Member → Extent → Prop
  | nil {extent : Extent} : Placement extent [] [] extent
  | cons {field : Field} {fields : List Field} {d : Debug.Member} {ds : List Debug.Member}
      {extent extent' : Extent} (offset : d.offset = extent.offset field.offset)
      (tail : Placement (extent.place d.offset d.size) fields ds extent') :
      Placement extent (field :: fields) (d :: ds) extent'

variable {bits : TypeId → Nat} {next : Nat} {field : Field} {fields : List Field}
  {d : Debug.Member} {ds : List Debug.Member} {extent extent' : Extent}

/-- A member takes up what its field does over the natural numbers, if that ends within a word. -/
lemma span_eq (offset : d.offset = extent.offset field.offset)
    (size : bits field.type = d.size.toNat)
    (fit : (fieldSpan bits extent.next.toNat field).finish < UInt32.size) :
    d.span = fieldSpan bits extent.next.toNat field := by
  rw [Debug.Member.span, fieldSpan, size, offset, Store.toNat_offset, Field.fixedOffset?,
    Span.mk.injEq]
  refine ⟨?_, rfl⟩
  rcases hoffset : field.offset with _ | bytes
  · rfl
  · rw [Span.finish, fieldSpan, hoffset] at fit
    exact Nat.mod_eq_of_lt (Nat.lt_of_le_of_lt (Nat.le_add_right _ _) fit)

/-- Members are placed as the fields are over the natural numbers, if these end within a word: the
extent has come as far as the fields have. -/
lemma Placement.spans_eq (h : Placement extent fields ds extent')
    (sizes : List.Forall₂ (fun field d => bits field.type = d.size.toNat) fields ds)
    (fit : ∀ p ∈ spans bits extent.next.toNat fields, p.finish < UInt32.size) :
    ds.map Debug.Member.span = spans bits extent.next.toNat fields ∧
      extent'.size.toNat = ((ds.map Debug.Member.span).map Span.finish).foldl max
        extent.size.toNat := by
  induction h with
  | nil => exact ⟨rfl, rfl⟩
  | @cons field fields d ds extent extent' offset _ ih =>
    obtain ⟨size, sizes⟩ := List.forall₂_cons.1 sizes
    rw [spans, List.forall_mem_cons] at fit
    have span := span_eq offset size fit.1
    rw [← span] at fit
    have finish : (d.offset + d.size).toNat = d.span.finish := by
      rw [UInt32.toNat_add]
      exact Nat.mod_eq_of_lt fit.1
    have next : (extent.place d.offset d.size).next.toNat = d.span.finish := finish
    rw [next] at ih
    obtain ⟨spans, size⟩ := ih sizes fit.2
    rw [Extent.toNat_size_place, finish] at size
    exact ⟨by rw [Lowering.spans, ← span, List.map_cons, spans], size⟩

/-- Fields that are not fixed follow one another without gaps. -/
lemma tiles_spans (free : ∀ field ∈ fields, field.offset = none) :
    Span.Tiles next (spans bits next fields)
      (((spans bits next fields).map Span.finish).foldl max next) := by
  induction fields generalizing next with
  | nil => exact .nil
  | cons field fields ih =>
    obtain ⟨first, free⟩ := List.forall_mem_cons.1 free
    have start : (fieldSpan bits next field).start = next := by
      rw [fieldSpan, first]
      rfl
    have later : next ≤ (fieldSpan bits next field).finish := by
      rw [Span.finish, start]
      exact Nat.le_add_right _ _
    rw [spans, List.map_cons, List.foldl_cons, Nat.max_eq_right later]
    have tiles := Span.Tiles.cons (p := fieldSpan bits next field) (ih free)
    rwa [start] at tiles

end Lowering

namespace Store

/-- Nodes that stand for the members of a record one by one.  Those that stand for data fields are
members and say `ds`. -/
inductive Holds (s : Store) : List Decl.Member → List NodeId → List Debug.Member → Prop
  | nil : Holds s [] [] []
  | method {decl : Decl.Method} {members : List Decl.Member} {m : NodeId} {ms : List NodeId}
      {ds : List Debug.Member} (tail : Holds s members ms ds) :
      Holds s (.method decl :: members) (m :: ms) ds
  | field {decl : Decl.Field} {members : List Decl.Member} {m : NodeId} {ms : List NodeId}
      {d : Debug.Member} {ds : List Debug.Member} (member : s.nodes.entry? m = some (.member d))
      (tail : Holds s members ms ds) : Holds s (.field decl :: members) (m :: ms) (d :: ds)

/-- The members of a composite for a struct and its record, as far as its layout goes. -/
structure Lays (s : Store) (struct : Struct) (record : Decl.Record) (size : UInt32)
    (ms : List NodeId) (ds : List Debug.Member) : Prop where
  holds : s.Holds (Lowering.keptMembers record.members) ms ds
  types : List.Forall₂ (fun field d => s.resolve? field.type = some d.type ∧
    d.size = s.nodes.sizeInBits d.type) (struct.keptFields record) ds
  placed : ∃ next, Lowering.Placement {} (struct.keptFields record) ds ⟨next, size⟩

/-- Every struct with a record that is listed has a composite, which is laid out.  It has no other
members if composites are `closed`, and has more behind them otherwise. -/
def Laying (closed : Prop) (s : Store) : Prop :=
  ∀ {a : TypeId} {struct : Struct} {record : Decl.Record} {n : NodeId},
    s.types.shape? a = some (.struct struct) → struct.record = some record →
    s.debugType? a = some n → ∃ c ms ds, s.nodes.entry? n = some (.composite c) ∧
      ms <+: c.members ∧ (closed → c.members = ms) ∧ s.Lays struct record c.size ms ds

/-- A later store in which composites have the sizes that they had, and in which what was listed
since is depicted. -/
structure Furthers (closed : Prop) (s t : Store) : Prop where
  grows : s.types.Grows t.types
  keeps : s.Keeps True closed t
  listed : ∀ {key : Option TypeId} {n : NodeId},
    s.debugTypes.get? key = some n → t.debugTypes.get? key = some n
  depicted : ListsDepicted s t

/-- Whether an operation describes a struct on request, as the struct and the record that the type
is. -/
def describesAsIs (s : Store) : Operation → Bool
  | .lowerComposite _ a struct record =>
    s.types.shape? a = some (.struct struct) && struct.record = some record
  | _ => false

/-- Whether an operation leaves the debug types to lowering, and the sizes of composites with them.
Structs may be described on request, as what they are.  If `pushes` says so, more members may be
pushed to composites. -/
def leavesLayouts (pushes : Bool) (s : Store) (op : Operation) : Bool :=
  s.describesAsIs op || op.leavesDebugTypes && !op.setsSize && (pushes || !op.addsMembers)

/-- The size in bits of the debug type that lowering gives for a type. -/
def loweredBits (s : Store) (b : BuilderId) (a : TypeId) : Nat :=
  ((ShaderTypes.lower b a s).toOption.map fun r => (r.2.nodes.sizeInBits r.1).toNat).getD 0

/-- The type of a field is lowered to the debug type of a member, which is of its size. -/
def LowersTo (s : Store) (b : BuilderId) (field : Field) (d : Debug.Member) : Prop :=
  (∃ t, ShaderTypes.lower b field.type s = .ok (d.type, t)) ∧
    s.loweredBits b field.type = d.size.toNat

/-- The layout of a struct over the natural numbers, with the sizes that its fields are lowered
to. -/
def exactSpans (s : Store) (b : BuilderId) (struct : Struct) (record : Decl.Record) : List Span :=
  Lowering.spans (s.loweredBits b) 0 (struct.keptFields record)

variable {s t : Store} {a : TypeId} {n : NodeId} {b : BuilderId} {op : Operation} {reply : Reply}
  {struct : Struct} {record : Decl.Record} {tag : Debug.CompositeTag} {size : UInt32}
  {slots : List Lowering.Slot} {members : List Decl.Member} {low : Nat}
  {extent extent' : Lowering.Extent} {ms : List NodeId} {ds : List Debug.Member}
  {fixed closed : Prop} {pushes : Bool}

/-! ### What is new -/

/-- What is depicted is laid out. -/
lemma Populates.exists_holds (h : s.Populates n slots low extent ms extent') :
    ∃ ds, s.Holds (slots.map Lowering.Slot.member) ms ds ∧
      List.Forall₂ (fun field d => s.resolve? field.type = some d.type ∧
        d.size = s.nodes.sizeInBits d.type) (slots.filterMap Lowering.Slot.field?) ds ∧
      Lowering.Placement extent (slots.filterMap Lowering.Slot.field?) ds extent' := by
  induction h with
  | nil => exact ⟨[], .nil, .nil, .nil⟩
  | method _ _ ih =>
    obtain ⟨ds, holds, types, placed⟩ := ih
    exact ⟨ds, .method holds, types, placed⟩
  | data _ described _ _ member _ ih =>
    obtain ⟨ds, holds, types, placed⟩ := ih
    exact ⟨_ :: ds, .field member holds, .cons ⟨described, rfl⟩ types, .cons rfl placed⟩

lemma Depicts.exists_lays {e : Debug.Entry} (hd : s.Depicts (.struct struct) n e)
    (made : struct.record = some record) :
    ∃ c ds, e = .composite c ∧ s.Lays struct record c.size c.members ds := by
  cases hd with
  | basic basic => cases basic
  | built _ builds => cases builds
  | @composite _ record' _ _ _ _ _ extent made' _ _ aligned filled =>
    obtain rfl : record' = record := Option.some.inj (made'.symm.trans made)
    obtain ⟨ds, holds, types, placed⟩ := filled.exists_holds
    rw [aligned.members] at holds
    rw [aligned.fields] at types placed
    exact ⟨_, ds, rfl, holds, types, extent.next, placed⟩

/-! ### What was there before -/

lemma Holds.of_keeps (h : s.Holds members ms ds) (after : s.Keeps fixed closed t) :
    t.Holds members ms ds := by
  induction h with
  | nil => exact .nil
  | method _ ih => exact .method ih
  | field member _ ih => exact .field (after.entry?_eq member rfl) ih

lemma Holds.eq_nil (h : s.Holds members [] ds) : members = [] := by
  cases h
  rfl

lemma Lays.of_furthers (h : s.Lays struct record size ms ds) (sound : s.Sound)
    (after : s.Furthers closed t) : t.Lays struct record size ms ds where
  holds := h.holds.of_keeps after.keeps
  types := h.types.imp fun _ _ ⟨resolved, size⟩ => by
    refine ⟨resolve?_mono after.grows.shapes_le after.listed resolved, ?_⟩
    rw [size, after.keeps.sizeInBits_eq trivial (sound.resolve?_lt resolved)]
  placed := h.placed

lemma Laying.of_furthers (hs : s.Laying closed) (regular : s.Regular)
    (after : s.Furthers closed t) : t.Laying closed := by
  intro a struct record n hx made ha
  rcases hold : s.debugType? a with _ | m
  · obtain ⟨x, e, hx', he, hd⟩ := after.depicted.typed ha hold
    obtain rfl : x = .struct struct := Option.some.inj (hx'.symm.trans hx)
    obtain ⟨c, ds, rfl, lays⟩ := hd.exists_lays made
    exact ⟨c, c.members, ds, he, List.prefix_refl _, fun _ => rfl, lays⟩
  · obtain rfl : m = n := Option.some.inj ((after.listed hold).symm.trans ha)
    obtain ⟨x, hx', -⟩ := regular.described hold
    obtain rfl : x = .struct struct :=
      Option.some.inj ((TypeTable.shape?_mono after.grows.shapes_le hx').symm.trans hx)
    obtain ⟨c, ms, ds, hc, more, all, lays⟩ := hs hx' made hold
    have lays' := lays.of_furthers regular.sound after
    obtain ⟨e, he, retains⟩ := after.keeps m _ hc
    cases retains with
    | same => exact ⟨c, ms, ds, he, more, all, lays'⟩
    | composite size members more' =>
      rw [← size trivial] at lays'
      exact ⟨_, ms, ds, he, more.trans more', fun h => (members h).trans (all h), lays'⟩

lemma Furthers.regular (after : s.Furthers closed t) (hs : s.Regular) (sound : t.Sound) :
    t.Regular where
  sound := sound
  described := by
    intro a n ha
    rcases hold : s.debugType? a with _ | m
    · obtain ⟨x, e, hx, -, hd⟩ := after.depicted.typed ha hold
      exact ⟨x, hx, hd.isDescribed⟩
    · obtain ⟨x, hx, described⟩ := hs.described hold
      exact ⟨x, TypeTable.shape?_mono after.grows.shapes_le hx, described⟩

/-! ### What permitted operations do -/

lemma furthers_of_extends (after : s.Extends t) (depicted : ListsDepicted s t) :
    s.Furthers closed t where
  grows := after.types
  keeps := keeps_of_extends after
  listed := after.get?_debugTypes
  depicted := depicted

lemma openComposite_of_listed (ha : s.debugType? a = some n) :
    Lowering.openComposite s a struct record tag = (n, (s.openFile record.location.file).2) := by
  rw [Lowering.openComposite_eq]
  refine keyedNode_of_get? ?_
  rwa [debugTypes_openFile]

/-- A composite that is laid out without members has the size of an empty layout. -/
lemma Lays.eq_nil (h : s.Lays struct record size [] ds)
    (aligned : Lowering.Aligns record struct slots) : slots = [] ∧ size = 0 := by
  obtain ⟨holds, -, next, placed⟩ := h
  have none : slots = [] := by
    rw [← List.map_eq_nil_iff (f := Lowering.Slot.member), aligned.members]
    exact holds.eq_nil
  rw [← aligned.fields, none] at placed
  cases placed
  exact ⟨none, rfl⟩

/-- Describing a struct on request that is listed already leaves the composite as it is.  If this
one is filled again it has no members, and has the size of an empty layout as before. -/
lemma furthers_of_listed (hs : s.Laying closed) (hx : s.types.shape? a = some (.struct struct))
    (made : struct.record = some record) (ha : s.debugType? a = some n) {m : NodeId}
    (h : Lowering.Composing (Lowering.Depicting b a) b a struct record s m t) :
    s.Furthers closed t := by
  have entries {m e} (he : s.nodes.entry? m = some e) :
      (s.openFile record.location.file).2.nodes.entry? m = some e :=
    Debug.NodeTable.entry?_mono nodes_le_openFile he
  have opened {r : Store} (types : r.types = (s.openFile record.location.file).2.types)
      (debugTypes : r.debugTypes = (s.openFile record.location.file).2.debugTypes)
      (entries : ∀ {m e}, s.nodes.entry? m = some e → r.nodes.entry? m = some e) :
      s.Furthers closed r := by
    rw [types_openFile] at types
    rw [debugTypes_openFile] at debugTypes
    refine ⟨?_, keeps_of_entries entries, fun hn => ?_, .of_debugTypes_eq debugTypes⟩
    · rw [types]
      exact .refl
    · rwa [debugTypes]
  cases h with
  | found =>
    rw [openComposite_of_listed ha]
    exact opened rfl rfl entries
  | @filled tag c extent r htag hc members fault slots =>
    rw [openComposite_of_listed ha] at hc slots ⊢
    obtain ⟨c', ms, ds, hc', more, -, lays⟩ := hs hx made ha
    obtain rfl : c' = c := by
      simpa using (entries hc').symm.trans (Debug.NodeTable.composite?_eq_some.1 hc)
    rw [List.isEmpty_iff] at members
    rw [members, List.prefix_nil] at more
    subst more
    obtain ⟨none, size⟩ := lays.eq_nil (Lowering.aligns_pair fault)
    rw [none] at slots
    cases slots with
    | nil =>
      refine opened rfl rfl fun {l e} he => ?_
      by_cases hl : l = n
      · subst hl
        obtain rfl : e = .composite c' := Option.some.inj (he.symm.trans hc')
        rw [entry?_setSize_self (entries hc')]
        change some (Debug.Entry.composite { c' with size := 0 }) = _
        rw [← size]
      · exact (entry?_modifyNode_of_ne hl).trans (entries he)

/-- Describing a struct on request as what it is. -/
lemma furthers_of_lowerComposite (hs : s.Laying closed) (regular : s.Regular)
    (hx : s.types.shape? a = some (.struct struct)) (made : struct.record = some record)
    (h : ShaderTypes.lowerComposite b a struct record s = .ok (n, t)) : s.Furthers closed t := by
  have composing := composing_of_lowerComposite h regular hx
  rcases first : s.debugType? a with _ | m
  · have changes := changes_of_composing composing hx made first
    exact furthers_of_extends (extends_of_changes changes)
      (composing.listsDepicted regular made first hx).2
  · exact furthers_of_listed hs hx made first composing

lemma furthers_of_run (hs : s.Laying (pushes = false)) (regular : s.Regular)
    (permitted : s.leavesLayouts pushes op = true) (hrun : s.run op = .ok (reply, t)) :
    s.Furthers (pushes = false) t := by
  rcases Bool.or_eq_true_iff.1 permitted with asIs | leaves
  · cases op with
    | lowerComposite b a struct record =>
      rw [describesAsIs, Bool.and_eq_true, decide_eq_true_eq, decide_eq_true_eq] at asIs
      obtain ⟨-, -, hperform⟩ := run_eq_ok hrun
      obtain ⟨n, -, hlower⟩ := perform_lowerComposite_eq_ok hperform
      exact furthers_of_lowerComposite hs regular asIs.1 asIs.2 hlower
    | _ => cases asIs
  · simp only [Bool.and_eq_true, Bool.or_eq_true, Bool.not_eq_true'] at leaves
    obtain ⟨⟨leaves, sizes⟩, members⟩ := leaves
    cases tending_of_run leaves hrun with
    | beside h =>
      refine ⟨h.grows, h.keeps.imp (fun _ => sizes) (fun closed => ?_), fun hn => ?_,
        .of_debugTypes_eq h.debugTypes⟩
      · simpa [closed] using members
      · rwa [h.debugTypes]
    | lower h => exact furthers_of_extends (extends_lower h) (listsDepicted_lower h regular)
    | walk h =>
      exact furthers_of_extends (extends_of_walk h) (listsDepicted_of_walk h regular).1

/-- Composites are laid out in every session that leaves layouts to lowering. -/
lemma ReachedBy.laying (h : s.ReachedBy (leavesLayouts pushes)) :
    s.Regular ∧ s.Laying (pushes = false) := by
  induction h with
  | new options =>
    refine ⟨⟨(reachable_new options).sound, fun ha => (by cases ha)⟩, ?_⟩
    intro a struct record n _ _ ha
    cases ha
  | run _ permitted hrun ih =>
    obtain ⟨regular, laying⟩ := ih
    have after := furthers_of_run laying regular permitted hrun
    have sound := (run_edits hrun).sound regular.sound
    exact ⟨after.regular regular sound, laying.of_furthers regular after⟩

/-! ### Exact layouts -/

lemma Regular.loweredBits_eq (hs : s.Regular) (ha : s.resolve? a = some n) (b : BuilderId) :
    (∃ t, ShaderTypes.lower b a s = .ok (n, t)) ∧
      s.loweredBits b a = (s.nodes.sizeInBits n).toNat := by
  obtain ⟨t, hlower⟩ := lower_of_found? ((hs.found?_eq_resolve? a).trans ha) b
  have after : s.Keeps True True t := keeps_of_extends (extends_lower hlower)
  refine ⟨⟨t, hlower⟩, ?_⟩
  rw [loweredBits, hlower, ← after.sizeInBits_eq trivial (hs.sound.resolve?_lt ha)]
  rfl

/-- The sizes of the members are those that the fields are lowered to.  If the exact layout fits
into words, the members take up what their fields do there, and the composite as much as is
needed. -/
lemma Lays.spans_eq (h : s.Lays struct record size ms ds) (hs : s.Regular) (b : BuilderId) :
    List.Forall₂ (s.LowersTo b) (struct.keptFields record) ds ∧
      ((∀ p ∈ s.exactSpans b struct record, p.finish < UInt32.size) →
        ds.map Debug.Member.span = s.exactSpans b struct record ∧
        size.toNat = ((ds.map Debug.Member.span).map Span.finish).foldl max 0) := by
  have lowered : List.Forall₂ (s.LowersTo b) (struct.keptFields record) ds :=
    h.types.imp fun field d ⟨resolved, size⟩ => by
      rw [LowersTo, size]
      exact hs.loweredBits_eq resolved b
  refine ⟨lowered, fun fit => ?_⟩
  obtain ⟨next, placed⟩ := h.placed
  exact placed.spans_eq (lowered.imp fun _ _ h => h.2) fit

/-- If the debug types and the sizes of composites are left to lowering, every struct with a record
that is no enumeration is laid out exactly where this is possible.  It has a composite, which lists
a node for each of the members that count, and for the data fields among them members of the types
and the sizes that their fields are lowered to.  If the layout of the fields over the natural
numbers fits into words, the members are where the fields are in that layout, and the size of the
composite is that of the layout, which is the least one that covers all members.  If moreover no
field is fixed, the members follow one another without gaps from the beginning to the end of the
composite, so that no two of them overlap and their sizes sum up to its size.

The composite lists nothing else, unless more members are pushed to it. -/
theorem ReachedBy.layout_exact (h : s.ReachedBy (leavesLayouts pushes))
    (hrun : s.run op = .ok (reply, t))
    (asked : (∃ b, op = .lower b a) ∨ ∃ b, op = .lowerComposite b a struct record)
    (hx : s.types.shape? a = some (.struct struct)) (made : struct.record = some record)
    (enum : record.isEnum = false) (b : BuilderId) :
    ∃ (n : NodeId) (c : Debug.Composite) (ms : List NodeId) (ds : List Debug.Member),
      reply = .node n ∧ t.nodes.entry? n = some (.composite c) ∧
      ms <+: c.members ∧ (pushes = false → c.members = ms) ∧
      t.Holds (Lowering.keptMembers record.members) ms ds ∧
      List.Forall₂ (t.LowersTo b) (struct.keptFields record) ds ∧
      ((∀ p ∈ t.exactSpans b struct record, p.finish < UInt32.size) →
        ds.map Debug.Member.span = t.exactSpans b struct record ∧
        c.size.toNat = ((t.exactSpans b struct record).map Span.finish).foldl max 0 ∧
        IsLeast {bound | ∀ d ∈ ds, d.span.finish ≤ bound} c.size.toNat ∧
        ((∀ field ∈ struct.keptFields record, field.offset = none) →
          Span.Tiles 0 (ds.map Debug.Member.span) c.size.toNat ∧
          (ds.map Debug.Member.span).Pairwise (fun p q => p.finish ≤ q.start) ∧
          (ds.map (·.size.toNat)).sum = c.size.toNat)) := by
  have permitted : s.leavesLayouts pushes op = true := by
    rcases asked with ⟨b, rfl⟩ | ⟨b, rfl⟩
    · simp [leavesLayouts, Operation.leavesDebugTypes, Operation.setsSize, Operation.addsMembers]
    · simp [leavesLayouts, describesAsIs, hx, made]
  have hx' := TypeTable.shape?_mono (run_edits hrun).grows.shapes_le hx
  obtain ⟨n, rfl, hn⟩ := exists_node_of_run h.laying.1 hrun hx' made enum asked
  obtain ⟨regular, laying⟩ := (h.run permitted hrun).laying
  obtain ⟨c, ms, ds, hc, more, all, lays⟩ := laying hx' made hn
  obtain ⟨lowered, exact⟩ := lays.spans_eq regular b
  refine ⟨n, c, ms, ds, rfl, hc, more, all, lays.holds, lowered, fun fit => ?_⟩
  obtain ⟨spans, size⟩ := exact fit
  refine ⟨spans, by rw [size, spans], ?_, fun free => ?_⟩
  · rw [size]
    have bounds (bound : Nat) : ((ds.map Debug.Member.span).map Span.finish).foldl max 0 ≤ bound ↔
        ∀ d ∈ ds, d.span.finish ≤ bound := by
      simp [foldl_max_le_iff]
    exact ⟨(bounds _).1 (Nat.le_refl _), fun bound h => (bounds bound).2 h⟩
  · have tiles : Span.Tiles 0 (ds.map Debug.Member.span) c.size.toNat := by
      rw [size, spans]
      exact Lowering.tiles_spans free
    have sum := tiles.add_sum
    rw [Nat.zero_add, List.map_map] at sum
    exact ⟨tiles, tiles.pairwise, sum⟩

/-- A record with two numbers. -/
def pairRecord : Decl.Record where
  id := ⟨0⟩
  name := "Pair"
  keyword := .structKeyword
  location := ⟨"a.hlsl", 1, 1⟩
  members :=
    [.field { id := ⟨0⟩, name := "a", location := ⟨"a.hlsl", 2, 3⟩ },
      .field { id := ⟨1⟩, name := "b", location := ⟨"a.hlsl", 3, 3⟩ }]

/-- Its struct, in which no field is fixed. -/
def pairStruct : Struct where
  name := "Pair"
  fields := [{ type := ⟨0⟩ }, { type := ⟨0⟩ }]
  record := some pairRecord

/-- A record with a method between its data fields, the first of which it declares twice. -/
def movedRecord : Decl.Record where
  id := ⟨1⟩
  name := "Moved"
  keyword := .structKeyword
  location := ⟨"a.hlsl", 5, 1⟩
  members :=
    [.field { id := ⟨2⟩, name := "x", location := ⟨"a.hlsl", 6, 3⟩ },
      .method { id := ⟨0⟩, name := "f", location := ⟨"a.hlsl", 7, 3⟩ },
      .field { id := ⟨2⟩, name := "x", location := ⟨"a.hlsl", 6, 3⟩ },
      .field { id := ⟨3⟩, name := "p", location := ⟨"a.hlsl", 8, 3⟩ },
      .field { id := ⟨4⟩, name := "y", location := ⟨"a.hlsl", 9, 3⟩ }]

/-- Its struct.  The first field is moved away from the beginning and the last one back to it. -/
def movedStruct : Struct where
  name := "Moved"
  fields :=
    [{ type := ⟨0⟩, offset := some 16 }, { type := ⟨0⟩, offset := some 64 }, { type := ⟨1⟩ },
      { type := ⟨0⟩, offset := some 0 }]
  record := some movedRecord

/-- The function of the method is saved, and neither struct is described yet. -/
def movedSession : List Operation :=
  [.openFile "a.hlsl",
    .function
      { name := "f", site := ⟨⟨0⟩, 7, 3⟩, parent := ⟨1⟩, linkageName := "f", flags := .isPublic
        scopeLine := 7, type := none },
    .saveFunction ⟨0⟩ ⟨2⟩, .type (.integer 32 false), .type (.struct pairStruct),
    .type (.struct movedStruct)]

/-- The members of the one struct are at 128, behind it at 160, and at 0, and the second of them
ends last.  The other struct, which is described along with it and then on request, is filled by its
members. -/
theorem layout_exact_of_moved : ∃ (s t u : Store) (n m : NodeId) (c d : Debug.Composite)
    (ds es : List Debug.Member), s.ReachedBy (leavesLayouts false) ∧
    s.run (.lower ⟨0⟩ ⟨2⟩) = .ok (.node n, t) ∧ t.nodes.entry? n = some (.composite c) ∧
    ds.map Debug.Member.span = [⟨128, 32⟩, ⟨160, 64⟩, ⟨0, 32⟩] ∧ c.size.toNat = 224 ∧
    t.run (.lowerComposite ⟨0⟩ ⟨1⟩ pairStruct pairRecord) = .ok (.node m, u) ∧
    u.nodes.entry? m = some (.composite d) ∧ d.size.toNat = 64 ∧
    Span.Tiles 0 (es.map Debug.Member.span) 64 ∧ (es.map (·.size.toNat)).sum = 64 := by
  obtain ⟨replies, s, hsession, hx, hruns⟩ := exists_of_runAll {} movedSession
    (fun s => s.types.shape? ⟨2⟩ = some (.struct movedStruct) ∧
      ((s.run (.lower ⟨0⟩ ⟨2⟩)).toOption.any fun r =>
        r.2.exactSpans ⟨0⟩ movedStruct movedRecord = [⟨128, 32⟩, ⟨160, 64⟩, ⟨0, 32⟩] &&
        r.2.types.shape? ⟨1⟩ = some (.struct pairStruct) &&
        (r.2.run (.lowerComposite ⟨0⟩ ⟨1⟩ pairStruct pairRecord)).toOption.any fun r' =>
          r'.2.exactSpans ⟨0⟩ pairStruct pairRecord = [⟨0, 32⟩, ⟨32, 32⟩]) = true)
    (by decide +kernel)
  obtain ⟨⟨_, t⟩, hlower, hchecked⟩ := (Option.any_eq_true _ _).1 hruns
  simp only [Bool.and_eq_true, decide_eq_true_eq] at hchecked
  obtain ⟨⟨moved, hx'⟩, hruns⟩ := hchecked
  obtain ⟨⟨_, u⟩, hcomposite, hchecked⟩ := (Option.any_eq_true _ _).1 hruns
  have pair := of_decide_eq_true hchecked
  have hlower := eq_ok_of_toOption hlower
  have hcomposite := eq_ok_of_toOption hcomposite
  have hs : s.ReachedBy (leavesLayouts false) :=
    ReachedBy.runAll (.new {}) (by decide +kernel) hsession
  have ht : t.ReachedBy (leavesLayouts false) := hs.run rfl hlower
  obtain ⟨n, c, -, ds, rfl, hc, -, -, -, -, exact⟩ :=
    hs.layout_exact hlower (.inl ⟨_, rfl⟩) hx rfl rfl ⟨0⟩
  obtain ⟨m, d, -, es, rfl, hd, -, -, -, -, exact'⟩ :=
    ht.layout_exact hcomposite (.inr ⟨_, rfl⟩) hx' rfl rfl ⟨0⟩
  obtain ⟨spans, size, -, -⟩ := exact (by rw [moved]; decide)
  obtain ⟨-, size', -, tiles⟩ := exact' (by rw [pair]; decide)
  obtain ⟨tiles, -, sum⟩ := tiles (by decide)
  rw [moved] at spans size
  rw [pair] at size'
  rw [size'] at tiles sum
  exact ⟨s, t, u, n, m, c, d, ds, es, hs, hlower, hc, spans, size, hcomposite, hd, size', tiles,
    sum⟩

end Store

end ShaderTypes
