import ShaderTypes.Proofs.Lowering.Bits

/-!
# The layout of a composite

What lowering says about a struct can be told from the struct and its record, as it is written here
without the loop that makes it.  Of the members that count the composite lists the function saved for
each method and a new member for each data field, in the order of `Lowering.keptMembers`.  A member
goes where its field is fixed, or else where the member before it ends, and the composite is as large
as the largest end.

`Store.LaysOut` says this of one composite.  It follows from `Store.Populates` slot by slot, so that
nothing more has to be known about lowering than that what it lists is depicted.
-/

namespace ShaderTypes

/-- The offset in bits at which a field is fixed. -/
def Field.fixedOffset? (field : Field) : Option Nat :=
  field.offset.map fun bytes => 8 * bytes.toNat % UInt32.size

namespace Debug

/-- Where a member ends, in bits. -/
def Member.finish (d : Member) : Nat :=
  (d.offset.toNat + d.size.toNat) % UInt32.size

/-- Where the member at a place goes if it is not fixed: behind the one before it, and at `next` if
there is none. -/
def followingOffset (next : Nat) (ds : List Member) : Nat → Nat
  | 0 => next
  | i + 1 => (ds[i]?.map Member.finish).getD next

end Debug

namespace Store

/-- What the member of a composite says that was made for a data field and the struct field it
takes.  Its offset is left out. -/
structure Renders (s : Store) (composite : NodeId) (decl : Decl.Field) (field : Field)
    (d : Debug.Member) : Prop where
  name : d.name = field.name.getD decl.name
  type : ∀ b, ∃ t, lower b field.type s = .ok (d.type, t)
  site : ∃ file, s.files.get? decl.location.file = some file ∧
    d.site = ⟨file.source, decl.location.line, decl.location.column⟩
  parent : d.parent = composite
  size : d.size = s.nodes.sizeInBits d.type
  flags : d.flags = .visibility decl.isPrivate
  value : s.Evaluates decl.value d.value

/-- The nodes that stand for members of a record: the function that is saved for a method, and the
next of the nodes that were made for a data field. -/
inductive Arranges (s : Store) : List Decl.Member → List NodeId → List NodeId → Prop
  | nil : Arranges s [] [] []
  | method {decl : Decl.Method} {members : List Decl.Member} {f : NodeId} {made ms : List NodeId}
      (saved : s.function? decl.id = some f) (tail : Arranges s members made ms) :
      Arranges s (.method decl :: members) made (f :: ms)
  | field {decl : Decl.Field} {members : List Decl.Member} {m : NodeId} {made ms : List NodeId}
      (tail : Arranges s members made ms) :
      Arranges s (.field decl :: members) (m :: made) (m :: ms)

/-- The nodes `ms` stand for the members of a record.  The nodes `made` among them were made one
after the other from the index `low` on, and say `ds`: one for each of the data fields with the
struct fields that they take, placed from the offset `next` on. -/
structure LaysOut (s : Store) (composite : NodeId) (low next : Nat) (members : List Decl.Member)
    (pairs : List (Decl.Field × Field)) (ms made : List NodeId) (ds : List Debug.Member) :
    Prop where
  arranged : s.Arranges members made ms
  fields : members.filterMap Decl.Member.field? = pairs.map Prod.fst
  entries : made.map s.nodes.entry? = ds.map fun d => some (.member d)
  new : ∀ m ∈ made, low ≤ m.index
  increasing : made.Pairwise fun m m' => m.index < m'.index
  described : List.Forall₂ (fun p d => s.Renders composite p.1 p.2 d) pairs ds
  placed : ∀ (i : Nat) (p : Decl.Field × Field) (d : Debug.Member), pairs[i]? = some p →
    ds[i]? = some d → d.offset.toNat = p.2.fixedOffset?.getD (Debug.followingOffset next ds i)

end Store

namespace Store

variable {s t : Store} {a : TypeId} {n m : NodeId} {b : BuilderId} {op : Operation} {reply : Reply}
  {struct : Struct} {record : Decl.Record} {low next : Nat}

/-! ### From slots to layouts -/

section Slots

variable {members : List Decl.Member} {pairs : List (Decl.Field × Field)} {ms made : List NodeId}
  {ds : List Debug.Member} {slots : List Lowering.Slot} {extent extent' : Lowering.Extent}

lemma LaysOut.method {decl : Decl.Method} {f : NodeId} (saved : s.function? decl.id = some f)
    (h : s.LaysOut n low next members pairs ms made ds) :
    s.LaysOut n low next (.method decl :: members) pairs (f :: ms) made ds :=
  { h with arranged := .method saved h.arranged }

/-- One more member in front.  Those behind it are placed where it ends. -/
lemma LaysOut.cons {decl : Decl.Field} {field : Field} {d : Debug.Member} (hlow : low ≤ m.index)
    (hm : s.nodes.entry? m = some (.member d)) (renders : s.Renders n decl field d)
    (hoffset : d.offset.toNat = field.fixedOffset?.getD next)
    (h : s.LaysOut n (m.index + 1) d.finish members pairs ms made ds) :
    s.LaysOut n low next (.field decl :: members) ((decl, field) :: pairs) (m :: ms) (m :: made)
      (d :: ds) where
  arranged := .field h.arranged
  fields := by
    rw [List.map_cons, ← h.fields]
    rfl
  entries := by rw [List.map_cons, List.map_cons, hm, h.entries]
  new := by
    refine List.forall_mem_cons.2 ⟨hlow, fun l hl => ?_⟩
    exact Nat.le_trans hlow (Nat.le_of_succ_le (h.new l hl))
  increasing := List.pairwise_cons.2 ⟨h.new, h.increasing⟩
  described := .cons renders h.described
  placed := by
    rintro (_ | i) p e hp he
    · cases hp
      cases he
      exact hoffset
    · rw [h.placed i p e hp he]
      cases i with
      | zero => rfl
      | succ i =>
        -- Both count from the member before, which is there.
        rw [List.getElem?_cons_succ] at he
        have hi : i < ds.length := Nat.lt_of_succ_lt (List.getElem?_eq_some_iff.1 he).1
        simp [Debug.followingOffset, hi]

lemma toNat_offset {field : Field} :
    (extent.offset field.offset).toNat = field.fixedOffset?.getD extent.next.toNat := by
  rcases hoffset : field.offset with _ | bytes
  · simp [Field.fixedOffset?, Lowering.Extent.offset, hoffset]
  · simp [Field.fixedOffset?, Lowering.Extent.offset, hoffset, UInt32.toNat_mul, Nat.mul_comm]

/-- The members of a composite lay it out, and its size is the largest of their ends. -/
lemma Populates.exists_laysOut (h : s.Populates n slots low extent ms extent')
    (lowers : ∀ {u m}, s.resolve? u = some m → ∀ b, ∃ r, ShaderTypes.lower b u s = .ok (m, r)) :
    ∃ made ds, s.LaysOut n low extent.next.toNat (slots.map Lowering.Slot.member)
        (slots.filterMap Lowering.Slot.pair?) ms made ds ∧
      extent'.size.toNat = (ds.map Debug.Member.finish).foldl max extent.size.toNat := by
  induction h with
  | nil =>
    exact ⟨[], [], ⟨.nil, rfl, rfl, by simp, .nil, .nil, by simp⟩, rfl⟩
  | method saved _ ih =>
    obtain ⟨made, ds, hlays, hsize⟩ := ih
    exact ⟨made, ds, hlays.method saved, hsize⟩
  | @data _ _ _ _ _ _ m _ _ file _ hlow described located evaluated member _ ih =>
    obtain ⟨made, ds, hlays, hsize⟩ := ih
    refine ⟨m :: made, _ :: ds, hlays.cons hlow member ?_ toNat_offset, ?_⟩
    · exact ⟨rfl, lowers described, ⟨file, located, rfl⟩, rfl, rfl, rfl, evaluated⟩
    · rw [hsize, Lowering.Extent.toNat_size_place]
      rfl

end Slots

/-! ### What an operation lists -/

/-- What describing a struct on request does, if it is the struct that the type is. -/
lemma composing_of_lowerComposite (h : ShaderTypes.lowerComposite b a struct record s = .ok (n, t))
    (hs : s.Regular) (hx : s.types.shape? a = some (.struct struct)) :
    Lowering.Composing (Lowering.Depicting b a) b a struct record s n t := by
  refine (Lowering.composing_of_compositeWith h).mono fun decl field hslot r m r' hrun => ?_
  have hlt := hs.sound.types.wellFormed _ _ hx _ (Shape.mem_operands_of_mem_pair hslot)
  exact ⟨hlt, hrun, listsDepicted_lower hrun⟩

/-- A struct that is described for the first time is described without changing older nodes. -/
lemma changes_of_composing (composing : Lowering.Composing (Lowering.Depicting b a) b a struct record
    s n t) (hx : s.types.shape? a = some (.struct struct)) (made : struct.record = some record)
    (first : s.debugType? a = none) :
    Lowering.Changes b (Lowering.Listable (a.index + 1)) s.nodes.size s t := by
  have hkey : Lowering.Listable (a.index + 1) (s.openFile record.location.file).2 a := by
    refine ⟨Nat.lt_succ_self _, _, ?_, composing.isDescribed made⟩
    rwa [types_openFile]
  exact composing.changes (fun _ _ _ _ hu hbase => (hu.changes hbase).mono
    (fun _ _ hv => ⟨Nat.lt_succ_of_lt hv.1, hv.2⟩) (Nat.le_refl _)) (Nat.le_refl _)
    (composing.size_le first) hkey

/-- Whether an operation leaves the debug types to lowering, or describes the struct at `a` as what
it is. -/
def Describing (a : TypeId) (struct : Struct) (record : Decl.Record) (op : Operation) : Prop :=
  op.leavesDebugTypes = true ∨ ∃ b, op = .lowerComposite b a struct record

/-- A struct that is asked for is listed with the node that is given. -/
lemma exists_node_of_run (hs : s.Regular) (hrun : s.run op = .ok (reply, t))
    (hx : t.types.shape? a = some (.struct struct)) (made : struct.record = some record)
    (enum : record.isEnum = false)
    (asked : (∃ b, op = .lower b a) ∨ ∃ b, op = .lowerComposite b a struct record) :
    ∃ n, reply = .node n ∧ t.debugType? a = some n := by
  obtain ⟨htypes, -, hperform⟩ := run_eq_ok hrun
  rcases asked with ⟨b, rfl⟩ | ⟨b, rfl⟩
  · obtain ⟨n, rfl, hlower⟩ := perform_lower_eq_ok hperform
    refine ⟨n, rfl, ?_⟩
    have found := found?_of_lower hlower
    rcases hlisted : t.debugType? a with _ | m
    · rw [found?_of_shape? hlisted hx rfl] at found
      simp [Shape.isDescribed, made, enum] at found
    · exact (found?_of_debugType? hlisted).symm.trans found
  · obtain ⟨n, rfl, hlower⟩ := perform_lowerComposite_eq_ok hperform
    have known : a.index < s.types.size := htypes a (by simp [Operation.types, Operation.subjects])
    rw [TypeTable.shape?_eq_of_lt (lowerComposite_changes hlower).grows.shapes_le known] at hx
    exact ⟨n, rfl, (composing_of_lowerComposite hlower hs hx).debugType?⟩

section Run

variable (hs : s.LeftToLowering) (describing : Describing a struct record op)
  (hrun : s.run op = .ok (reply, t)) (hx : t.types.shape? a = some (.struct struct))
  (made : struct.record = some record)
include hs describing hrun hx made

/-- What an operation lists under the type of a struct is new and depicts the struct. -/
lemma exists_depicts_of_run (first : s.debugType? a = none) (hn : t.debugType? a = some n) :
    t.Regular ∧ s.nodes.size ≤ n.index ∧
      ∃ e, t.nodes.entry? n = some e ∧ t.Depicts (.struct struct) n e := by
  have depicts (listed : ListsDepicted s t) :
      ∃ e, t.nodes.entry? n = some e ∧ t.Depicts (.struct struct) n e := by
    obtain ⟨x, e, hx', he, hd⟩ := listed.typed hn first
    obtain rfl := Option.some.inj (hx'.symm.trans hx)
    exact ⟨e, he, hd⟩
  rcases describing with leaves | ⟨b, rfl⟩
  · have size_le (after : s.Extends t) : s.nodes.size ≤ n.index := by
      rcases after.debugType?_cases hn with hold | ⟨-, hnew, -⟩
      · cases first.symm.trans hold
      · exact hnew
    have regular := (hs.run leaves hrun).regular
    cases tending_of_run leaves hrun with
    | beside h =>
      rw [debugType?, h.debugTypes] at hn
      cases first.symm.trans hn
    | lower h =>
      exact ⟨regular, size_le (extends_lower h), depicts (listsDepicted_lower h hs.regular)⟩
    | walk h =>
      exact ⟨regular, size_le (extends_of_walk h), depicts (listsDepicted_of_walk h hs.regular).1⟩
  · obtain ⟨htypes, -, hperform⟩ := run_eq_ok hrun
    obtain ⟨m, -, hlower⟩ := perform_lowerComposite_eq_ok hperform
    have known : a.index < s.types.size := htypes a (by simp [Operation.types, Operation.subjects])
    rw [TypeTable.shape?_eq_of_lt (lowerComposite_changes hlower).grows.shapes_le known] at hx
    have composing := composing_of_lowerComposite hlower hs.regular hx
    obtain rfl : m = n := Option.some.inj (composing.debugType?.symm.trans hn)
    have changes := changes_of_composing composing hx made first
    exact ⟨hs.regular.of_changes changes, composing.size_le first,
      depicts (composing.listsDepicted hs.regular made first hx).2⟩

end Run

/-- A record with a method and a nested record between its data fields, the first of which it
declares twice. -/
def wrappedRecord : Decl.Record where
  id := ⟨0⟩
  name := "Wrapped"
  keyword := .structKeyword
  location := ⟨"a.hlsl", 1, 1⟩
  members :=
    [.field { id := ⟨0⟩, name := "x", location := ⟨"a.hlsl", 2, 3⟩ },
      .method { id := ⟨0⟩, name := "f", location := ⟨"a.hlsl", 3, 3⟩ },
      .field { id := ⟨0⟩, name := "x", location := ⟨"a.hlsl", 2, 3⟩ },
      .record ⟨1⟩,
      .field { id := ⟨1⟩, name := "y", location := ⟨"a.hlsl", 4, 3⟩ },
      .field { id := ⟨2⟩, name := "z", location := ⟨"b.hlsl", 1, 3⟩ }]

/-- Its struct.  The last field is fixed so far on that its offset wraps around to the beginning. -/
def wrappedStruct : Struct where
  name := "Wrapped"
  fields :=
    [{ type := ⟨0⟩, offset := some 16 }, { type := ⟨0⟩, offset := some 64 }, { type := ⟨0⟩ },
      { type := ⟨0⟩, offset := some 0x20000000 }]
  record := some wrappedRecord

/-- The function of the method is saved, and the struct is not described yet. -/
def wrappedSession : List Operation :=
  [.openFile "a.hlsl",
    .function
      { name := "f", site := ⟨⟨0⟩, 3, 3⟩, parent := ⟨1⟩, linkageName := "f", flags := .isPublic
        scopeLine := 3, type := none },
    .saveFunction ⟨0⟩ ⟨2⟩, .type (.integer 32 false), .type (.struct wrappedStruct)]

/-- The offset of the member at a node. -/
def memberOffset? (s : Store) (n : NodeId) : Option UInt32 :=
  ((s.nodes.entry? n).bind Debug.Entry.member?).map (·.offset)

end Store

end ShaderTypes
