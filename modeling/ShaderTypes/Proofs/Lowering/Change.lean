import ShaderTypes.Lowering.Pass
import ShaderTypes.Proofs.Lowering.Recursion
import ShaderTypes.Proofs.Store.Frame

/-!
# The changes that lowering makes

However deep its recursion goes, lowering changes the store in seven ways only.  `Lowering.Change`
lists them and `lower_changes` says that every successful lowering is a sequence of them, so that
whatever each of them keeps is kept by all of lowering.

The changes are counted from a moment at which there were `base` nodes.  Nodes that were there
already are not touched, but for the placeholder, which may be stamped again.
-/

namespace ShaderTypes

/-- Whether lowering interns types of the shape that nobody asked for: `void`, which is the result
type of instructions, and the types of constants. -/
def Shape.isIncidental : Shape → Bool
  | .void => true
  | .integer bits _ | .float bits => bits == 32
  | _ => false

lemma Shape.operands_of_isIncidental {x : Shape} (h : x.isIncidental = true) : x.operands = [] := by
  cases x <;> first | rfl | cases h

namespace Lowering

/-- The types below a bound that may get a debug type of their own. -/
def Listable (bound : Nat) (s : Store) (u : TypeId) : Prop :=
  u.index < bound ∧ ∃ x, s.types.shape? u = some x ∧ x.isDescribed = true

/-- One change of the store in the course of a lowering. -/
inductive Change (b : BuilderId) (keys : Store → TypeId → Prop) (base : Nat) (s : Store) :
    Store → Prop
  | internType {x : Shape} (incidental : x.isIncidental = true) :
      Change b keys base s (s.internType x).2
  | openFile (name : String) : Change b keys base s (s.openFile name).2
  | keyedNode {key : Option TypeId} {e : Debug.Entry} (allowed : ∀ u, key = some u → keys s u)
      (untyped : e.type? = none) : Change b keys base s (s.keyedNode key e).2
  | unkeyedNode {e : Debug.Entry} (untyped : e.type? = none) :
      Change b keys base s (s.unkeyedNode e).2
  | stamp {n : NodeId} (recent : base ≤ n.index ∨ s.debugTypes.get? none = some n) :
      Change b keys base s (s.stamp n b)
  | pushMember {n member : NodeId} (recent : base ≤ n.index) :
      Change b keys base s (s.pushMember n member)
  | setSize {n : NodeId} {size : UInt32} (recent : base ≤ n.index) :
      Change b keys base s (s.setSize n size)

/-- Changes one after the other. -/
inductive Changes (b : BuilderId) (keys : Store → TypeId → Prop) (base : Nat) (s : Store) :
    Store → Prop
  | refl : Changes b keys base s s
  | step {t u : Store} (h : Changes b keys base s t) (change : Change b keys base t u) :
      Changes b keys base s u

variable {b : BuilderId} {keys keys' : Store → TypeId → Prop} {base base' : Nat} {s t u : Store}
  {a : TypeId} {n : NodeId} {bound : Nat}

lemma Change.changes (h : Change b keys base s t) : Changes b keys base s t :=
  .step .refl h

lemma Changes.trans (h : Changes b keys base s t) (h' : Changes b keys base t u) :
    Changes b keys base s u := by
  induction h' with
  | refl => exact h
  | step _ change ih => exact ih.step change

/-- What every change keeps is kept by all of them together. -/
lemma Changes.induction {P : Store → Prop} (h : Changes b keys base s t) (start : P s)
    (step : ∀ s t, Change b keys base s t → P s → P t) : P t := by
  induction h with
  | refl => exact start
  | step _ change ih => exact step _ _ change ih

lemma Change.mono (hkeys : ∀ s u, keys s u → keys' s u) (hbase : base' ≤ base)
    (h : Change b keys base s t) : Change b keys' base' s t := by
  cases h with
  | internType incidental => exact .internType incidental
  | openFile name => exact .openFile name
  | keyedNode allowed untyped => exact .keyedNode (fun u hu => hkeys _ u (allowed u hu)) untyped
  | unkeyedNode untyped => exact .unkeyedNode untyped
  | stamp recent => exact .stamp (recent.imp_left (Nat.le_trans hbase))
  | pushMember recent => exact .pushMember (Nat.le_trans hbase recent)
  | setSize recent => exact .setSize (Nat.le_trans hbase recent)

/-- Fewer restrictions allow more changes. -/
lemma Changes.mono (hkeys : ∀ s u, keys s u → keys' s u) (hbase : base' ≤ base)
    (h : Changes b keys base s t) : Changes b keys' base' s t := by
  induction h with
  | refl => exact .refl
  | step _ change ih => exact ih.step (change.mono hkeys hbase)

/-! ### Growth -/

lemma Change.grows (h : Change b keys base s t) : s.types.Grows t.types := by
  have intern {x : Shape} (incidental : x.isIncidental = true) :
      s.types.Grows (s.types.intern x).2 :=
    TypeTable.Grows.refl.intern (by simp [Shape.operands_of_isIncidental incidental])
  cases h with
  | internType incidental => exact intern incidental
  | openFile => rw [Store.types_openFile]; exact .refl
  | keyedNode => rw [Store.types_keyedNode]; exact .refl
  | unkeyedNode => exact .refl
  | stamp => exact intern rfl
  | pushMember => exact .refl
  | setSize => exact .refl

lemma Changes.grows (h : Changes b keys base s t) : s.types.Grows t.types := by
  induction h with
  | refl => exact .refl
  | step _ change ih => exact ih.trans change.grows

/-- Lowering adds no types but `void` and those of constants. -/
lemma Changes.gains (h : Changes b keys base s t) : s.types.Gains Shape.isIncidental t.types := by
  refine h.induction (P := fun r => s.types.Gains Shape.isIncidental r.types) (.refl _) ?_
  intro r r' change hr
  cases change with
  | internType incidental => exact hr.intern incidental
  | openFile => rwa [Store.types_openFile]
  | keyedNode => rwa [Store.types_keyedNode]
  | unkeyedNode => exact hr
  | stamp => exact hr.intern rfl
  | pushMember => exact hr
  | setSize => exact hr

lemma Change.size_le (h : Change b keys base s t) : s.nodes.size ≤ t.nodes.size := by
  cases h with
  | internType => exact Nat.le_refl _
  | openFile => exact Store.nodes_le_openFile.length_le
  | keyedNode => exact Store.nodes_le_keyedNode.length_le
  | unkeyedNode => exact Store.nodes_le_unkeyedNode.length_le
  | stamp => exact Nat.le_of_eq (by rw [Store.nodes_stamp, Debug.NodeTable.size_modify])
  | pushMember => exact Nat.le_of_eq Debug.NodeTable.size_modify.symm
  | setSize => exact Nat.le_of_eq Debug.NodeTable.size_modify.symm

lemma Changes.size_le (h : Changes b keys base s t) : s.nodes.size ≤ t.nodes.size := by
  induction h with
  | refl => exact Nat.le_refl _
  | step _ change ih => exact Nat.le_trans ih change.size_le

/-- The same types may be listed when the type table has grown. -/
lemma Listable.mono (h : s.types.Grows t.types) (ha : Listable bound s a) : Listable bound t a := by
  obtain ⟨hlt, x, hx, described⟩ := ha
  exact ⟨hlt, x, TypeTable.shape?_mono h.shapes_le hx, described⟩

/-- A key is listed at the end, with a new node. -/
lemma Change.keyed (h : Change b keys base s t) :
    ∃ more, t.debugTypes.entries = s.debugTypes.entries ++ more ∧ ∀ entry ∈ more,
      s.nodes.size ≤ entry.2.index ∧ ∀ u, entry.1 = some u → keys s u := by
  have unchanged (heq : t.debugTypes = s.debugTypes) :
      ∃ more, t.debugTypes.entries = s.debugTypes.entries ++ more ∧ ∀ entry ∈ more,
        s.nodes.size ≤ entry.2.index ∧ ∀ u, entry.1 = some u → keys s u :=
    ⟨[], by simp [heq], by simp⟩
  cases h with
  | internType => exact unchanged rfl
  | openFile => exact unchanged Store.debugTypes_openFile
  | @keyedNode key e allowed _ =>
    cases hkey : s.debugTypes.get? key with
    | some n => exact unchanged (by rw [Store.keyedNode_of_get? hkey])
    | none =>
      rw [Store.keyedNode_of_get?_eq_none hkey]
      refine ⟨[(key, ⟨s.nodes.size⟩)], OrderedMap.entries_insert_of_get?_eq_none hkey, ?_⟩
      simpa using allowed
  | unkeyedNode => exact unchanged rfl
  | stamp => exact unchanged rfl
  | pushMember => exact unchanged rfl
  | setSize => exact unchanged rfl

/-- Lowering lists keys at the end, with new nodes, and of types that can be described only. -/
lemma Changes.keyed (h : Changes b (Listable bound) base s t) :
    ∃ more, t.debugTypes.entries = s.debugTypes.entries ++ more ∧ ∀ entry ∈ more,
      s.nodes.size ≤ entry.2.index ∧ ∀ u, entry.1 = some u → Listable bound t u := by
  induction h with
  | refl => exact ⟨[], by simp, by simp⟩
  | step h change ih =>
    obtain ⟨more, hmore, hnew⟩ := ih
    obtain ⟨last, hlast, hnewLast⟩ := change.keyed
    refine ⟨more ++ last, by rw [hlast, hmore, List.append_assoc], ?_⟩
    intro entry hentry
    rcases List.mem_append.1 hentry with hentry | hentry
    · obtain ⟨hsize, hkeys⟩ := hnew entry hentry
      exact ⟨hsize, fun u hu => (hkeys u hu).mono change.grows⟩
    · obtain ⟨hsize, hkeys⟩ := hnewLast entry hentry
      exact ⟨Nat.le_trans h.size_le hsize, fun u hu => (hkeys u hu).mono change.grows⟩

/-- A key that is listed was listed before, or its node is new. -/
lemma Changes.get?_cases {key : Option TypeId} (h : Changes b (Listable bound) base s t)
    (hn : t.debugTypes.get? key = some n) :
    s.debugTypes.get? key = some n ∨ s.debugTypes.get? key = none ∧ s.nodes.size ≤ n.index ∧
      ∀ u, key = some u → Listable bound t u := by
  obtain ⟨more, hmore, hnew⟩ := h.keyed
  rcases OrderedMap.get?_append_cases hmore hn with hs | ⟨hs, hmem⟩
  · exact Or.inl hs
  · exact Or.inr ⟨hs, hnew _ hmem⟩

/-- A type beyond the bound is not listed by the way. -/
lemma Changes.debugType?_eq_none (h : Changes b (Listable bound) base s t) (hbound : bound ≤ a.index)
    (ha : s.debugType? a = none) : t.debugType? a = none := by
  rw [Option.eq_none_iff_forall_ne_some]
  intro n hn
  rcases h.get?_cases hn with hs | ⟨-, -, hlistable⟩
  · cases ha.symm.trans hs
  · have := (hlistable a rfl).1
    omega

/-! ### The pieces of a lowering -/

lemma changes_stamp : Changes b keys 0 s (s.stamp n b) :=
  (Change.stamp (Or.inl (Nat.zero_le _))).changes

lemma changes_pushMember {member : NodeId} : Changes b keys 0 s (s.pushMember n member) :=
  (Change.pushMember (Nat.zero_le _)).changes

lemma changes_setSize {size : UInt32} : Changes b keys 0 s (s.setSize n size) :=
  (Change.setSize (Nat.zero_le _)).changes

/-- A type without a debug type gets a new node. -/
lemma size_le_keyedNode {key : Option TypeId} {e : Debug.Entry}
    (h : s.debugTypes.get? key = none) : s.nodes.size ≤ (s.keyedNode key e).1.index := by
  have heq : (s.keyedNode key e).1 = ⟨s.nodes.size⟩ := by rw [Store.keyedNode_of_get?_eq_none h]
  exact Nat.le_of_eq (congrArg NodeId.index heq).symm

lemma changes_basicType {name : String} {bits : UInt32} {encoding : Debug.Encoding}
    (h : keys (s.internType (.integer 32 false)).2 a) :
    Changes b keys base s (basicType s a name bits encoding).2 := by
  have word : Change b keys base s (s.internType (.integer 32 false)).2 := .internType rfl
  refine word.changes.step (.keyedNode ?_ rfl)
  rintro u ⟨⟩
  exact h

lemma changes_literalConstant (value : Option Literal) :
    Changes b keys base s (literalConstant s value).2 := by
  cases value with
  | none => exact .refl
  | some v =>
    cases v with
    | int => exact (Change.internType rfl).changes
    | float => exact (Change.internType rfl).changes
    | bool => exact (Change.internType rfl).changes
    | other => exact .refl

/-- The store in which the member for a data field is made. -/
def openMember (s : Store) (decl : Decl.Field) : Store :=
  ((literalConstant s decl.value).2.openFile decl.location.file).2

lemma changes_openMember {decl : Decl.Field} : Changes b keys base s (openMember s decl) :=
  (changes_literalConstant decl.value).step (.openFile _)

/-- What the member for a data field says. -/
def memberEntry (s : Store) (composite : NodeId) (extent : Extent) (decl : Decl.Field)
    (field : Field) (type : NodeId) : Debug.Entry :=
  .member
    { name := field.name.getD decl.name
      type
      site := ⟨((literalConstant s decl.value).2.openFile decl.location.file).1.source,
        decl.location.line, decl.location.column⟩
      parent := composite
      offset := extent.offset field.offset
      size := s.nodes.sizeInBits type
      flags := .visibility decl.isPrivate
      value := (literalConstant s decl.value).1 }

/-- A member is made last of all, then stamped and added to its composite. -/
lemma addMember_snd {composite type : NodeId} {extent : Extent} {decl : Decl.Field}
    {field : Field} : (addMember b s composite extent decl field type).2 =
      (((openMember s decl).unkeyedNode (memberEntry s composite extent decl field type)).2.stamp
        ⟨(openMember s decl).nodes.size⟩ b).pushMember composite ⟨(openMember s decl).nodes.size⟩ :=
  rfl

lemma nodes_le_openMember {decl : Decl.Field} :
    s.nodes.nodes <+: (openMember s decl).nodes.nodes := by
  have hvalue : (literalConstant s decl.value).2.nodes = s.nodes := by
    unfold literalConstant
    split <;> rfl
  rw [openMember, ← hvalue]
  exact Store.nodes_le_openFile

lemma debugTypes_addMember {composite type : NodeId} {extent : Extent} {decl : Decl.Field}
    {field : Field} :
    (addMember b s composite extent decl field type).2.debugTypes = s.debugTypes := by
  have hvalue : (literalConstant s decl.value).2.debugTypes = s.debugTypes := by
    unfold literalConstant
    split <;> rfl
  rw [addMember_snd, ← hvalue]
  exact Store.debugTypes_openFile

/-- From the store in which a member is made to the one in which it belongs to its composite. -/
lemma changes_addMember_of_openMember {composite type : NodeId} {extent : Extent}
    {decl : Decl.Field} {field : Field} (hbase : base ≤ (openMember s decl).nodes.size)
    (hn : base ≤ composite.index) :
    Changes b keys base (openMember s decl) (addMember b s composite extent decl field type).2 := by
  have made : Change b keys base (openMember s decl)
    ((openMember s decl).unkeyedNode (memberEntry s composite extent decl field type)).2 :=
    .unkeyedNode rfl
  rw [addMember_snd]
  exact (made.changes.step (.stamp (Or.inl hbase))).step (.pushMember hn)

lemma changes_addMember {composite type : NodeId} {extent : Extent} {decl : Decl.Field}
    {field : Field} (hbase : base ≤ s.nodes.size) (hn : base ≤ composite.index) :
    Changes b keys base s (addMember b s composite extent decl field type).2 := by
  have hopen : Changes b keys base s (openMember s decl) := changes_openMember
  exact hopen.trans (changes_addMember_of_openMember (Nat.le_trans hbase hopen.size_le) hn)

section OpenComposite

variable {struct : Struct} {record : Decl.Record} {tag : Debug.CompositeTag}

lemma openComposite_eq : openComposite s a struct record tag =
    (s.openFile record.location.file).2.keyedNode (some a) (.composite
      { heading struct record tag (s.openFile record.location.file).1 with size := 0 }) :=
  rfl

lemma debugType?_openComposite : (openComposite s a struct record tag).2.debugType? a =
    some (openComposite s a struct record tag).1 :=
  Store.get?_debugTypes_keyedNode

lemma get?_debugTypes_openComposite {key : Option TypeId} (h : key ≠ some a) :
    (openComposite s a struct record tag).2.debugTypes.get? key = s.debugTypes.get? key := by
  rw [openComposite_eq, Store.get?_debugTypes_keyedNode_of_ne h, Store.debugTypes_openFile]

/-- A new composite has no members yet. -/
lemma entry?_openComposite (ha : s.debugType? a = none) :
    (openComposite s a struct record tag).2.nodes.entry? (openComposite s a struct record tag).1 =
      some (.composite
        { heading struct record tag (s.openFile record.location.file).1 with size := 0 }) := by
  rw [openComposite_eq]
  refine Store.entry?_keyedNode_of_get?_eq_none ?_
  rw [Store.debugTypes_openFile]
  exact ha

lemma isEmpty_members_openComposite {c : Debug.Composite} (ha : s.debugType? a = none)
    (hc : (openComposite s a struct record tag).2.nodes.composite?
      (openComposite s a struct record tag).1 = some c) : c.members.isEmpty = true := by
  rw [Debug.NodeTable.composite?_eq_some, entry?_openComposite ha, Option.some.injEq,
    Debug.Entry.composite.injEq] at hc
  rw [← hc]
  rfl

end OpenComposite

lemma changes_openComposite {struct : Struct} {record : Decl.Record} {tag : Debug.CompositeTag}
    (h : keys (s.openFile record.location.file).2 a) :
    Changes b keys base s (openComposite s a struct record tag).2 := by
  refine (Change.openFile record.location.file).changes.step (.keyedNode ?_ rfl)
  rintro u ⟨⟩
  exact h

section Pieces

variable {R : TypeId → Store → NodeId → Store → Prop}
  (hR : ∀ u s n t, R u s n t → base ≤ s.nodes.size → Changes b keys base s t)
include hR

lemma Chain.changes {as : List TypeId} {ns : List NodeId} (h : Chain R as s ns t)
    (hbase : base ≤ s.nodes.size) : Changes b keys base s t := by
  induction h with
  | nil => exact .refl
  | cons head _ ih =>
    have hhead := hR _ _ _ _ head hbase
    exact hhead.trans (ih (Nat.le_trans hbase hhead.size_le))

lemma Filling.changes {slots : List Slot} {extent extent' : Extent}
    (h : Filling R b n slots extent s extent' t) (hbase : base ≤ s.nodes.size)
    (hn : base ≤ n.index) : Changes b keys base s t := by
  induction h with
  | nil => exact .refl
  | method _ _ ih =>
    refine .trans (Change.pushMember hn).changes (ih ?_)
    exact Nat.le_trans hbase (Nat.le_of_eq Debug.NodeTable.size_modify.symm)
  | @data decl field _ extent _ type _ s' _ head _ ih =>
    have hhead := hR _ _ _ _ head hbase
    have hbase' := Nat.le_trans hbase hhead.size_le
    have hmember : Changes b keys base s' (addMember b s' n extent decl field type).2 :=
      changes_addMember hbase' hn
    exact (hhead.trans hmember).trans (ih (Nat.le_trans hbase' hmember.size_le))

lemma Composing.changes {struct : Struct} {record : Decl.Record}
    (h : Composing R b a struct record s n t) (hbase : base ≤ s.nodes.size)
    (hn : base ≤ n.index) (hkey : keys (s.openFile record.location.file).2 a) :
    Changes b keys base s t := by
  cases h with
  | found => exact changes_openComposite hkey
  | @filled tag _ _ _ _ _ _ _ slots =>
    have hopen : Changes b keys base s (openComposite s a struct record tag).2 :=
      changes_openComposite hkey
    exact (hopen.trans (slots.changes hR (Nat.le_trans hbase hopen.size_le) hn)).step (.setSize hn)

end Pieces

/-- The composite of a type without a debug type is a new node. -/
lemma size_le_openComposite {struct : Struct} {record : Decl.Record} {tag : Debug.CompositeTag}
    (h : s.debugType? a = none) :
    s.nodes.size ≤ (openComposite s a struct record tag).1.index := by
  refine Nat.le_trans Store.nodes_le_openFile.length_le (size_le_keyedNode ?_)
  rw [Store.debugTypes_openFile]
  exact h

lemma Composing.size_le {R : TypeId → Store → NodeId → Store → Prop} {struct : Struct}
    {record : Decl.Record} (h : Composing R b a struct record s n t) (ha : s.debugType? a = none) :
    s.nodes.size ≤ n.index := by
  cases h with
  | found => exact size_le_openComposite ha
  | filled => exact size_le_openComposite ha

/-- The record of a struct that is composed is no enumeration. -/
lemma Composing.isDescribed {R : TypeId → Store → NodeId → Store → Prop} {struct : Struct}
    {record : Decl.Record} (h : Composing R b a struct record s n t)
    (hr : struct.record = some record) : (Shape.struct struct).isDescribed = true := by
  cases h with
  | found htag => exact isDescribed_of_compositeTag hr htag
  | filled htag => exact isDescribed_of_compositeTag hr htag

end Lowering

open Lowering

variable {b : BuilderId} {s t : Store} {a : TypeId} {n : NodeId}

/-- A successful lowering is a sequence of changes. -/
theorem lower_changes (h : lower b a s = .ok (n, t)) :
    Changes b (Listable (a.index + 1)) s.nodes.size s t := by
  refine lower_induction (P := fun a s _ t =>
    Changes b (Listable (a.index + 1)) s.nodes.size s t) ?_ h
  intro a s n t _ hstep
  -- A part stands before `a`, so it lists types below `a` only.
  have below : ∀ u r m r', Lowered b (fun a s _ t =>
      Changes b (Listable (a.index + 1)) s.nodes.size s t) a u r m r' →
      s.nodes.size ≤ r.nodes.size → Changes b (Listable a.index) s.nodes.size r r' := by
    rintro u r m r' ⟨hu, -, hchanges⟩ hbase
    exact hchanges.mono (fun r v hv => ⟨by have := hv.1; omega, hv.2⟩) hbase
  have weaken {r r' : Store} (h : Changes b (Listable a.index) s.nodes.size r r') :
      Changes b (Listable (a.index + 1)) s.nodes.size r r' :=
    h.mono (fun r v hv => ⟨Nat.lt_succ_of_lt hv.1, hv.2⟩) (Nat.le_refl _)
  have listable {x : Shape} {r : Store} (hx : s.types.shape? a = some x)
      (described : x.isDescribed = true) (hgrows : s.types.Grows r.types) :
      Listable (a.index + 1) r a :=
    Listable.mono (s := s) hgrows ⟨Nat.lt_succ_self _, x, hx, described⟩
  cases hstep with
  | listed => exact .refl
  | pointer _ _ pointee => exact weaken (below _ _ _ _ pointee (Nat.le_refl _))
  | basic ha hs hb =>
    have word : Change b (Listable (a.index + 1)) s.nodes.size s
      (s.internType (.integer 32 false)).2 := .internType rfl
    have described := Shape.isDescribed_of_basic? (Option.isSome_of_eq_some hb)
    refine (changes_basicType (listable hs described word.grows)).step (.stamp (Or.inl ?_))
    exact size_le_keyedNode (s := (s.internType (.integer 32 false)).2) ha
  | built ha hs parts he =>
    have hparts := parts.changes below (Nat.le_refl _)
    have hkey := listable hs he.isDescribed hparts.grows
    refine ((weaken hparts).step (.keyedNode ?_ he.type?_eq_none)).step (.stamp (Or.inl ?_))
    · rintro u ⟨⟩
      exact hkey
    · -- The parts stand before the type, so it is still without a debug type.
      have ha' := hparts.debugType?_eq_none (Nat.le_refl _) ha
      exact Nat.le_trans hparts.size_le (size_le_keyedNode ha')
  | @composite _ _ struct record _ ha hs hr composing =>
    have hn := composing.size_le ha
    have hkey := listable hs (composing.isDescribed hr) (r := (s.openFile record.location.file).2)
      (by rw [Store.types_openFile]; exact .refl)
    have hcomposing := composing.changes (fun u r m r' hu hbase => weaken (below u r m r' hu hbase))
      (Nat.le_refl _) hn hkey
    exact hcomposing.step (.stamp (Or.inl hn))
  | placeholder ha hs described pointer =>
    refine (Change.keyedNode ?_ rfl).changes.step (.stamp (Or.inr ?_))
    · rintro u ⟨⟩
    · exact Store.get?_debugTypes_keyedNode

namespace Lowering

variable {P : TypeId → Store → NodeId → Store → Prop} {base : Nat}

/-- Lowering a part lists types below the whole only. -/
lemma Lowered.changes {u : TypeId} (h : Lowered b P a u s n t) (hbase : base ≤ s.nodes.size) :
    Changes b (Listable a.index) base s t := by
  refine (lower_changes h.run).mono (fun r v hv => ⟨?_, hv.2⟩) hbase
  have hv := hv.1
  have hlt := h.lt
  omega

lemma Chain.changes_of_below {as : List TypeId} {ns : List NodeId}
    (h : Chain (Lowered b P a) as s ns t) : Changes b (Listable a.index) 0 s t :=
  h.changes (fun _ _ _ _ hu hbase => hu.changes hbase) (Nat.zero_le _)

lemma Filling.changes_of_below {slots : List Slot} {extent extent' : Extent}
    (h : Filling (Lowered b P a) b n slots extent s extent' t) :
    Changes b (Listable a.index) 0 s t :=
  h.changes (fun _ _ _ _ hu hbase => hu.changes hbase) (Nat.zero_le _) (Nat.zero_le _)

/-- The type of a composed struct is listed with its composite. -/
lemma Composing.debugType? {struct : Struct} {record : Decl.Record}
    (h : Composing (Lowered b P a) b a struct record s n t) : t.debugType? a = some n := by
  cases h with
  | found => exact Store.get?_debugTypes_keyedNode
  | filled _ _ _ _ slots =>
    obtain ⟨more, hmore, -⟩ := slots.changes_of_below.keyed
    exact OrderedMap.get?_append hmore Store.get?_debugTypes_keyedNode

end Lowering

/-- Describing a struct on request is a sequence of changes as well, though of any composite. -/
theorem lowerComposite_changes {struct : Struct} {record : Decl.Record}
    (h : lowerComposite b a struct record s = .ok (n, t)) :
    Changes b (fun _ _ => True) 0 s t := by
  refine (composing_of_compositeWith h).changes ?_ (Nat.zero_le _) (Nat.zero_le _) trivial
  intro u r m r' hu _
  exact (lower_changes hu).mono (fun _ _ _ => trivial) (Nat.zero_le _)

end ShaderTypes
