import ShaderTypes.Proofs.Lowering.Walk
import ShaderTypes.Proofs.Lowering.Change

/-!
# Stamps

A node is stamped for a builder when its result type is `void` and its instruction set is the
builder's.  Lowering never takes a stamp of its own builder away, and it stamps whatever it lists:
a node that is listed after a lowering was listed before or is stamped.
-/

namespace ShaderTypes

namespace Store

/-- Whether a node is marked as an instruction of the builder's module: its result is `void`, and it
belongs to the instruction set that the builder imported. -/
def isStamped (s : Store) (b : BuilderId) (n : NodeId) : Bool :=
  (s.nodes.node? n).any fun node =>
    node.resultType.any (s.types.has · Shape.isVoid) && node.instructionSet == some b

/-- What marks a node as an instruction of a module: its result type and its instruction set. -/
def marks? (s : Store) (n : NodeId) : Option (Option TypeId × Option BuilderId) :=
  (s.nodes.node? n).map fun node => (node.resultType, node.instructionSet)

variable {s t u : Store} {n m d : NodeId} {b : BuilderId} {a : TypeId}

/-! ### Marks -/

lemma marks?_of_nodes (h : s.nodes.nodes <+: t.nodes.nodes) (hn : n.index < s.nodes.size) :
    t.marks? n = s.marks? n := by
  obtain ⟨node, hnode⟩ := Debug.NodeTable.exists_node? hn
  rw [marks?, marks?, hnode, Debug.NodeTable.node?_mono h hnode]

/-- A change of a node that leaves its marks leaves those of every node. -/
lemma marks?_modifyNode {f : Debug.Node → Debug.Node}
    (hf : ∀ node, (f node).resultType = node.resultType ∧
      (f node).instructionSet = node.instructionSet) : (s.modifyNode m f).marks? n = s.marks? n :=
  Debug.NodeTable.map_node?_modify fun node => Prod.ext (hf node).1 (hf node).2

@[simp]
lemma marks?_pushMember : (s.pushMember m d).marks? n = s.marks? n :=
  marks?_modifyNode fun _ => ⟨rfl, rfl⟩

@[simp]
lemma marks?_setSize {size : UInt32} : (s.setSize m size).marks? n = s.marks? n :=
  marks?_modifyNode fun _ => ⟨rfl, rfl⟩

@[simp]
lemma marks?_withDebugType : (s.withDebugType m d).marks? n = s.marks? n :=
  marks?_modifyNode fun _ => ⟨rfl, rfl⟩

lemma marks?_stamp_self (h : n.index < s.nodes.size) :
    (s.stamp n b).marks? n = some (some (s.types.intern .void).1, some b) := by
  obtain ⟨node, hnode⟩ := Debug.NodeTable.exists_node? h
  rw [marks?, nodes_stamp, Debug.NodeTable.node?_modify_self, hnode]
  rfl

lemma marks?_stamp_of_ne (h : n ≠ m) : (s.stamp m b).marks? n = s.marks? n := by
  rw [marks?, nodes_stamp, Debug.NodeTable.node?_modify_of_ne h]
  rfl

lemma isStamped_iff : s.isStamped b n = true ↔
    ∃ a, s.marks? n = some (some a, some b) ∧ s.types.has a Shape.isVoid = true := by
  rw [isStamped, Option.any_eq_true]
  constructor
  · rintro ⟨node, hnode, h⟩
    rw [Bool.and_eq_true, Option.any_eq_true, beq_iff_eq] at h
    obtain ⟨⟨a, ha, hvoid⟩, hset⟩ := h
    exact ⟨a, by rw [marks?, hnode, Option.map_some, ha, hset], hvoid⟩
  · rintro ⟨a, hmarks, hvoid⟩
    obtain ⟨node, hnode, heq⟩ := Option.map_eq_some_iff.1 hmarks
    have ha : node.resultType = some a := congrArg Prod.fst heq
    have hset : node.instructionSet = some b := congrArg Prod.snd heq
    exact ⟨node, hnode, by simp [ha, hvoid, hset]⟩

lemma lt_of_isStamped (h : s.isStamped b n = true) : n.index < s.nodes.size := by
  obtain ⟨a, hmarks, -⟩ := isStamped_iff.1 h
  obtain ⟨node, hnode, -⟩ := Option.map_eq_some_iff.1 hmarks
  exact Debug.NodeTable.node?_lt hnode

/-- A node that keeps its marks stays stamped while types are added. -/
lemma isStamped_of_marks? (types : s.types.shapes <+: t.types.shapes)
    (marks : t.marks? n = s.marks? n) (h : s.isStamped b n = true) : t.isStamped b n = true := by
  obtain ⟨a, ha, hvoid⟩ := isStamped_iff.1 h
  exact isStamped_iff.2 ⟨a, marks.trans ha, TypeTable.has_mono types hvoid⟩

/-- A node is stamped by a stamp. -/
lemma isStamped_stamp_self (h : n.index < s.nodes.size) : (s.stamp n b).isStamped b n = true :=
  isStamped_iff.2 ⟨_, marks?_stamp_self h, TypeTable.has_intern_void⟩

lemma isStamped_of_nodes (types : s.types.shapes <+: t.types.shapes)
    (nodes : s.nodes.nodes <+: t.nodes.nodes) (h : s.isStamped b n = true) :
    t.isStamped b n = true :=
  isStamped_of_marks? types (marks?_of_nodes nodes (lt_of_isStamped h)) h

lemma isStamped_pushMember (h : s.isStamped b n = true) :
    (s.pushMember m d).isStamped b n = true :=
  isStamped_of_marks? (List.prefix_refl s.types.shapes) marks?_pushMember h

lemma isStamped_setSize {size : UInt32} (h : s.isStamped b n = true) :
    (s.setSize m size).isStamped b n = true :=
  isStamped_of_marks? (List.prefix_refl s.types.shapes) marks?_setSize h

lemma isStamped_withDebugType (h : s.isStamped b n = true) :
    (s.withDebugType m d).isStamped b n = true :=
  isStamped_of_marks? (List.prefix_refl s.types.shapes) marks?_withDebugType h

/-- A node stays stamped when any node is stamped for the same builder. -/
lemma isStamped_stamp (h : s.isStamped b n = true) : (s.stamp m b).isStamped b n = true := by
  by_cases hn : n = m
  · rw [← hn]
    exact isStamped_stamp_self (lt_of_isStamped h)
  · exact isStamped_of_marks? (TypeTable.shapes_prefix_intern _ _) (marks?_stamp_of_ne hn) h

/-- No change in the course of a lowering takes a stamp of its builder away. -/
lemma isStamped_of_changes {keys : Store → TypeId → Prop} {base : Nat}
    (h : Lowering.Changes b keys base s t) (hn : s.isStamped b n = true) :
    t.isStamped b n = true := by
  refine h.induction (P := fun r => r.isStamped b n = true) hn ?_
  intro r r' change hr
  have hgrows := change.grows.shapes_le
  cases change with
  | internType => exact isStamped_of_nodes hgrows (List.prefix_refl _) hr
  | openFile => exact isStamped_of_nodes hgrows nodes_le_openFile hr
  | keyedNode => exact isStamped_of_nodes hgrows nodes_le_keyedNode hr
  | unkeyedNode => exact isStamped_of_nodes hgrows nodes_le_unkeyedNode hr
  | stamp => exact isStamped_stamp hr
  | pushMember => exact isStamped_pushMember hr
  | setSize => exact isStamped_setSize hr

/-! ### Listed nodes -/

/-- Whatever is listed later was listed before, or is stamped. -/
def ListsStamped (b : BuilderId) (s t : Store) : Prop :=
  ∀ n ∈ t.emitted, n ∈ s.emitted ∨ t.isStamped b n = true

lemma ListsStamped.of_subset (h : ∀ n ∈ t.emitted, n ∈ s.emitted) : ListsStamped b s t :=
  fun n hn => Or.inl (h n hn)

lemma ListsStamped.trans (h : ListsStamped b s t) (h' : ListsStamped b t u)
    (kept : ∀ n, t.isStamped b n = true → u.isStamped b n = true) : ListsStamped b s u := by
  intro n hn
  rcases h' n hn with hn | hn
  · exact (h n hn).imp_right (kept n)
  · exact Or.inr hn

lemma mem_emitted_keyedNode {key : Option TypeId} {e : Debug.Entry}
    (hn : n ∈ (s.keyedNode key e).2.emitted) :
    n ∈ s.emitted ∨ n = (s.keyedNode key e).1 ∧ n.index < (s.keyedNode key e).2.nodes.size := by
  cases hkey : s.debugTypes.get? key with
  | some m =>
    rw [keyedNode_of_get? hkey] at hn
    exact Or.inl hn
  | none =>
    rw [keyedNode_of_get?_eq_none hkey] at hn ⊢
    rcases List.mem_append.1 hn with hn | hn
    · rcases OrderedMap.mem_values_insert hn with rfl | hn
      · exact Or.inr ⟨rfl, by simp⟩
      · exact Or.inl (List.mem_append_left _ hn)
    · exact Or.inl (List.mem_append_right _ hn)

/-- A node that is listed under a key and stamped. -/
lemma listsStamped_keyedNode {key : Option TypeId} {e : Debug.Entry} :
    ListsStamped b s ((s.keyedNode key e).2.stamp (s.keyedNode key e).1 b) := by
  intro n hn
  rcases mem_emitted_keyedNode hn with hn | ⟨rfl, hlt⟩
  · exact Or.inl hn
  · exact Or.inr (isStamped_stamp_self hlt)

end Store

namespace Lowering

open Store

variable {b : BuilderId} {s t : Store} {a : TypeId} {n : NodeId}

lemma listsStamped_addMember {composite type : NodeId} {extent : Extent} {decl : Decl.Field}
    {field : Field} :
    ListsStamped b s (addMember b s composite extent decl field type).2 := by
  have emitted_openMember : (openMember s decl).emitted = s.emitted := by
    have hvalue : (literalConstant s decl.value).2.emitted = s.emitted := by
      unfold literalConstant
      split <;> rfl
    rw [← hvalue, emitted, openMember, debugTypes_openFile, unkeyed_openFile]
    rfl
  intro m hm
  rw [addMember_snd] at hm ⊢
  rw [← emitted_openMember]
  rcases List.mem_append.1 hm with hm | hm
  · exact Or.inl (List.mem_append_left _ hm)
  · rcases List.mem_append.1 hm with hm | hm
    · exact Or.inl (List.mem_append_right _ hm)
    · rw [List.mem_singleton.1 hm]
      refine Or.inr (isStamped_pushMember (isStamped_stamp_self ?_))
      exact Nat.lt_of_lt_of_eq (Nat.lt_succ_self _) Debug.NodeTable.size_push.symm

lemma Chain.listsStamped {as : List TypeId} {ns : List NodeId}
    (h : Chain (Lowered b (fun _ s _ t => ListsStamped b s t) a) as s ns t) :
    ListsStamped b s t := by
  induction h with
  | nil => exact .of_subset fun _ => id
  | cons head tail ih =>
    exact head.kept.trans ih fun m hm => isStamped_of_changes tail.changes_of_below hm

lemma Filling.listsStamped {slots : List Slot} {extent extent' : Extent}
    (h : Filling (Lowered b (fun _ s _ t => ListsStamped b s t) a) b n slots extent s extent' t) :
    ListsStamped b s t := by
  induction h with
  | nil => exact .of_subset fun _ => id
  | @method _ _ _ _ function s _ _ tail ih =>
    have hpush : ListsStamped b s (s.pushMember n function) := .of_subset fun _ => id
    exact hpush.trans ih fun m hm => isStamped_of_changes tail.changes_of_below hm
  | @data decl field _ extent _ type _ s' _ head tail ih =>
    have hmember : Changes b (Listable a.index) 0 s' (addMember b s' n extent decl field type).2 :=
      changes_addMember (Nat.zero_le _) (Nat.zero_le _)
    refine (head.kept.trans listsStamped_addMember ?_).trans ih ?_
    · exact fun m hm => isStamped_of_changes hmember hm
    · exact fun m hm => isStamped_of_changes tail.changes_of_below hm

lemma Composing.listsStamped {struct : Struct} {record : Decl.Record}
    (h : Composing (Lowered b (fun _ s _ t => ListsStamped b s t) a) b a struct record s n t) :
    ListsStamped b s (t.stamp n b) := by
  have hopen {tag : Debug.CompositeTag} {m : NodeId}
      (hm : m ∈ (openComposite s a struct record tag).2.emitted) :
      m ∈ s.emitted ∨ m = (openComposite s a struct record tag).1 := by
    have hfile : (s.openFile record.location.file).2.emitted = s.emitted := by
      rw [emitted, debugTypes_openFile, unkeyed_openFile]
      rfl
    rw [← hfile]
    exact (mem_emitted_keyedNode hm).imp_right And.left
  have hlt {tag : Debug.CompositeTag} {c : Debug.Composite}
      (hc : (openComposite s a struct record tag).2.nodes.composite?
        (openComposite s a struct record tag).1 = some c) :=
    Debug.NodeTable.entry?_lt (Debug.NodeTable.composite?_eq_some.1 hc)
  intro m hm
  -- The composite itself was listed without a stamp, and gets it last.
  cases h with
  | found htag hc members =>
    rcases hopen hm with hm | rfl
    · exact Or.inl hm
    · exact Or.inr (isStamped_stamp_self (hlt hc))
  | @filled tag _ extent r htag hc _ _ slots =>
    rcases slots.listsStamped m hm with hm | hm
    · rcases hopen hm with hm | rfl
      · exact Or.inl hm
      · refine Or.inr (isStamped_stamp_self (Nat.lt_of_lt_of_le (hlt hc) ?_))
        exact Nat.le_trans slots.changes_of_below.size_le
          (Nat.le_of_eq Debug.NodeTable.size_modify.symm)
    · exact Or.inr (isStamped_stamp (isStamped_setSize hm))

end Lowering

open Lowering Store

variable {b : BuilderId} {s t : Store} {a : TypeId} {n : NodeId}

/-- Whatever a lowering lists is stamped. -/
theorem listsStamped_lower (h : lower b a s = .ok (n, t)) : ListsStamped b s t := by
  refine lower_induction (P := fun _ s _ t => ListsStamped b s t) ?_ h
  intro a s n t _ hstep
  cases hstep with
  | listed => exact .of_subset fun _ => id
  | pointer _ _ pointee => exact pointee.kept
  | basic => exact listsStamped_keyedNode (s := (s.internType (.integer 32 false)).2)
  | built _ _ parts _ =>
    refine parts.listsStamped.trans listsStamped_keyedNode fun m hm => ?_
    exact isStamped_stamp (isStamped_of_nodes shapes_le_keyedNode nodes_le_keyedNode hm)
  | composite _ _ _ composing => exact composing.listsStamped
  | placeholder => exact listsStamped_keyedNode

end ShaderTypes
