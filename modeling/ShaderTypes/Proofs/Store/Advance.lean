import ShaderTypes.Proofs.Store.Sizes
import ShaderTypes.Proofs.Store.Soundness
import ShaderTypes.Proofs.TypeTable.Rules

/-!
# Sessions that leave the debug types to lowering

In such a session the caller makes and lists no debug type of a type and no member by itself.
Everything else is free: scopes, variables and functions, templates and their parameters, whatever
is saved for a method, and whatever is set of a node.  This is wider than `Store.LoweringBuilt`,
which also keeps the caller from changing nodes.

What such a session does to the store is a sequence of advances.  `Store.Advance` tells more than
`Store.Edit`: a node is listed under a type that can be described, and the nodes that it uses are
listed before it.  `LeftToLowering.induction` derives invariants from it.
-/

namespace ShaderTypes

namespace Debug.Entry

/-- The nodes that have to be defined before the entry that mentions them: the elements of arrays
and vectors, the types of a function, and the type of a member with the composite it belongs to. -/
def uses : Entry → List NodeId
  | .array e => [e.element]
  | .vector e => [e.element]
  | .functionType e => e.result.toList ++ e.params
  | .member e => [e.type, e.parent]
  | _ => []

/-- What stays of an entry when something about it is filled in. -/
structure Resembles (e e' : Entry) : Prop where
  uses : e'.uses = e.uses
  member : e'.member?.isSome = e.member?.isSome
  composite : e'.composite?.isSome = e.composite?.isSome

variable {e : Entry}

lemma resembles_refl : e.Resembles e :=
  ⟨rfl, rfl, rfl⟩

lemma resembles_mapComposite {f : Composite → Composite} : e.Resembles (e.mapComposite f) := by
  cases e <;> exact ⟨rfl, rfl, rfl⟩

lemma resembles_mapTemplate {f : Template → Template} : e.Resembles (e.mapTemplate f) := by
  cases e <;> exact ⟨rfl, rfl, rfl⟩

/-- The element of an array or a vector is used by it. -/
lemma mem_uses_of_element? {m : NodeId} (h : e.element? = some m) : m ∈ e.uses := by
  cases e <;> simp_all [element?, uses]

/-- What is no debug type uses nothing, and is no member. -/
lemma uses_of_not_isDebugType (h : e.isDebugType = false) : e.uses = [] ∧ e.member? = none := by
  cases e <;> first | exact ⟨rfl, rfl⟩ | cases h

end Debug.Entry

/-- After a change that leaves every node resembling itself, each entry resembles an earlier one. -/
lemma Debug.NodeTable.entry?_modify_cases {t : NodeTable} {n m : NodeId} {e' : Entry}
    {f : Node → Node} (hf : ∀ node : Node, node.entry.Resembles (f node).entry)
    (h : NodeTable.entry? (t.modify n f) m = some e') :
    ∃ e, t.entry? m = some e ∧ e.Resembles e' := by
  obtain ⟨node, hnode, rfl⟩ := Option.map_eq_some_iff.1 h
  obtain ⟨old, hold, rfl | ⟨-, rfl⟩⟩ := node?_modify_cases hnode
  · exact ⟨_, entry?_of_node? hold, Entry.resembles_refl⟩
  · exact ⟨_, entry?_of_node? hold, hf old⟩

/-- Whether an operation leaves debug types of types, and members, to lowering. -/
def Operation.leavesDebugTypes : Operation → Bool
  | .recordDebugType .. | .basic .. | .composite .. | .array .. | .vector .. | .functionType ..
  | .member .. | .lowerComposite .. => false
  | _ => true

namespace Store

/-- The stores of sessions that leave the debug types to lowering. -/
def LeftToLowering (s : Store) : Prop :=
  ∃ options ops replies, (∀ op ∈ ops, op.leavesDebugTypes = true) ∧
    (Store.new options).runAll ops = .ok (replies, s)

/-- One advance of a store. -/
inductive Advance (s : Store) : Store → Prop
  | internType {x : Shape} (known : ∀ u ∈ x.operands, u.index < s.types.size)
      (checked : s.types.check x = .ok ()) : Advance s (s.internType x).2
  | addNode {e : Debug.Entry} (apart : e.isDebugType = false) : Advance s (s.addNode e).2
  | keyedNode {key : Option TypeId} {e : Debug.Entry}
      (described : ∀ a, key = some a → ∃ x, s.types.shape? a = some x ∧ x.isDescribed = true)
      (uses : ∀ m ∈ e.uses, m ∈ s.debugTypes.values) (member : e.member? = none) :
      Advance s (s.keyedNode key e).2
  | unkeyedNode {e : Debug.Entry} (uses : ∀ m ∈ e.uses, m ∈ s.debugTypes.values)
      (composite : e.composite? = none) : Advance s (s.unkeyedNode e).2
  | modifyNode {n : NodeId} {f : Debug.Node → Debug.Node}
      (resembles : ∀ node : Debug.Node, node.entry.Resembles (f node).entry) :
      Advance s (s.modifyNode n f)
  | rest {options : Options} {texts : List String} {files : OrderedMap String Debug.File}
      {currentScope : Option NodeId} {methods : OrderedMap Decl.MethodId NodeId} :
      Advance s { s with options, texts, files, currentScope, methods }

/-- Advances one after the other. -/
inductive Advances (s : Store) : Store → Prop
  | refl : Advances s s
  | step {t u : Store} (h : Advances s t) (advance : Advance t u) : Advances s u

variable {s t u : Store} {a : TypeId} {n m : NodeId} {b : BuilderId} {key : Option TypeId}
  {e : Debug.Entry}

lemma Advance.advances (h : Advance s t) : Advances s t :=
  .step .refl h

lemma Advances.trans (h : Advances s t) (h' : Advances t u) : Advances s u := by
  induction h' with
  | refl => exact h
  | step _ advance ih => exact ih.step advance

/-- What every advance keeps is kept by all of them together. -/
lemma Advances.induction {P : Store → Prop} (h : Advances s t) (start : P s)
    (advance : ∀ s t, Advance s t → P s → P t) : P t := by
  induction h with
  | refl => exact start
  | step _ h ih => exact advance _ _ h ih

/-! ### What an advance keeps -/

lemma Advance.grows (h : Advance s t) : s.types.Grows t.types := by
  cases h with
  | internType known => exact .intern .refl known
  | keyedNode => rw [types_keyedNode]; exact .refl
  | _ => exact .refl

lemma Advances.grows (h : Advances s t) : s.types.Grows t.types :=
  h.induction (P := fun r => s.types.Grows r.types) .refl fun _ _ advance ih =>
    ih.trans advance.grows

/-- Keys are listed at the end. -/
lemma Advance.entries (h : Advance s t) :
    ∃ more, t.debugTypes.entries = s.debugTypes.entries ++ more := by
  cases h with
  | @keyedNode key e =>
    rcases hkey : s.debugTypes.get? key with _ | n
    · rw [keyedNode_of_get?_eq_none hkey]
      exact ⟨_, OrderedMap.entries_insert_of_get?_eq_none hkey⟩
    · rw [keyedNode_of_get? hkey]
      exact ⟨[], (List.append_nil _).symm⟩
  | _ => exact ⟨[], (List.append_nil _).symm⟩

/-- What is listed under a key stays listed there. -/
lemma Advances.get?_debugTypes (h : Advances s t) (hn : s.debugTypes.get? key = some n) :
    t.debugTypes.get? key = some n := by
  refine h.induction (P := fun r => r.debugTypes.get? key = some n) hn fun r r' advance hr => ?_
  obtain ⟨more, hmore⟩ := advance.entries
  exact OrderedMap.get?_append hmore hr

lemma Advances.mem_values (h : Advances s t) (hn : n ∈ s.debugTypes.values) :
    n ∈ t.debugTypes.values := by
  refine h.induction (P := fun r => n ∈ r.debugTypes.values) hn fun r r' advance hr => ?_
  obtain ⟨more, hmore⟩ := advance.entries
  rw [OrderedMap.values, hmore, List.map_append]
  exact List.mem_append_left _ hr

/-! ### The small operations -/

lemma advances_internType {x : Shape} (operandless : x.operands = [])
    (checked : s.types.check x = .ok ()) : Advances s (s.internType x).2 :=
  Advance.advances (.internType (by simp [operandless]) checked)

lemma advances_openFile {name : String} : Advances s (s.openFile name).2 := by
  unfold openFile
  split
  · exact .refl
  · have source : Advances s (s.addNode (.source { file := name })).2 :=
      Advance.advances (.addNode rfl)
    exact (source.step (.addNode rfl)).step .rest

/-- A change of what is filled in beside the entry. -/
lemma advances_modifyNode {f : Debug.Node → Debug.Node} (hf : ∀ node, (f node).entry = node.entry) :
    Advances s (s.modifyNode n f) := by
  refine Advance.advances (.modifyNode fun node => ?_)
  rw [hf]
  exact Debug.Entry.resembles_refl

lemma advances_mapComposite {f : Debug.Composite → Debug.Composite} :
    Advances s (s.modifyNode n fun node => { node with entry := node.entry.mapComposite f }) :=
  Advance.advances (.modifyNode fun _ => Debug.Entry.resembles_mapComposite)

lemma advances_setResultType : Advances s (s.setResultType n a) :=
  advances_modifyNode fun _ => rfl

lemma advances_setInstructionSet : Advances s (s.setInstructionSet n b) :=
  advances_modifyNode fun _ => rfl

lemma advances_stamp : Advances s (s.stamp n b) := by
  have void : Advances s (s.internType .void).2 := advances_internType rfl rfl
  exact (void.trans advances_setResultType).trans advances_setInstructionSet

lemma advances_template {target template : NodeId} (h : s.template a target = .ok (template, t)) :
    Advances s t := by
  rcases template_eq_ok h with rfl | ⟨n, rfl⟩
  · exact .refl
  · have made : Advances s (s.unkeyedNode (.template { target })).2 :=
      Advance.advances (.unkeyedNode (by simp [Debug.Entry.uses]) rfl)
    exact made.trans advances_mapComposite

lemma advances_pushScope {name : String} {scope : NodeId} : Advances s (s.pushScope name scope) :=
  advances_openFile.step .rest

lemma advances_popScope {name : String} (h : s.popScope name = .ok t) : Advances s t := by
  obtain ⟨file, scope, -, rfl⟩ := popScope_eq_ok h
  exact Advance.rest.advances

lemma advances_withDebugType {d : NodeId} : Advances s (s.withDebugType n d) :=
  advances_modifyNode fun _ => rfl

lemma advances_literalConstant (value : Option Literal) :
    Advances s (Lowering.literalConstant s value).2 := by
  cases value with
  | none => exact .refl
  | some v =>
    cases v with
    | int => exact advances_internType rfl rfl
    | float => exact advances_internType rfl rfl
    | bool => exact advances_internType rfl rfl
    | other => exact .refl

end Store

/-! ### Lowering -/

namespace Lowering

open Store

variable {s t : Store} {a : TypeId} {n : NodeId} {b : BuilderId} {e : Debug.Entry}
  {R : TypeId → Store → NodeId → Store → Prop}

/-- A node made under a type that can be described is listed, after the nodes that it uses. -/
lemma advances_keyedNode {x : Shape} (ha : s.types.shape? a = some x)
    (described : x.isDescribed = true) (uses : ∀ m ∈ e.uses, m ∈ s.debugTypes.values)
    (member : e.member? = none) :
    Advances s (s.keyedNode (some a) e).2 := by
  refine Advance.advances (.keyedNode ?_ uses member)
  rintro _ ⟨⟩
  exact ⟨x, ha, described⟩

lemma mem_values_keyedNode {key : Option TypeId} :
    (s.keyedNode key e).1 ∈ (s.keyedNode key e).2.debugTypes.values :=
  OrderedMap.mem_values_of_get? get?_debugTypes_keyedNode

/-- The entry of a vector, an array or a function uses the nodes of its parts. -/
lemma mem_of_mem_uses {types : TypeTable} {x : Shape} {nodes : List NodeId}
    (h : types.Builds x nodes e) : (∀ m ∈ e.uses, m ∈ nodes) ∧ e.member? = none := by
  cases h <;> simp [Debug.Entry.uses, Debug.Entry.member?]

lemma advances_addMember {composite type : NodeId} {extent : Extent} {decl : Decl.Field}
    {field : Field} (hc : composite ∈ s.debugTypes.values) (ht : type ∈ s.debugTypes.values) :
    Advances s (addMember b s composite extent decl field type).2 := by
  have hopen : Advances s (openMember s decl) :=
    (advances_literalConstant decl.value).trans advances_openFile
  have made : Advance (openMember s decl)
      ((openMember s decl).unkeyedNode (memberEntry s composite extent decl field type)).2 := by
    refine .unkeyedNode ?_ rfl
    simp only [memberEntry, Debug.Entry.uses, List.mem_cons, List.not_mem_nil, or_false,
      forall_eq_or_imp, forall_eq]
    exact ⟨hopen.mem_values ht, hopen.mem_values hc⟩
  rw [addMember_snd]
  exact ((hopen.step made).trans advances_stamp).trans advances_mapComposite

section Pieces

variable (hR : ∀ u s n t, R u s n t → Advances s t ∧ n ∈ t.debugTypes.values)
include hR

/-- The parts are listed when all of them are lowered. -/
lemma Chain.advances {as : List TypeId} {ns : List NodeId} (h : Chain R as s ns t) :
    Advances s t ∧ ∀ m ∈ ns, m ∈ t.debugTypes.values := by
  induction h with
  | nil => exact ⟨.refl, by simp⟩
  | cons head _ ih =>
    obtain ⟨hhead, hn⟩ := hR _ _ _ _ head
    refine ⟨hhead.trans ih.1, ?_⟩
    rintro m (_ | ⟨_, hm⟩)
    · exact ih.1.mem_values hn
    · exact ih.2 m hm

lemma Filling.advances {slots : List Slot} {extent extent' : Extent}
    (h : Filling R b n slots extent s extent' t) (hn : n ∈ s.debugTypes.values) :
    Advances s t := by
  induction h with
  | nil => exact .refl
  | method _ _ ih => exact advances_mapComposite.trans (ih hn)
  | @data decl field _ extent _ type _ s' _ head _ ih =>
    obtain ⟨hhead, htype⟩ := hR _ _ _ _ head
    have hmember : Advances s' (addMember b s' n extent decl field type).2 :=
      advances_addMember (hhead.mem_values hn) htype
    exact (hhead.trans hmember).trans (ih (hmember.mem_values (hhead.mem_values hn)))

/-- The composite of a struct is listed before its members are made. -/
lemma Composing.advances {struct : Struct} {record : Decl.Record}
    (h : Composing R b a struct record s n t) (ha : s.types.shape? a = some (.struct struct))
    (described : (Shape.struct struct).isDescribed = true) :
    Advances s t ∧ n ∈ t.debugTypes.values := by
  have hopen (tag : Debug.CompositeTag) : Advances s (openComposite s a struct record tag).2 := by
    rw [openComposite_eq]
    refine advances_openFile.trans
      (advances_keyedNode ?_ described (by simp [Debug.Entry.uses]) rfl)
    rwa [types_openFile]
  have hlisted (tag : Debug.CompositeTag) : (openComposite s a struct record tag).1 ∈
      (openComposite s a struct record tag).2.debugTypes.values := mem_values_keyedNode
  cases h with
  | found => exact ⟨hopen _, hlisted _⟩
  | filled _ _ _ _ slots =>
    have hfill := slots.advances hR (hlisted _)
    exact ⟨((hopen _).trans hfill).trans advances_mapComposite, hfill.mem_values (hlisted _)⟩

end Pieces

end Lowering

open Lowering Store

/-- Lowering is a sequence of advances, after which the debug type is listed. -/
theorem advances_of_lower {b : BuilderId} {a : TypeId} {s t : Store} {n : NodeId}
    (h : lower b a s = .ok (n, t)) : Advances s t ∧ n ∈ t.debugTypes.values := by
  refine lower_induction (P := fun _ s n t => Advances s t ∧ n ∈ t.debugTypes.values) ?_ h
  intro a s n t _ hstep
  have hR (u : TypeId) (r : Store) (m : NodeId) (r' : Store)
      (hu : Lowered b (fun _ s n t => Advances s t ∧ n ∈ t.debugTypes.values) a u r m r') :
      Advances r r' ∧ m ∈ r'.debugTypes.values := hu.kept
  cases hstep with
  | listed ha => exact ⟨.refl, OrderedMap.mem_values_of_get? ha⟩
  | pointer _ _ pointee => exact hR _ _ _ _ pointee
  | basic _ hs hb =>
    have word : Advances s (s.internType (.integer 32 false)).2 := advances_internType rfl rfl
    have described := Shape.isDescribed_of_basic? (Option.isSome_of_eq_some hb)
    have hs' := TypeTable.shape?_mono word.grows.shapes_le hs
    refine ⟨(word.trans (advances_keyedNode hs' described ?_ rfl)).trans advances_stamp, ?_⟩
    · simp [Debug.Entry.uses]
    · exact mem_values_keyedNode
  | built _ hs parts he =>
    obtain ⟨hparts, hlisted⟩ := parts.advances hR
    have hs' := TypeTable.shape?_mono hparts.grows.shapes_le hs
    obtain ⟨huses, hmember⟩ := mem_of_mem_uses he
    have made := advances_keyedNode hs' he.isDescribed (fun m hm => hlisted m (huses m hm)) hmember
    exact ⟨(hparts.trans made).trans advances_stamp, mem_values_keyedNode⟩
  | composite _ hs hr composing =>
    obtain ⟨hcomposing, hn⟩ := composing.advances hR hs (composing.isDescribed hr)
    exact ⟨hcomposing.trans advances_stamp, hn⟩
  | placeholder _ _ _ _ =>
    have hnone : Advance s (placeholder s).2 := by
      refine .keyedNode ?_ (by simp [Debug.Entry.uses]) rfl
      rintro _ ⟨⟩
    exact ⟨hnone.advances.trans advances_stamp, mem_values_keyedNode⟩

lemma advances_of_walk {b : BuilderId} {s t : Store} {instructions : List NodeId}
    (h : Walk b instructions s t) : Advances s t := by
  induction h with
  | nil => exact .refl
  | untyped _ _ ih => exact advances_stamp.trans ih
  | typed _ lowered _ ih =>
    have hlower := (advances_of_lower lowered).1
    exact ((advances_stamp.trans hlower).trans advances_withDebugType).trans ih

/-! ### Operations -/

namespace Store

variable {s t : Store} {a : TypeId} {op : Operation} {reply : Reply}

lemma internType_fst_lt (s : Store) (x : Shape) :
    (s.internType x).1.index < (s.internType x).2.types.size :=
  TypeTable.intern_fst_lt s.types x

/-- A type may be built from the one interned just before. -/
lemma Advances.internAround {r : Store} {x y : Shape} (h : Advances s r)
    (hx : ∀ u ∈ x.operands, u.index < r.types.size) (checkx : r.types.check x = .ok ())
    (hy : y.operands = [(r.internType x).1]) (checky : (r.internType x).2.types.check y = .ok ()) :
    Advances s ((r.internType x).2.internType y).2 := by
  refine (h.step (.internType hx checkx)).step (.internType ?_ checky)
  simpa only [hy, List.mem_singleton, forall_eq] using internType_fst_lt r x

lemma advances_byteAddressBuffer {writable : Bool} :
    Advances s (s.byteAddressBuffer writable).2 := by
  have word : Advances s (s.internType (.integer 32 false)).2 := advances_internType rfl rfl
  have words : ∀ u ∈ (Shape.runtimeArray (s.internType (.integer 32 false)).1 (some 4)).operands,
      u.index < (s.internType (.integer 32 false)).2.types.size := by
    simpa only [Shape.operands, List.mem_singleton, forall_eq] using internType_fst_lt s _
  exact word.internAround words rfl rfl rfl

lemma advances_counterBuffer : Advances s s.counterBuffer.2 :=
  Advances.refl.internAround (by simp [Shape.operands]) rfl rfl rfl

/-- A type that is granted is interned after the types it is made around, and obeys the rules. -/
lemma advances_of_grants {types : TypeTable} (h : s.Grants op a types) :
    Advances s { s with types } := by
  cases h with
  | @type x a types known granted =>
    obtain ⟨hcheck, hintern⟩ := TypeTable.request_eq_ok granted
    have interned : Advance s (s.internType (s.types.resolve x)).2 :=
      .internType (by rwa [TypeTable.operands_resolve]) (TypeTable.check_resolve hcheck)
    rw [internType, hintern] at interned
    exact interned.advances
  | byteAddressBuffer => exact advances_byteAddressBuffer
  | counterBuffer => exact advances_counterBuffer

lemma advances_of_fills (h : s.Fills op t) : Advances s t := by
  cases h with
  | pushMember => exact advances_mapComposite
  | setSize => exact advances_mapComposite
  | pushParam => exact Advance.advances (.modifyNode fun _ => Debug.Entry.resembles_mapTemplate)
  | setResultType => exact advances_setResultType
  | setInstructionSet => exact advances_setInstructionSet
  | setDebugType => exact advances_withDebugType

/-- An operation that leaves the debug types to lowering is a sequence of advances. -/
theorem run_advances (leaves : op.leavesDebugTypes = true) (h : s.run op = .ok (reply, t)) :
    Advances s t := by
  cases effect_of_run h with
  | idle => exact Advance.rest.advances
  | types grants => exact advances_of_grants grants
  | add adds => exact Advance.advances (.addNode adds.isDebugType_eq_false)
  | keyed lists => cases lists <;> cases leaves
  | unkeyed lists =>
    cases lists with
    | member => cases leaves
    | templateParameter =>
      exact Advance.advances (.unkeyedNode (by simp [Debug.Entry.uses]) rfl)
  | fill fills => exact advances_of_fills fills
  | opened => exact advances_openFile
  | pushScope => exact advances_pushScope
  | popScope popped => exact advances_openFile.trans (advances_popScope popped)
  | saveFunction => exact Advance.rest.advances
  | recordDebugType => cases leaves
  | template _ attached => exact advances_template attached
  | lower _ lowered => exact (advances_of_lower lowered).1
  | lowerComposite => cases leaves
  | lowerModule _ walk => exact advances_of_walk walk

/-- A session of such operations is a sequence of advances. -/
lemma runAll_advances {ops : List Operation} {replies : List Reply}
    (leaves : ∀ op ∈ ops, op.leavesDebugTypes = true) (h : s.runAll ops = .ok (replies, t)) :
    Advances s t := by
  induction ops generalizing s replies with
  | nil =>
    cases h
    exact .refl
  | cons op ops ih =>
    obtain ⟨reply, r, replies', hop, hops, -⟩ := runAll_cons_eq_ok h
    have hhead := run_advances (leaves op List.mem_cons_self) hop
    exact hhead.trans (ih (fun op' hop' => leaves op' (List.mem_cons_of_mem _ hop')) hops)

namespace LeftToLowering

lemma reachable (h : s.LeftToLowering) : s.Reachable := by
  obtain ⟨options, ops, replies, -, hops⟩ := h
  exact ⟨options, ops, replies, hops⟩

/-- What holds of a new store and is kept by every advance holds throughout such a session. -/
lemma induction {P : Store → Prop} (h : s.LeftToLowering) (start : ∀ options, P (Store.new options))
    (advance : ∀ s t, Advance s t → P s → P t) : P s := by
  obtain ⟨options, ops, replies, leaves, hops⟩ := h
  exact (runAll_advances leaves hops).induction (start options) advance

/-- The session may go on. -/
lemma runAll {ops : List Operation} {replies : List Reply} (h : s.LeftToLowering)
    (leaves : ∀ op ∈ ops, op.leavesDebugTypes = true) (hops : s.runAll ops = .ok (replies, t)) :
    t.LeftToLowering := by
  obtain ⟨options, before, replies', hbefore, hrun⟩ := h
  refine ⟨options, before ++ ops, replies' ++ replies, ?_, ?_⟩
  · intro op hop
    exact (List.mem_append.1 hop).elim (hbefore op) (leaves op)
  · simp [runAll_append, hrun, hops, bind, Except.bind, pure, Except.pure]

lemma run (h : s.LeftToLowering) (leaves : op.leavesDebugTypes = true)
    (hop : s.run op = .ok (reply, t)) : t.LeftToLowering := by
  have hone : s.runAll [op] = .ok ([reply], t) := by
    simp [Store.runAll, hop, bind, Except.bind, pure, Except.pure]
  exact h.runAll (by simpa using leaves) hone

end LeftToLowering

end Store

end ShaderTypes
