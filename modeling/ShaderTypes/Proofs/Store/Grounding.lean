import ShaderTypes.Proofs.Store.Advance

/-!
# No reference out of the tables

Whatever an instruction, a source file or a saved method refers to is a node that there is, and so
is every type that an instruction mentions.  Operations take known handles only, and what lowering
puts into a node it has made or found before.

So an instruction that was there says nothing about what is made later.
-/

namespace ShaderTypes

namespace Store

/-- Instructions, files and methods refer to nodes and types of the tables only. -/
structure Grounded (s : Store) : Prop where
  nodes : ∀ {n : NodeId} {e : Debug.Entry}, s.nodes.entry? n = some e →
    ∀ m ∈ e.nodes, m.index < s.nodes.size
  types : ∀ {n : NodeId} {e : Debug.Entry}, s.nodes.entry? n = some e →
    ∀ a ∈ e.types, a.index < s.types.size
  files : ∀ {name : String} {file : Debug.File}, s.files.get? name = some file →
    ∀ m ∈ file.source :: file.scopes, m.index < s.nodes.size
  methods : ∀ {id : Decl.MethodId} {n : NodeId}, s.function? id = some n →
    n.index < s.nodes.size

variable {s t : Store} {a : TypeId} {n m : NodeId} {b : BuilderId} {e : Debug.Entry}
  {key : Option TypeId} {name : String}

lemma grounded_new (options : Options) : (Store.new options).Grounded where
  nodes := by simp [new, Debug.NodeTable.entry?, Debug.NodeTable.node?]
  types := by simp [new, Debug.NodeTable.entry?, Debug.NodeTable.node?]
  files := fun h => by cases h
  methods := fun h => by cases h

/-! ### The small operations -/

namespace Grounded

lemma of_grows {types : TypeTable} (hs : s.Grounded) (h : s.types.Grows types) :
    ({ s with types } : Store).Grounded where
  nodes := hs.nodes
  types := fun he a ha => Nat.lt_of_lt_of_le (hs.types he a ha) h.shapes_le.length_le
  files := hs.files
  methods := hs.methods

lemma internType {x : Shape} (hs : s.Grounded) (operandless : x.operands = []) :
    (s.internType x).2.Grounded :=
  hs.of_grows (TypeTable.Grows.refl.intern (by simp [operandless]))

lemma addNode (hs : s.Grounded) (nodes : ∀ m ∈ e.nodes, m.index < s.nodes.size)
    (types : ∀ a ∈ e.types, a.index < s.types.size) : (s.addNode e).2.Grounded := by
  have hsize : (s.addNode e).2.nodes.size = s.nodes.size + 1 := Debug.NodeTable.size_push
  refine ⟨fun he m hm => ?_, fun he a ha => ?_, fun hfile m hm => ?_, fun hmethod => ?_⟩
  · rw [hsize]
    rcases Debug.NodeTable.entry?_push_cases he with hold | ⟨-, rfl⟩
    · exact Nat.lt_succ_of_lt (hs.nodes hold m hm)
    · exact Nat.lt_succ_of_lt (nodes m hm)
  · rcases Debug.NodeTable.entry?_push_cases he with hold | ⟨-, rfl⟩
    · exact hs.types hold a ha
    · exact types a ha
  · rw [hsize]
    exact Nat.lt_succ_of_lt (hs.files hfile m hm)
  · rw [hsize]
    exact Nat.lt_succ_of_lt (hs.methods hmethod)

/-- A change of a node that adds no more than references to nodes of the table. -/
lemma modifyNode {f : Debug.Node → Debug.Node} (hs : s.Grounded)
    (nodes : ∀ node : Debug.Node, ∀ m ∈ (f node).entry.nodes,
      m ∈ node.entry.nodes ∨ m.index < s.nodes.size)
    (types : ∀ node : Debug.Node, (f node).entry.types = node.entry.types) :
    (s.modifyNode n f).Grounded := by
  have hsize : (s.modifyNode n f).nodes.size = s.nodes.size := Debug.NodeTable.size_modify
  refine ⟨fun he m hm => ?_, fun he a ha => ?_, fun hfile m hm => ?_, fun hmethod => ?_⟩
  · rw [hsize]
    obtain ⟨node, hnode, rfl⟩ := Option.map_eq_some_iff.1 he
    obtain ⟨old, hold, rfl | ⟨-, rfl⟩⟩ := Debug.NodeTable.node?_modify_cases hnode
    · exact hs.nodes (Debug.NodeTable.entry?_of_node? hold) m hm
    · rcases nodes old m hm with hm | hm
      · exact hs.nodes (Debug.NodeTable.entry?_of_node? hold) m hm
      · exact hm
  · obtain ⟨node, hnode, rfl⟩ := Option.map_eq_some_iff.1 he
    obtain ⟨old, hold, rfl | ⟨-, rfl⟩⟩ := Debug.NodeTable.node?_modify_cases hnode
    · exact hs.types (Debug.NodeTable.entry?_of_node? hold) a ha
    · exact hs.types (Debug.NodeTable.entry?_of_node? hold) a (types old ▸ ha)
  · rw [hsize]
    exact hs.files hfile m hm
  · rw [hsize]
    exact hs.methods hmethod

/-- A change of what is filled in beside the entry. -/
lemma modifyNode_of_entry {f : Debug.Node → Debug.Node} (hs : s.Grounded)
    (hf : ∀ node, (f node).entry = node.entry) : (s.modifyNode n f).Grounded :=
  hs.modifyNode (fun node m hm => Or.inl (hf node ▸ hm)) fun node => by rw [hf]

/-- A change of a composite that adds no more than references to nodes of the table. -/
lemma mapComposite {f : Debug.Composite → Debug.Composite} (hs : s.Grounded)
    (nodes : ∀ c, ∀ m ∈ (Debug.Entry.composite (f c)).nodes,
      m ∈ (Debug.Entry.composite c).nodes ∨ m.index < s.nodes.size) :
    (s.modifyNode n fun node =>
      { node with entry := node.entry.mapComposite f }).Grounded := by
  refine hs.modifyNode (fun node m hm => ?_) fun node => ?_
  · obtain ⟨e, _, _, _⟩ := node
    cases e with
    | composite c => exact nodes c m hm
    | _ => exact Or.inl hm
  · rcases node.entry <;> rfl

lemma pushMember (hs : s.Grounded) (known : m.index < s.nodes.size) :
    (s.pushMember n m).Grounded := by
  refine hs.mapComposite fun c l hl => ?_
  simp only [Debug.Entry.nodes, List.mem_append, List.mem_singleton] at hl ⊢
  rcases hl with (hl | hl | rfl) | hl
  · exact Or.inl (Or.inl (Or.inl hl))
  · exact Or.inl (Or.inl (Or.inr hl))
  · exact Or.inr known
  · exact Or.inl (Or.inr hl)

lemma setSize {size : UInt32} (hs : s.Grounded) : (s.setSize n size).Grounded :=
  hs.mapComposite fun _ _ => Or.inl

lemma pushParam (hs : s.Grounded) (known : m.index < s.nodes.size) : (s.pushParam n m).Grounded := by
  refine hs.modifyNode (fun node l hl => ?_) fun node => ?_
  · obtain ⟨e, _, _, _⟩ := node
    cases e with
    | template e =>
      simp only [Debug.Entry.mapTemplate, Debug.Entry.nodes, List.mem_cons, List.mem_append,
        List.not_mem_nil, or_false] at hl ⊢
      rcases hl with hl | hl | rfl
      · exact Or.inl (Or.inl hl)
      · exact Or.inl (Or.inr hl)
      · exact Or.inr known
    | _ => exact Or.inl hl
  · rcases node.entry <;> rfl

lemma setResultType (hs : s.Grounded) : (s.setResultType n a).Grounded :=
  hs.modifyNode_of_entry fun _ => rfl

lemma setInstructionSet (hs : s.Grounded) : (s.setInstructionSet n b).Grounded :=
  hs.modifyNode_of_entry fun _ => rfl

lemma stamp (hs : s.Grounded) : (s.stamp n b).Grounded := by
  have void : (s.internType .void).2.Grounded := hs.internType rfl
  exact void.setResultType.setInstructionSet

lemma keyedNode (hs : s.Grounded) (nodes : ∀ m ∈ e.nodes, m.index < s.nodes.size)
    (types : ∀ a ∈ e.types, a.index < s.types.size) : (s.keyedNode key e).2.Grounded := by
  have added := hs.addNode nodes types
  unfold Store.keyedNode
  split
  · exact hs
  · exact ⟨added.nodes, added.types, added.files, added.methods⟩

lemma unkeyedNode (hs : s.Grounded) (nodes : ∀ m ∈ e.nodes, m.index < s.nodes.size)
    (types : ∀ a ∈ e.types, a.index < s.types.size) : (s.unkeyedNode e).2.Grounded :=
  have added := hs.addNode nodes types
  ⟨added.nodes, added.types, added.files, added.methods⟩

/-- A file is known with other open scopes, or for the first time. -/
lemma insertFile {file : Debug.File} {scope : Option NodeId} (hs : s.Grounded)
    (known : ∀ m ∈ file.source :: file.scopes, m.index < s.nodes.size) :
    ({ s with files := s.files.insert name file, currentScope := scope } : Store).Grounded where
  nodes := hs.nodes
  types := hs.types
  files := by
    intro name' file' hfile
    by_cases hname : name' = name
    · subst hname
      obtain rfl : file = file' := Option.some.inj (OrderedMap.get?_insert_self.symm.trans hfile)
      exact known
    · exact hs.files ((OrderedMap.get?_insert_of_ne hname).symm.trans hfile)
  methods := hs.methods

lemma openFile (hs : s.Grounded) : (s.openFile name).2.Grounded := by
  unfold Store.openFile
  split
  · exact hs
  · have hsource : (s.addNode (.source { file := name })).2.Grounded :=
      hs.addNode (by simp [Debug.Entry.nodes]) (by simp [Debug.Entry.types, Debug.Entry.type?,
        Debug.Entry.constant?])
    have hunit := hsource.addNode (e := .compilationUnit
      { spirvVersion, dwarfVersion := s.options.dwarfVersion, source := ⟨s.nodes.size⟩,
        language := sourceLanguage })
      (by simp [Debug.Entry.nodes, Store.addNode])
      (by simp [Debug.Entry.types, Debug.Entry.type?, Debug.Entry.constant?])
    refine hunit.insertFile fun m hm => ?_
    simp only [Store.addNode, Debug.NodeTable.size_push, Debug.File.scopes, List.reverse_nil,
      List.mem_cons, List.not_mem_nil, or_false] at hm ⊢
    rcases hm with rfl | rfl
    · exact Nat.lt_succ_of_lt (Nat.lt_succ_self _)
    · exact Nat.lt_succ_self _

lemma pushScope (hs : s.Grounded) (known : n.index < s.nodes.size) :
    (s.pushScope name n).Grounded := by
  have opened : (s.openFile name).2.Grounded := hs.openFile
  refine opened.insertFile fun m hm => ?_
  have hfile := opened.files get?_files_openFile
  rw [List.mem_cons, Debug.File.scopes_push, List.mem_append, List.mem_singleton] at hm
  rcases hm with rfl | hm | rfl
  · exact hfile _ List.mem_cons_self
  · exact hfile m (List.mem_cons_of_mem _ hm)
  · exact Nat.lt_of_lt_of_le known nodes_le_openFile.length_le

lemma popScope (hs : s.Grounded) (h : s.popScope name = .ok t) : t.Grounded := by
  obtain ⟨file, scope, hopened, rfl⟩ := popScope_eq_ok h
  refine hs.insertFile fun m hm => hs.files hopened m ?_
  rw [Debug.File.scopes_push]
  rcases List.mem_cons.1 hm with rfl | hm
  · exact List.mem_cons_self
  · exact List.mem_cons_of_mem _ (List.mem_append_left _ hm)

lemma saveFunction {method : Decl.MethodId} (hs : s.Grounded) (known : n.index < s.nodes.size) :
    (s.saveFunction method n).Grounded where
  nodes := hs.nodes
  types := hs.types
  files := hs.files
  methods := by
    intro id m hm
    by_cases hid : id = method
    · subst hid
      obtain rfl : n = m := Option.some.inj (OrderedMap.get?_insert_self.symm.trans hm)
      exact known
    · exact hs.methods ((OrderedMap.get?_insert_of_ne hid).symm.trans hm)

lemma template {target template : NodeId} (hs : s.Grounded) (known : target.index < s.nodes.size)
    (h : s.template a target = .ok (template, t)) : t.Grounded := by
  rcases template_eq_ok h with rfl | ⟨n, rfl⟩
  · exact hs
  · have made : (s.unkeyedNode (.template { target })).2.Grounded :=
      hs.unkeyedNode (by simpa [Debug.Entry.nodes] using known)
        (by simp [Debug.Entry.types, Debug.Entry.type?, Debug.Entry.constant?])
    refine made.mapComposite fun c m hm => ?_
    simp only [Debug.Entry.nodes, List.mem_append, Option.toList_some,
      List.mem_singleton] at hm ⊢
    rcases hm with hm | rfl
    · exact Or.inl (Or.inl hm)
    · exact Or.inr (by simp [Store.unkeyedNode, Store.addNode])

end Grounded

end Store

/-! ### Lowering -/

namespace Lowering

open Store

variable {s t : Store} {a : TypeId} {n : NodeId} {b : BuilderId} {e : Debug.Entry}

lemma nodes_lt_of_builds {types : TypeTable} {x : Shape} {nodes : List NodeId} {bound : Nat}
    (h : types.Builds x nodes e) (known : ∀ m ∈ nodes, m.index < bound) :
    (∀ m ∈ e.nodes, m.index < bound) ∧ e.types = [] := by
  cases h <;> exact ⟨by simpa [Debug.Entry.nodes] using known, rfl⟩

/-- The constant operand of an initializer has a type of the table. -/
lemma grounded_literalConstant (hs : s.Grounded) (value : Option Literal) :
    (literalConstant s value).2.Grounded ∧
      ∀ c, (literalConstant s value).1 = some c →
        c.type.index < (literalConstant s value).2.types.size := by
  have typed (x : Shape) : (s.internType x).1.index < (s.internType x).2.types.size :=
    TypeTable.intern_fst_lt s.types x
  rcases value with _ | v
  · exact ⟨hs, fun c hc => by cases hc⟩
  · cases v with
    | int v =>
      refine ⟨hs.internType rfl, ?_⟩
      rintro c ⟨⟩
      exact typed _
    | float v =>
      refine ⟨hs.internType rfl, ?_⟩
      rintro c ⟨⟩
      exact typed _
    | bool v =>
      refine ⟨hs.internType rfl, ?_⟩
      rintro c ⟨⟩
      exact typed _
    | other => exact ⟨hs, fun c hc => by cases hc⟩

lemma grounded_addMember {composite type : NodeId} {extent : Extent} {decl : Decl.Field}
    {field : Field} (hs : s.Grounded) (hc : composite.index < s.nodes.size)
    (ht : type.index < s.nodes.size) :
    (addMember b s composite extent decl field type).2.Grounded := by
  obtain ⟨hvalue, typed⟩ := grounded_literalConstant hs decl.value
  have hopen : (openMember s decl).Grounded := hvalue.openFile
  have hle : s.nodes.size ≤ (openMember s decl).nodes.size := nodes_le_openMember.length_le
  have hfile := hopen.files get?_files_openFile
  have made : ((openMember s decl).unkeyedNode
      (memberEntry s composite extent decl field type)).2.Grounded := by
    refine hopen.unkeyedNode (fun m hm => ?_) fun a ha => ?_
    · simp only [memberEntry, Debug.Entry.nodes, List.mem_cons, List.not_mem_nil, or_false] at hm
      rcases hm with rfl | rfl | rfl
      · exact Nat.lt_of_lt_of_le ht hle
      · exact hfile _ List.mem_cons_self
      · exact Nat.lt_of_lt_of_le hc hle
    · simp only [memberEntry, Debug.Entry.types, Debug.Entry.type?, Debug.Entry.constant?,
        Option.toList_none, List.nil_append, List.mem_map, Option.mem_toList] at ha
      obtain ⟨c, hc, rfl⟩ := ha
      rw [openMember, types_openFile]
      exact typed c hc
  rw [addMember_snd]
  refine made.stamp.pushMember ?_
  rw [nodes_stamp, Debug.NodeTable.size_modify]
  exact Nat.lt_of_lt_of_eq (Nat.lt_succ_self _) Debug.NodeTable.size_push.symm

/-- A lowering of a grounded store leaves a grounded one, in which its node is known. -/
structure Grounds (s t : Store) (n : NodeId) : Prop where
  size_le : s.nodes.size ≤ t.nodes.size
  sound : t.Sound
  grounded : t.Grounded
  lt : n.index < t.nodes.size

lemma grounds_of_lower (h : lower b a s = .ok (n, t)) (sound : s.Sound) (ht : t.Grounded) :
    Grounds s t n where
  size_le := (lower_changes h).size_le
  sound := (edits_of_changes (lower_changes h)).sound sound
  grounded := ht
  lt := ((edits_of_changes (lower_changes h)).sound sound).listed n
    (List.mem_append_left _ (advances_of_lower h).2)

section Pieces

variable {R : TypeId → Store → NodeId → Store → Prop}
  (hR : ∀ u s n t, R u s n t → s.Sound → s.Grounded → Grounds s t n)
include hR

lemma Chain.grounded {as : List TypeId} {ns : List NodeId} (h : Chain R as s ns t)
    (sound : s.Sound) (hs : s.Grounded) :
    s.nodes.size ≤ t.nodes.size ∧ t.Grounded ∧ ∀ m ∈ ns, m.index < t.nodes.size := by
  induction h with
  | nil => exact ⟨Nat.le_refl _, hs, by simp⟩
  | cons head tail ih =>
    have grounds := hR _ _ _ _ head sound hs
    obtain ⟨hle, ht, htail⟩ := ih grounds.sound grounds.grounded
    refine ⟨Nat.le_trans grounds.size_le hle, ht, List.forall_mem_cons.2 ⟨?_, htail⟩⟩
    exact Nat.lt_of_lt_of_le grounds.lt hle

lemma Filling.grounded {slots : List Slot} {extent extent' : Extent}
    (h : Filling R b n slots extent s extent' t) (sound : s.Sound) (hs : s.Grounded)
    (hn : n.index < s.nodes.size) : t.Grounded := by
  induction h with
  | nil => exact hs
  | @method _ _ _ _ function s _ saved _ ih =>
    have push : Changes b (fun _ _ => True) 0 s (s.pushMember n function) := changes_pushMember
    refine ih ((edits_of_changes push).sound sound) (hs.pushMember (hs.methods saved)) ?_
    exact Nat.lt_of_lt_of_le hn push.size_le
  | @data decl field _ extent _ type s s' _ head _ ih =>
    have grounds := hR _ _ _ _ head sound hs
    have member : Changes b (fun _ _ => True) 0 s' (addMember b s' n extent decl field type).2 :=
      changes_addMember (Nat.zero_le _) (Nat.zero_le _)
    have hn' := Nat.lt_of_lt_of_le hn grounds.size_le
    refine ih ((edits_of_changes member).sound grounds.sound) ?_ ?_
    · exact grounded_addMember grounds.grounded hn' grounds.lt
    · exact Nat.lt_of_lt_of_le hn' member.size_le

lemma Composing.grounded {struct : Struct} {record : Decl.Record}
    (h : Composing R b a struct record s n t) (sound : s.Sound) (hs : s.Grounded) :
    t.Grounded := by
  have opened (tag : Debug.CompositeTag) : (openComposite s a struct record tag).2.Grounded := by
    have file : (s.openFile record.location.file).2.Grounded := hs.openFile
    have known := file.files get?_files_openFile
    rw [openComposite_eq]
    refine file.keyedNode (fun m hm => ?_) (by simp [Debug.Entry.types, Debug.Entry.type?,
      Debug.Entry.constant?])
    simp only [Debug.Entry.nodes, heading, Option.toList_none, List.append_nil, List.mem_cons,
      List.not_mem_nil, or_false] at hm
    rcases hm with rfl | rfl
    · exact known _ List.mem_cons_self
    · exact known _ (List.mem_cons_of_mem _ List.mem_cons_self)
  cases h with
  | found => exact opened _
  | @filled tag _ _ _ _ _ _ _ slots =>
    have changes : Changes b (fun _ _ => True) 0 s (openComposite s a struct record tag).2 :=
      changes_openComposite trivial
    have sound' := (edits_of_changes changes).sound sound
    refine (slots.grounded hR sound' (opened tag) (sound'.listed _ ?_)).setSize
    exact List.mem_append_left _ (OrderedMap.mem_values_of_get? debugType?_openComposite)

end Pieces

end Lowering

open Lowering Store

/-- Lowering refers to nothing that is not there. -/
theorem grounded_lower {b : BuilderId} {a : TypeId} {s t : Store} {n : NodeId}
    (h : lower b a s = .ok (n, t)) (sound : s.Sound) (hs : s.Grounded) : t.Grounded := by
  refine lower_induction (P := fun _ s _ t => s.Sound → s.Grounded → t.Grounded) ?_ h sound hs
  intro a s n t _ hstep sound hs
  have hR (u : TypeId) (r : Store) (m : NodeId) (r' : Store)
      (hu : Lowered b (fun _ s _ t => s.Sound → s.Grounded → t.Grounded) a u r m r')
      (sound : r.Sound) (hr : r.Grounded) : Grounds r r' m :=
    grounds_of_lower hu.run sound (hu.kept sound hr)
  cases hstep with
  | listed => exact hs
  | pointer _ _ pointee => exact pointee.kept sound hs
  | basic =>
    have word : (s.internType (.integer 32 false)).2.Grounded := hs.internType rfl
    refine (word.keyedNode (by simp [Debug.Entry.nodes]) ?_).stamp
    intro w hw
    obtain rfl := List.mem_singleton.1 hw
    exact TypeTable.intern_fst_lt s.types (.integer 32 false)
  | built _ _ parts he =>
    obtain ⟨-, hparts, known⟩ := parts.grounded hR sound hs
    obtain ⟨hnodes, htypes⟩ := nodes_lt_of_builds he known
    exact (hparts.keyedNode hnodes (by simp [htypes])).stamp
  | composite _ _ _ composing => exact (composing.grounded hR sound hs).stamp
  | placeholder =>
    refine (hs.keyedNode ?_ ?_).stamp
    · simp [Debug.Entry.nodes]
    · simp [Debug.Entry.types, Debug.Entry.type?, Debug.Entry.constant?]

namespace Store

variable {s t : Store} {b : BuilderId} {op : Operation} {reply : Reply}

lemma grounded_of_walk {instructions : List NodeId} (h : Lowering.Walk b instructions s t)
    (sound : s.Sound) (hs : s.Grounded) : t.Grounded := by
  induction h with
  | nil => exact hs
  | untyped _ _ ih => exact ih (edits_stamp.sound sound) hs.stamp
  | typed _ lowered _ ih =>
    have sound' := (edits_of_changes (lower_changes lowered)).sound (edits_stamp.sound sound)
    refine ih (edits_withDebugType.sound sound') ?_
    exact (grounded_lower lowered (edits_stamp.sound sound) hs.stamp).modifyNode_of_entry
      fun _ => rfl

/-! ### All operations -/

lemma Grounded.of_fills (hs : s.Grounded) (h : s.Fills op t) : t.Grounded := by
  cases h with
  | pushMember known => exact hs.pushMember known
  | setSize => exact hs.setSize
  | pushParam known => exact hs.pushParam known
  | setResultType => exact hs.setResultType
  | setInstructionSet => exact hs.setInstructionSet
  | setDebugType => exact hs.modifyNode_of_entry fun _ => rfl

/-- An operation refers to nothing that is not there. -/
theorem grounded_of_run (sound : s.Sound) (hs : s.Grounded) (h : s.run op = .ok (reply, t)) :
    t.Grounded := by
  cases effect_of_run h with
  | idle => exact ⟨hs.nodes, hs.types, hs.files, hs.methods⟩
  | types grants => exact hs.of_grows grants.grows
  | add _ known => exact hs.addNode known.nodes known.types
  | keyed _ known => exact hs.keyedNode known.nodes known.types
  | unkeyed _ known => exact hs.unkeyedNode known.nodes known.types
  | fill fills => exact hs.of_fills fills
  | opened => exact hs.openFile
  | pushScope known => exact hs.pushScope known
  | popScope popped => exact hs.openFile.popScope popped
  | saveFunction known => exact hs.saveFunction known
  | recordDebugType => exact ⟨hs.nodes, hs.types, hs.files, hs.methods⟩
  | template known attached => exact hs.template known attached
  | lower _ lowered => exact grounded_lower lowered sound hs
  | lowerComposite _ lowered =>
    refine (Lowering.composing_of_compositeWith lowered).grounded
      (fun u s n t hu sound hs => ?_) sound hs
    exact Lowering.grounds_of_lower hu sound (grounded_lower hu sound hs)
  | lowerModule _ walk => exact grounded_of_walk walk sound hs

/-- In every reachable store, whatever is referred to is there. -/
theorem Reachable.grounded (h : s.Reachable) : s.Grounded :=
  h.run_induction (fun sound hrun hs => grounded_of_run sound hs hrun) grounded_new

end Store

end ShaderTypes
