import ShaderTypes.Proofs.TypeTable.Identity
import ShaderTypes.Store.Registry

/-!
# What the small operations leave alone

Every operation on the store is put together from a few small ones.  Each of these touches one or
two parts of the store; the lemmas here say which parts stay, and that nodes and entries are only
added behind those that are there.
-/

namespace ShaderTypes

namespace OrderedMap

variable {κ ν : Type} [DecidableEq κ] {m m' : OrderedMap κ ν} {k : κ} {v w : ν}

/-- What is found under a key is still found when entries are added at the end. -/
lemma get?_append {more : List (κ × ν)} (h : m'.entries = m.entries ++ more)
    (hk : m.get? k = some v) : m'.get? k = some v := by
  rw [get?, h, List.lookup_append]
  rw [get?] at hk
  simp [hk]

/-- What is found in the longer map was found before, or is one of the new entries. -/
lemma get?_append_cases {more : List (κ × ν)} (h : m'.entries = m.entries ++ more)
    (hk : m'.get? k = some v) : m.get? k = some v ∨ m.get? k = none ∧ (k, v) ∈ more := by
  rw [get?, h, List.lookup_append] at hk
  cases hm : m.entries.lookup k with
  | some w =>
    rw [hm, Option.some_or, Option.some.injEq] at hk
    exact Or.inl (by rw [get?, hm, hk])
  | none =>
    rw [hm, Option.none_or] at hk
    obtain ⟨l₁, l₂, hmore, -⟩ := List.lookup_eq_some_iff.1 hk
    exact Or.inr ⟨hm, hmore ▸ List.mem_append_right _ List.mem_cons_self⟩

lemma mem_values_of_get? (h : m.get? k = some v) : v ∈ m.values := by
  obtain ⟨before, after, hentries, -⟩ := List.lookup_eq_some_iff.1 h
  rw [values, hentries]
  exact List.mem_map.2 ⟨(k, v), List.mem_append_right _ List.mem_cons_self, rfl⟩

lemma mem_values_insert (h : w ∈ (m.insert k v).values) : w = v ∨ w ∈ m.values := by
  obtain ⟨entries⟩ := m
  induction entries with
  | nil =>
    refine Or.inl ?_
    simpa [values, insert, insertEntry] using h
  | cons entry rest ih =>
    by_cases hentry : entry.1 = k
    · simp only [values, insert, insertEntry, if_pos hentry, List.map_cons, List.mem_cons] at h ⊢
      tauto
    · simp only [values, insert, insertEntry, if_neg hentry, List.map_cons, List.mem_cons] at h ih ⊢
      tauto

end OrderedMap

namespace Debug.NodeTable

variable {t t' : NodeTable} {n m : NodeId} {f : Node → Node} {node : Node} {e : Entry}

lemma node?_lt (h : t.node? n = some node) : n.index < t.size :=
  (List.getElem?_eq_some_iff.1 h).1

lemma exists_node? (h : n.index < t.size) : ∃ node, t.node? n = some node :=
  ⟨_, List.getElem?_eq_getElem h⟩

/-- Nodes are still there when others are added behind them. -/
lemma node?_mono (h : t.nodes <+: t'.nodes) (hn : t.node? n = some node) :
    t'.node? n = some node := by
  obtain ⟨more, hmore⟩ := h
  rw [node?, ← hmore, List.getElem?_append_left (node?_lt hn)]
  exact hn

lemma node?_push_cases (h : (t.push e).node? n = some node) :
    t.node? n = some node ∨ n.index = t.size ∧ node = { entry := e } := by
  rcases Nat.lt_or_ge n.index t.size with hlt | hge
  · rw [node?_push_of_lt hlt] at h
    exact Or.inl h
  · have hlast := node?_lt h
    rw [size_push] at hlast
    have hn : n = ⟨t.size⟩ := by
      cases n
      simp only [NodeId.mk.injEq] at hge hlast ⊢
      omega
    subst hn
    rw [node?_push_size, Option.some.injEq] at h
    exact Or.inr ⟨rfl, h.symm⟩

lemma node?_modify : (t.modify n f).node? m = if m = n then (t.node? m).map f else t.node? m := by
  by_cases hm : m = n
  · rw [if_pos hm, hm, node?_modify_self]
  · rw [if_neg hm, node?_modify_of_ne hm]

lemma node?_modify_cases (h : (t.modify n f).node? m = some node) :
    ∃ old, t.node? m = some old ∧ (node = old ∨ m = n ∧ node = f old) := by
  rw [node?_modify] at h
  split at h
  case isTrue hm =>
    obtain ⟨old, hold, rfl⟩ := Option.map_eq_some_iff.1 h
    exact ⟨old, hold, Or.inr ⟨hm, rfl⟩⟩
  case isFalse => exact ⟨node, h, Or.inl rfl⟩

/-- A change of a node that leaves one thing about it leaves that of every node. -/
lemma map_node?_modify {α : Type} {g : Node → α} (hf : ∀ node, g (f node) = g node) :
    ((t.modify n f).node? m).map g = (t.node? m).map g := by
  rw [node?_modify]
  split
  · rw [Option.map_map]
    exact congrArg (Option.map · (t.node? m)) (funext hf)
  · rfl

/-- A change of what is filled in later leaves what the instructions say. -/
lemma entry?_modify (hf : ∀ node, (f node).entry = node.entry) :
    NodeTable.entry? (t.modify n f) m = t.entry? m :=
  map_node?_modify hf

lemma entry?_of_node? (h : t.node? n = some node) : t.entry? n = some node.entry := by
  rw [NodeTable.entry?, h, Option.map_some]

/-- What an instruction says is still there when nodes are added behind. -/
lemma entry?_mono (h : t.nodes <+: t'.nodes) (he : t.entry? n = some e) : t'.entry? n = some e := by
  obtain ⟨node, hnode, rfl⟩ := Option.map_eq_some_iff.1 he
  exact entry?_of_node? (node?_mono h hnode)

lemma entry?_lt (h : t.entry? n = some e) : n.index < t.size := by
  obtain ⟨node, hnode, -⟩ := Option.map_eq_some_iff.1 h
  exact node?_lt hnode

lemma entry?_push_cases {e' : Entry} (h : NodeTable.entry? (t.push e) n = some e') :
    t.entry? n = some e' ∨ n = ⟨t.size⟩ ∧ e' = e := by
  obtain ⟨node, hnode, rfl⟩ := Option.map_eq_some_iff.1 h
  rcases node?_push_cases hnode with hold | ⟨hn, rfl⟩
  · exact Or.inl (entry?_of_node? hold)
  · cases n
    exact Or.inr ⟨congrArg NodeId.mk hn, rfl⟩

lemma composite?_eq_some {c : Composite} :
    t.composite? n = some c ↔ t.entry? n = some (.composite c) := by
  rw [composite?]
  cases t.entry? n with
  | none => simp
  | some e => cases e <;> simp [Entry.composite?]

end Debug.NodeTable

namespace Store

variable {s : Store} {n m : NodeId} {a : TypeId} {b : BuilderId} {e : Debug.Entry}
  {key : Option TypeId} {name : String} {shape : Shape} {f : Debug.Node → Debug.Node}

/-! ### Parts that stay -/

@[simp]
lemma types_openFile : (s.openFile name).2.types = s.types := by
  unfold openFile
  split <;> rfl

@[simp]
lemma debugTypes_openFile : (s.openFile name).2.debugTypes = s.debugTypes := by
  unfold openFile
  split <;> rfl

@[simp]
lemma unkeyed_openFile : (s.openFile name).2.unkeyed = s.unkeyed := by
  unfold openFile
  split <;> rfl

@[simp]
lemma methods_openFile : (s.openFile name).2.methods = s.methods := by
  unfold openFile
  split <;> rfl

@[simp]
lemma types_keyedNode : (s.keyedNode key e).2.types = s.types := by
  unfold keyedNode
  split <;> rfl

@[simp]
lemma unkeyed_keyedNode : (s.keyedNode key e).2.unkeyed = s.unkeyed := by
  unfold keyedNode
  split <;> rfl

@[simp]
lemma files_keyedNode : (s.keyedNode key e).2.files = s.files := by
  unfold keyedNode
  split <;> rfl

@[simp]
lemma methods_keyedNode : (s.keyedNode key e).2.methods = s.methods := by
  unfold keyedNode
  split <;> rfl

/-! ### Types and nodes that stay -/

lemma shapes_le_keyedNode : s.types.shapes <+: (s.keyedNode key e).2.types.shapes := by
  simp

lemma nodes_le_openFile : s.nodes.nodes <+: (s.openFile name).2.nodes.nodes := by
  unfold openFile
  split
  · exact List.prefix_refl _
  · exact (List.prefix_append _ _).trans (List.prefix_append _ _)

lemma nodes_le_keyedNode : s.nodes.nodes <+: (s.keyedNode key e).2.nodes.nodes := by
  unfold keyedNode
  split
  · exact List.prefix_refl _
  · exact List.prefix_append _ _

lemma nodes_le_unkeyedNode : s.nodes.nodes <+: (s.unkeyedNode e).2.nodes.nodes :=
  List.prefix_append _ _

/-- A stamp changes nothing but the marks of one node. -/
lemma nodes_stamp : (s.stamp n b).nodes = s.nodes.modify n fun node =>
    { node with resultType := some (s.types.intern .void).1, instructionSet := some b } := by
  have hmodify : (s.stamp n b).nodes = (s.nodes.modify n
      ({ · with resultType := some (s.types.intern .void).1 })).modify n
      ({ · with instructionSet := some b }) := rfl
  rw [hmodify, Debug.NodeTable.modify, Debug.NodeTable.modify, Debug.NodeTable.modify,
    List.modify_modify_eq]
  rfl

@[simp]
lemma entry?_stamp : (s.stamp n b).nodes.entry? m = s.nodes.entry? m := by
  rw [nodes_stamp]
  exact Debug.NodeTable.entry?_modify fun _ => rfl

/-- A change of one node leaves what the others say. -/
lemma entry?_modifyNode_of_ne (h : m ≠ n) :
    (s.modifyNode n f).nodes.entry? m = s.nodes.entry? m := by
  rw [modifyNode, Debug.NodeTable.entry?, Debug.NodeTable.node?_modify_of_ne h]
  rfl

/-! ### Nodes that are made -/

/-- Under a key that is not listed a new node is made and listed. -/
lemma keyedNode_of_get?_eq_none (h : s.debugTypes.get? key = none) :
    s.keyedNode key e = (⟨s.nodes.size⟩,
      { s with nodes := s.nodes.push e, debugTypes := s.debugTypes.insert key ⟨s.nodes.size⟩ }) := by
  rw [keyedNode, h]
  rfl

/-- A file that is not known is opened with two new nodes. -/
lemma openFile_of_get?_eq_none (h : s.files.get? name = none) :
    s.openFile name = ({ source := ⟨s.nodes.size⟩, unit := ⟨s.nodes.size + 1⟩ },
      { s with
        nodes := (s.nodes.push (.source { file := name })).push (.compilationUnit
          { spirvVersion, dwarfVersion := s.options.dwarfVersion, source := ⟨s.nodes.size⟩,
            language := sourceLanguage })
        files := s.files.insert name
          { source := ⟨s.nodes.size⟩, unit := ⟨s.nodes.size + 1⟩ } }) := by
  rw [openFile, h]
  simp [addNode]

/-- A template is found, or it is a new node that is listed apart and attached to a composite. -/
lemma template_eq_ok {target template : NodeId} {t : Store}
    (h : s.template a target = .ok (template, t)) :
    t = s ∨ ∃ n, t = (s.unkeyedNode (.template { target })).2.modifyNode n fun node =>
      { node with
        entry := node.entry.mapComposite ({ · with template := some ⟨s.nodes.size⟩ }) } := by
  rw [Store.template] at h
  split at h
  · cases h
  · split at h
    · cases h
    · split at h
      · cases h
        exact Or.inl rfl
      · cases h
        exact Or.inr ⟨_, rfl⟩

/-- What is listed under other keys stays. -/
lemma get?_debugTypes_keyedNode_of_ne {k l : Option TypeId} (h : l ≠ k) :
    (s.keyedNode k e).2.debugTypes.get? l = s.debugTypes.get? l := by
  rcases hkey : s.debugTypes.get? k with _ | n
  · rw [keyedNode_of_get?_eq_none hkey]
    exact OrderedMap.get?_insert_of_ne h
  · rw [keyedNode_of_get? hkey]

/-- The new node under a key that was not listed says what it was made with. -/
lemma entry?_keyedNode_of_get?_eq_none (h : s.debugTypes.get? key = none) :
    (s.keyedNode key e).2.nodes.entry? (s.keyedNode key e).1 = some e := by
  rw [keyedNode_of_get?_eq_none h]
  exact Debug.NodeTable.entry?_of_node? Debug.NodeTable.node?_push_size

end Store

end ShaderTypes
