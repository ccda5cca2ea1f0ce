import ShaderTypes.Proofs.Store.Effect

/-!
# Edits and the soundness of reachable stores

Every operation, whatever it is, edits the store in six ways only.  `Store.run_edits` says so once
and for all; an invariant of reachable stores has to be checked for these six.

`Store.Sound` is the first such invariant: the type table is interned, no key is listed twice, and no
listed node and no result type is out of its table.
-/

namespace ShaderTypes.Store

/-- One edit of the store. -/
inductive Edit (s : Store) : Store → Prop
  | internType {x : Shape} (known : ∀ u ∈ x.operands, u.index < s.types.size) :
      Edit s (s.internType x).2
  | addNode {e : Debug.Entry} (known : ∀ a, e.type? = some a → a.index < s.types.size) :
      Edit s (s.addNode e).2
  | modifyNode {n : NodeId} {f : Debug.Node → Debug.Node}
      (type : ∀ node, (f node).entry.type? = node.entry.type?)
      (known : ∀ node a, (f node).resultType = some a →
        node.resultType = some a ∨ a.index < s.types.size) : Edit s (s.modifyNode n f)
  | list {key : Option TypeId} {n : NodeId} (known : n.index < s.nodes.size) :
      Edit s { s with debugTypes := s.debugTypes.insert key n }
  | listUnkeyed {n : NodeId} (known : n.index < s.nodes.size) :
      Edit s { s with unkeyed := s.unkeyed ++ [n] }
  | rest {options : Options} {texts : List String} {files : OrderedMap String Debug.File}
      {currentScope : Option NodeId} {methods : OrderedMap Decl.MethodId NodeId} :
      Edit s { s with options, texts, files, currentScope, methods }

/-- Edits one after the other. -/
inductive Edits (s : Store) : Store → Prop
  | refl : Edits s s
  | step {t u : Store} (h : Edits s t) (edit : Edit t u) : Edits s u

variable {s t u : Store} {a : TypeId} {n : NodeId} {b : BuilderId}

lemma Edit.edits (h : Edit s t) : Edits s t :=
  .step .refl h

lemma Edits.trans (h : Edits s t) (h' : Edits t u) : Edits s u := by
  induction h' with
  | refl => exact h
  | step _ edit ih => exact ih.step edit

/-- What every edit keeps is kept by all of them together. -/
lemma Edits.induction {P : Store → Prop} (h : Edits s t) (start : P s)
    (edit : ∀ s t, Edit s t → P s → P t) : P t := by
  induction h with
  | refl => exact start
  | step _ h ih => exact edit _ _ h ih

/-! ### The small operations -/

/-- A node that is no variable and no function, so that it has no type. -/
lemma edits_addNode {e : Debug.Entry} (untyped : e.type? = none) : Edits s (s.addNode e).2 := by
  refine Edit.edits (.addNode fun a ha => ?_)
  cases untyped.symm.trans ha

lemma edits_openFile {name : String} : Edits s (s.openFile name).2 := by
  unfold openFile
  split
  · exact .refl
  · exact ((edits_addNode rfl).trans (edits_addNode rfl)).step .rest

lemma edits_keyedNode {key : Option TypeId} {e : Debug.Entry} (untyped : e.type? = none) :
    Edits s (s.keyedNode key e).2 := by
  unfold keyedNode
  split
  · exact .refl
  · exact (edits_addNode untyped).step (.list (by simp [addNode]))

lemma edits_unkeyedNode {e : Debug.Entry} (untyped : e.type? = none) :
    Edits s (s.unkeyedNode e).2 :=
  (edits_addNode untyped).step (.listUnkeyed (by simp [addNode]))

/-- A change of a node that leaves its type and its result type. -/
lemma edits_modifyNode {f : Debug.Node → Debug.Node}
    (hf : ∀ node, (f node).entry.type? = node.entry.type? ∧
      (f node).resultType = node.resultType) : Edits s (s.modifyNode n f) :=
  Edit.edits (.modifyNode (fun node => (hf node).1) fun node _ h => Or.inl ((hf node).2 ▸ h))

/-- Filling in a composite leaves it without a type. -/
lemma edits_mapComposite {f : Debug.Composite → Debug.Composite} :
    Edits s (s.modifyNode n fun node => { node with entry := node.entry.mapComposite f }) := by
  refine edits_modifyNode fun node => ⟨?_, rfl⟩
  rcases node.entry <;> rfl

lemma edits_setResultType (ha : a.index < s.types.size) : Edits s (s.setResultType n a) :=
  Edit.edits (.modifyNode (fun _ => rfl) fun _ _ h => Or.inr (Option.some.inj h ▸ ha))

lemma edits_stamp : Edits s (s.stamp n b) := by
  have void : Edit s (s.internType .void).2 := .internType (by simp [Shape.operands])
  refine (void.edits.trans (edits_setResultType ?_)).trans
    (edits_modifyNode fun _ => ⟨rfl, rfl⟩)
  exact TypeTable.intern_fst_lt s.types .void

lemma edits_of_grows {types : TypeTable} (h : s.types.Grows types) :
    Edits s { s with types } := by
  induction h with
  | refl => exact .refl
  | intern _ hs ih => exact ih.step (.internType hs)

lemma edits_template {target template : NodeId} (h : s.template a target = .ok (template, t)) :
    Edits s t := by
  rcases template_eq_ok h with rfl | ⟨n, rfl⟩
  · exact .refl
  · exact (edits_unkeyedNode rfl).trans edits_mapComposite

lemma edits_withDebugType {d : NodeId} : Edits s (s.withDebugType n d) :=
  edits_modifyNode fun _ => ⟨rfl, rfl⟩

lemma edits_pushScope {name : String} {scope : NodeId} : Edits s (s.pushScope name scope) :=
  edits_openFile.step .rest

lemma edits_popScope {name : String} (h : s.popScope name = .ok t) : Edits s t := by
  obtain ⟨file, scope, -, rfl⟩ := popScope_eq_ok h
  exact Edit.rest.edits

/-! ### Lowering -/

lemma edits_of_changes {keys : Store → TypeId → Prop} {base : Nat}
    (h : Lowering.Changes b keys base s t) : Edits s t := by
  refine h.induction .refl ?_
  rintro s t change ih
  refine ih.trans ?_
  cases change with
  | internType incidental =>
    exact Edit.edits (.internType (by simp [Shape.operands_of_isIncidental incidental]))
  | openFile => exact edits_openFile
  | keyedNode _ untyped => exact edits_keyedNode untyped
  | unkeyedNode untyped => exact edits_unkeyedNode untyped
  | stamp => exact edits_stamp
  | pushMember => exact edits_mapComposite
  | setSize => exact edits_mapComposite

lemma edits_of_walk {instructions : List NodeId} (h : Lowering.Walk b instructions s t) :
    Edits s t := by
  induction h with
  | nil => exact .refl
  | untyped _ _ ih => exact edits_stamp.trans ih
  | typed _ lowered _ ih =>
    have hlower := edits_of_changes (lower_changes lowered)
    exact ((edits_stamp.trans hlower).trans edits_withDebugType).trans ih

/-! ### All operations -/

lemma edits_of_fills {op : Operation} (h : s.Fills op t) : Edits s t := by
  cases h with
  | pushMember => exact edits_mapComposite
  | setSize => exact edits_mapComposite
  | pushParam =>
    refine edits_modifyNode fun node => ⟨?_, rfl⟩
    rcases node.entry <;> rfl
  | setResultType known => exact edits_setResultType known
  | setInstructionSet => exact edits_modifyNode fun _ => ⟨rfl, rfl⟩
  | setDebugType => exact edits_withDebugType

/-- An operation is a sequence of edits. -/
theorem run_edits {op : Operation} {reply : Reply} (h : s.run op = .ok (reply, t)) : Edits s t := by
  cases effect_of_run h with
  | idle => exact Edit.rest.edits
  | types grants => exact edits_of_grows grants.grows
  | add _ known => exact Edit.edits (.addNode fun a ha => known.type_lt ha)
  | keyed lists => exact edits_keyedNode lists.type?_eq_none
  | unkeyed lists => exact edits_unkeyedNode lists.type?_eq_none
  | fill fills => exact edits_of_fills fills
  | opened => exact edits_openFile
  | pushScope => exact edits_pushScope
  | popScope popped => exact edits_openFile.trans (edits_popScope popped)
  | saveFunction => exact Edit.rest.edits
  | recordDebugType known => exact Edit.edits (.list known)
  | template _ attached => exact edits_template attached
  | lower _ lowered => exact edits_of_changes (lower_changes lowered)
  | lowerComposite _ lowered => exact edits_of_changes (lowerComposite_changes lowered)
  | lowerModule _ walk => exact edits_of_walk walk

/-- A session runs its first operation and then the others. -/
lemma runAll_cons_eq_ok {op : Operation} {ops : List Operation} {replies : List Reply}
    (h : s.runAll (op :: ops) = .ok (replies, t)) :
    ∃ reply r replies', s.run op = .ok (reply, r) ∧ r.runAll ops = .ok (replies', t) ∧
      replies = reply :: replies' := by
  rw [runAll] at h
  rcases hop : s.run op with fault | ⟨reply, r⟩
  · simp [hop, bind, Except.bind] at h
  rcases hops : r.runAll ops with fault | ⟨replies', r'⟩
  · simp [hop, hops, bind, Except.bind] at h
  simp only [hop, hops, bind, Except.bind, pure, Except.pure, Except.ok.injEq,
    Prod.mk.injEq] at h
  obtain ⟨rfl, rfl⟩ := h
  exact ⟨reply, r, replies', rfl, hops, rfl⟩

/-- A session is a sequence of edits. -/
lemma runAll_edits {ops : List Operation} {replies : List Reply}
    (h : s.runAll ops = .ok (replies, t)) : Edits s t := by
  induction ops generalizing s replies with
  | nil =>
    cases h
    exact .refl
  | cons op ops ih =>
    obtain ⟨reply, r, replies', hop, hops, -⟩ := runAll_cons_eq_ok h
    exact (run_edits hop).trans (ih hops)

/-- What holds of a new store and is kept by every edit holds of every reachable store. -/
theorem Reachable.induction {P : Store → Prop} (hs : s.Reachable)
    (start : ∀ options, P (Store.new options)) (edit : ∀ s t, Edit s t → P s → P t) : P s := by
  obtain ⟨options, ops, replies, hops⟩ := hs
  exact (runAll_edits hops).induction (start options) edit

/-- An edit only adds types. -/
lemma Edit.grows (h : Edit s t) : s.types.Grows t.types := by
  cases h with
  | internType known => exact .intern .refl known
  | _ => exact .refl

lemma Edits.grows (h : Edits s t) : s.types.Grows t.types :=
  h.induction (P := fun r => s.types.Grows r.types) .refl fun _ _ edit ih => ih.trans edit.grows

/-! ### Sessions -/

lemma eq_ok_of_toOption {α : Type} {x : Except Fault α} {r : α} (h : x.toOption = some r) :
    x = .ok r := by
  rcases x with fault | r'
  · cases h
  · rw [Except.toOption, Option.some.injEq] at h
    rw [h]

/-- A session that was run and found to end in a store as asked for. -/
lemma exists_of_runAll (options : Options) (ops : List Operation) (P : Store → Prop)
    [DecidablePred P]
    (h : (((Store.new options).runAll ops).toOption.any fun r => decide (P r.2)) = true) :
    ∃ replies s, (Store.new options).runAll ops = .ok (replies, s) ∧ P s := by
  obtain ⟨⟨replies, s⟩, hsession, hP⟩ := (Option.any_eq_true _ _).1 h
  exact ⟨replies, s, eq_ok_of_toOption hsession, of_decide_eq_true hP⟩

/-! ### Soundness -/

/-- The type table is interned, no key of the registry is listed twice, and what the registry and
the instructions refer to exists. -/
structure Sound (s : Store) : Prop where
  types : s.types.Interned
  keys : s.debugTypes.keys.Nodup
  listed : ∀ n ∈ s.emitted, n.index < s.nodes.size
  typed : ∀ {n : NodeId} {a : TypeId}, s.type? n = some a → a.index < s.types.size
  results : ∀ {n : NodeId} {node : Debug.Node} {a : TypeId}, s.nodes.node? n = some node →
    node.resultType = some a → a.index < s.types.size

lemma sound_new (options : Options) : (Store.new options).Sound where
  types := TypeTable.interned_empty
  keys := List.nodup_nil
  listed := by simp [new, emitted, OrderedMap.values]
  typed := by simp [new, type?, Debug.NodeTable.entry?, Debug.NodeTable.node?]
  results := by simp [new, Debug.NodeTable.node?]

/-- What is listed under a key is a node that there is. -/
lemma Sound.lt_of_get? {key : Option TypeId} (hs : s.Sound)
    (hn : s.debugTypes.get? key = some n) : n.index < s.nodes.size :=
  hs.listed n (List.mem_append_left _ (OrderedMap.mem_values_of_get? hn))

lemma type?_eq_some : s.type? n = some a ↔
    ∃ node, s.nodes.node? n = some node ∧ node.entry.type? = some a := by
  rw [type?, Debug.NodeTable.entry?, Option.bind_map, Option.bind_eq_some_iff]
  rfl

lemma Edit.sound (h : Edit s t) (hs : s.Sound) : t.Sound := by
  cases h with
  | internType known =>
    rename_i x
    have hle : s.types.size ≤ (s.types.intern x).2.size :=
      (TypeTable.Grows.refl.intern known).shapes_le.length_le
    refine ⟨hs.types.intern known, hs.keys, hs.listed, ?_, ?_⟩
    · intro n a ha
      exact Nat.lt_of_lt_of_le (hs.typed ha) hle
    · intro n node a hnode ha
      exact Nat.lt_of_lt_of_le (hs.results hnode ha) hle
  | addNode known =>
    refine ⟨hs.types, hs.keys, ?_, ?_, ?_⟩
    · intro n hn
      exact Nat.lt_of_lt_of_eq (Nat.lt_succ_of_lt (hs.listed n hn)) Debug.NodeTable.size_push.symm
    · intro n a ha
      obtain ⟨node, hnode, htype⟩ := type?_eq_some.1 ha
      rcases Debug.NodeTable.node?_push_cases hnode with hnode | ⟨-, rfl⟩
      · exact hs.typed (type?_eq_some.2 ⟨node, hnode, htype⟩)
      · exact known a htype
    · intro n node a hnode ha
      rcases Debug.NodeTable.node?_push_cases hnode with hnode | ⟨-, rfl⟩
      · exact hs.results hnode ha
      · cases ha
  | modifyNode type known =>
    refine ⟨hs.types, hs.keys, ?_, ?_, ?_⟩
    · intro n hn
      exact Nat.lt_of_lt_of_eq (hs.listed n hn) Debug.NodeTable.size_modify.symm
    · intro n a ha
      obtain ⟨node, hnode, htype⟩ := type?_eq_some.1 ha
      obtain ⟨old, hold, hnew⟩ := Debug.NodeTable.node?_modify_cases hnode
      refine hs.typed (type?_eq_some.2 ⟨old, hold, ?_⟩)
      rcases hnew with rfl | ⟨-, rfl⟩
      · exact htype
      · exact (type old).symm.trans htype
    · intro n node a hnode ha
      obtain ⟨old, hold, hnew⟩ := Debug.NodeTable.node?_modify_cases hnode
      rcases hnew with rfl | ⟨-, rfl⟩
      · exact hs.results hold ha
      · rcases known old a ha with ha | ha
        · exact hs.results hold ha
        · exact ha
  | list known =>
    refine ⟨hs.types, OrderedMap.nodup_keys_insert hs.keys, ?_, hs.typed, hs.results⟩
    intro m hm
    rcases List.mem_append.1 hm with hm | hm
    · rcases OrderedMap.mem_values_insert hm with rfl | hm
      · exact known
      · exact hs.listed m (List.mem_append_left _ hm)
    · exact hs.listed m (List.mem_append_right _ hm)
  | listUnkeyed known =>
    refine ⟨hs.types, hs.keys, ?_, hs.typed, hs.results⟩
    intro m hm
    rcases List.mem_append.1 hm with hm | hm
    · exact hs.listed m (List.mem_append_left _ hm)
    · rcases List.mem_append.1 hm with hm | hm
      · exact hs.listed m (List.mem_append_right _ hm)
      · rw [List.mem_singleton.1 hm]
        exact known
  | rest => exact ⟨hs.types, hs.keys, hs.listed, hs.typed, hs.results⟩

lemma Edits.sound (h : Edits s t) (hs : s.Sound) : t.Sound :=
  h.induction hs fun _ _ edit ih => edit.sound ih

/-- Every reachable store is sound. -/
theorem Reachable.sound (hs : s.Reachable) : s.Sound :=
  hs.induction sound_new fun _ _ edit ih => edit.sound ih

section Operations

variable {P : Store → Prop}
  (run : ∀ {s op reply t}, s.Sound → s.run op = .ok (reply, t) → P s → P t)
include run

/-- What every operation on a sound store keeps is kept by a session. -/
lemma kept_of_runAll {ops : List Operation} {replies : List Reply} (sound : s.Sound) (hs : P s)
    (h : s.runAll ops = .ok (replies, t)) : P t := by
  induction ops generalizing s replies with
  | nil =>
    cases h
    exact hs
  | cons op ops ih =>
    obtain ⟨reply, r, replies', hop, hops, -⟩ := runAll_cons_eq_ok h
    exact ih ((run_edits hop).sound sound) (run sound hop hs) hops

/-- What holds of a new store besides holds of every reachable one. -/
theorem Reachable.run_induction (hs : s.Reachable) (start : ∀ options, P (Store.new options)) :
    P s := by
  obtain ⟨options, ops, replies, hops⟩ := hs
  exact kept_of_runAll run (sound_new options) (start options) hops

end Operations

end ShaderTypes.Store
