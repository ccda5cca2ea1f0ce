import ShaderTypes.Proofs.Store.Advance

/-!
# Definition before use

The debug types of a module are listed so that whatever a node is built from stands before it: the
element of an array or a vector, the types of a function, the type and the composite of a member.
Only the members that a composite lists stand behind it.

`Store.Staged` carries this through a session.  A key is listed with a new node, so the nodes under
keys are listed in the order of their making; what a node uses was listed under a key before it was
made.  Members are never under a key and composites always are, and what is under no key comes last.
-/

namespace ShaderTypes

namespace Store

/-- The nodes under keys are listed as they were made, what a node uses is among them and older,
members are listed under no key, and composites are not. -/
structure Staged (s : Store) : Prop where
  listed : ∀ n ∈ s.emitted, n.index < s.nodes.size
  increasing : s.debugTypes.values.Pairwise fun m n => m.index < n.index
  uses : ∀ {n : NodeId} {e : Debug.Entry}, s.nodes.entry? n = some e →
    ∀ m ∈ e.uses, m ∈ s.debugTypes.values ∧ m.index < n.index
  members : ∀ {n : NodeId} {e : Debug.Entry}, s.nodes.entry? n = some e →
    e.member?.isSome = true → n ∈ s.unkeyed
  composites : ∀ {n : NodeId} {e : Debug.Entry}, s.nodes.entry? n = some e → n ∈ s.unkeyed →
    e.composite?.isSome = false

variable {s t : Store} {n m : NodeId} {e : Debug.Entry} {key : Option TypeId}

lemma staged_new (options : Options) : (Store.new options).Staged where
  listed := by simp [new, emitted, OrderedMap.values]
  increasing := List.Pairwise.nil
  uses := by simp [new, Debug.NodeTable.entry?, Debug.NodeTable.node?]
  members := by simp [new, Debug.NodeTable.entry?, Debug.NodeTable.node?]
  composites := by simp [new, Debug.NodeTable.entry?, Debug.NodeTable.node?]

namespace Staged

/-- What is under a key is a node that there is. -/
lemma lt_of_mem_values (hs : s.Staged) (h : n ∈ s.debugTypes.values) : n.index < s.nodes.size :=
  hs.listed n (List.mem_append_left _ h)

/-- What is under no key is a node that there is, so it says what it said when a node is added. -/
lemma entry?_of_mem_unkeyed {e' : Debug.Entry} (hs : s.Staged) (hn : n ∈ s.unkeyed)
    (h : Debug.NodeTable.entry? (s.nodes.push e') n = some e) : s.nodes.entry? n = some e := by
  rcases Debug.NodeTable.entry?_push_cases h with hold | ⟨rfl, -⟩
  · exact hold
  · exact absurd (hs.listed _ (List.mem_append_right _ hn)) (Nat.lt_irrefl _)

lemma addNode (hs : s.Staged) (apart : e.isDebugType = false) : (s.addNode e).2.Staged := by
  obtain ⟨huses, hmember⟩ := Debug.Entry.uses_of_not_isDebugType apart
  refine ⟨fun n hn => ?_, hs.increasing, ?_, ?_, ?_⟩
  · exact Nat.lt_of_lt_of_eq (Nat.lt_succ_of_lt (hs.listed n hn)) Debug.NodeTable.size_push.symm
  · intro n e' he m hm
    rcases Debug.NodeTable.entry?_push_cases he with hold | ⟨-, rfl⟩
    · exact hs.uses hold m hm
    · rw [huses] at hm
      cases hm
  · intro n e' he hsome
    rcases Debug.NodeTable.entry?_push_cases he with hold | ⟨-, rfl⟩
    · exact hs.members hold hsome
    · rw [hmember] at hsome
      cases hsome
  · exact fun he hn => hs.composites (hs.entry?_of_mem_unkeyed hn he) hn

lemma keyedNode (hs : s.Staged) (uses : ∀ m ∈ e.uses, m ∈ s.debugTypes.values)
    (member : e.member? = none) : (s.keyedNode key e).2.Staged := by
  rcases hkey : s.debugTypes.get? key with _ | n
  · rw [keyedNode_of_get?_eq_none hkey]
    have hvalues : (s.debugTypes.insert key ⟨s.nodes.size⟩).values =
        s.debugTypes.values ++ [⟨s.nodes.size⟩] := by
      rw [OrderedMap.values, OrderedMap.entries_insert_of_get?_eq_none hkey, List.map_append]
      rfl
    refine ⟨fun n hn => ?_, ?_, ?_, ?_, ?_⟩
    · simp only [emitted, hvalues, List.append_assoc, List.mem_append, List.mem_singleton,
        Debug.NodeTable.size_push] at hn ⊢
      rcases hn with hn | rfl | hn
      · exact Nat.lt_succ_of_lt (hs.lt_of_mem_values hn)
      · exact Nat.lt_succ_self _
      · exact Nat.lt_succ_of_lt (hs.listed n (List.mem_append_right _ hn))
    · simp only [hvalues]
      refine List.pairwise_append.2 ⟨hs.increasing, List.pairwise_singleton _ _, ?_⟩
      intro m hm n hn
      rw [List.mem_singleton.1 hn]
      exact hs.lt_of_mem_values hm
    · intro n e' he m hm
      simp only [hvalues, List.mem_append]
      rcases Debug.NodeTable.entry?_push_cases he with hold | ⟨rfl, rfl⟩
      · obtain ⟨hmem, hlt⟩ := hs.uses hold m hm
        exact ⟨Or.inl hmem, hlt⟩
      · exact ⟨Or.inl (uses m hm), hs.lt_of_mem_values (uses m hm)⟩
    · intro n e' he hsome
      rcases Debug.NodeTable.entry?_push_cases he with hold | ⟨-, rfl⟩
      · exact hs.members hold hsome
      · rw [member] at hsome
        cases hsome
    · exact fun he hn => hs.composites (hs.entry?_of_mem_unkeyed hn he) hn
  · rwa [keyedNode_of_get? hkey]

lemma unkeyedNode (hs : s.Staged) (uses : ∀ m ∈ e.uses, m ∈ s.debugTypes.values)
    (composite : e.composite? = none) : (s.unkeyedNode e).2.Staged := by
  have hsize : (s.unkeyedNode e).2.nodes.size = s.nodes.size + 1 := Debug.NodeTable.size_push
  refine ⟨fun n hn => ?_, hs.increasing, ?_, ?_, ?_⟩
  · rw [hsize]
    rcases List.mem_append.1 hn with hn | hn
    · exact Nat.lt_succ_of_lt (hs.lt_of_mem_values hn)
    · rcases List.mem_append.1 hn with hn | hn
      · exact Nat.lt_succ_of_lt (hs.listed n (List.mem_append_right _ hn))
      · rw [List.mem_singleton.1 hn]
        exact Nat.lt_succ_self _
  · intro n e' he m hm
    rcases Debug.NodeTable.entry?_push_cases he with hold | ⟨rfl, rfl⟩
    · exact hs.uses hold m hm
    · exact ⟨uses m hm, hs.lt_of_mem_values (uses m hm)⟩
  · intro n e' he hsome
    rcases Debug.NodeTable.entry?_push_cases he with hold | ⟨rfl, rfl⟩
    · exact List.mem_append_left _ (hs.members hold hsome)
    · exact List.mem_append_right _ (List.mem_singleton.2 rfl)
  · intro n e' he hn
    rcases Debug.NodeTable.entry?_push_cases he with hold | ⟨-, rfl⟩
    · rcases List.mem_append.1 hn with hn | hn
      · exact hs.composites hold hn
      · -- The node that was listed just now is not an older one.
        have hlt := Debug.NodeTable.entry?_lt hold
        rw [List.mem_singleton.1 hn] at hlt
        exact absurd hlt (Nat.lt_irrefl _)
    · rw [composite]
      rfl

lemma modifyNode {f : Debug.Node → Debug.Node} (hs : s.Staged)
    (resembles : ∀ node : Debug.Node, node.entry.Resembles (f node).entry) :
    (s.modifyNode n f).Staged := by
  refine ⟨fun m hm => ?_, hs.increasing, ?_, ?_, ?_⟩
  · exact Nat.lt_of_lt_of_eq (hs.listed m hm) Debug.NodeTable.size_modify.symm
  · intro m e' he l hl
    obtain ⟨e, hold, same⟩ := Debug.NodeTable.entry?_modify_cases resembles he
    exact hs.uses hold l (same.uses ▸ hl)
  · intro m e' he hsome
    obtain ⟨e, hold, same⟩ := Debug.NodeTable.entry?_modify_cases resembles he
    exact hs.members hold (same.member ▸ hsome)
  · intro m e' he hm
    obtain ⟨e, hold, same⟩ := Debug.NodeTable.entry?_modify_cases resembles he
    rw [same.composite]
    exact hs.composites hold hm

end Staged

/-- An advance keeps the registry staged. -/
lemma Advance.staged (h : Advance s t) (hs : s.Staged) : t.Staged := by
  cases h with
  | internType => exact ⟨hs.listed, hs.increasing, hs.uses, hs.members, hs.composites⟩
  | addNode apart => exact hs.addNode apart
  | keyedNode _ uses member => exact hs.keyedNode uses member
  | unkeyedNode uses composite => exact hs.unkeyedNode uses composite
  | modifyNode resembles => exact hs.modifyNode resembles
  | rest => exact ⟨hs.listed, hs.increasing, hs.uses, hs.members, hs.composites⟩

lemma Advances.staged (h : Advances s t) (hs : s.Staged) : t.Staged :=
  h.induction hs fun _ _ advance ih => advance.staged ih

lemma LeftToLowering.staged (h : s.LeftToLowering) : s.Staged :=
  h.induction staged_new fun _ _ advance hs => advance.staged hs

/-! ### The order of the flushed list -/

/-- A place in two lists, one after the other, is in the first of them or in the second. -/
lemma append_eq_append_cons_cases {l l' before after : List NodeId}
    (h : l ++ l' = before ++ n :: after) :
    (∃ rest, l = before ++ n :: rest ∧ after = rest ++ l') ∨
      ∃ middle, before = l ++ middle ∧ l' = middle ++ n :: after := by
  rcases List.append_eq_append_iff.1 h with ⟨middle, hbefore, hl'⟩ | ⟨rest, hl, hafter⟩
  · exact Or.inr ⟨middle, hbefore, hl'⟩
  · rcases rest with _ | ⟨k, rest⟩
    · rw [List.append_nil] at hl
      exact Or.inr ⟨[], by rw [hl, List.append_nil], hafter.symm⟩
    · rw [List.cons_append, List.cons.injEq] at hafter
      obtain ⟨rfl, hafter⟩ := hafter
      exact Or.inl ⟨rest, hl, hafter⟩

/-- In a session that leaves the debug types to lowering, what a listed node uses is listed before
it, and the members that a listed composite lists are listed after it. -/
theorem LeftToLowering.uses_listed_before {before after : List NodeId} (h : s.LeftToLowering)
    (place : s.debugTypes.values ++ s.unkeyed = before ++ n :: after)
    (he : s.nodes.entry? n = some e) :
    (∀ m ∈ e.uses, m ∈ before) ∧
      ∀ c, e = .composite c → ∀ m ∈ c.members, ∀ d, s.nodes.entry? m = some (.member d) →
        m ∈ after := by
  have hs := h.staged
  rcases append_eq_append_cons_cases place with ⟨rest, hvalues, rfl⟩ | ⟨middle, rfl, hunkeyed⟩
  · constructor
    · intro m hm
      obtain ⟨hlisted, hlt⟩ := hs.uses he m hm
      have hincreasing := hs.increasing
      rw [hvalues] at hlisted hincreasing
      -- Behind `n` there are newer nodes only.
      have hnewer := (List.pairwise_cons.1 (List.pairwise_append.1 hincreasing).2.1).1
      rcases List.mem_append.1 hlisted with hbefore | hrest
      · exact hbefore
      · rcases List.mem_cons.1 hrest with rfl | hrest
        · exact absurd hlt (Nat.lt_irrefl _)
        · have := hnewer m hrest
          omega
    · rintro c rfl m - d hd
      exact List.mem_append_right _ (hs.members hd rfl)
  · constructor
    · intro m hm
      exact List.mem_append_left _ (hs.uses he m hm).1
    · rintro c rfl
      -- A composite is under a key.
      have hn : n ∈ s.unkeyed := by
        rw [hunkeyed]
        exact List.mem_append_right _ List.mem_cons_self
      cases hs.composites he hn

/-- A struct of an array, made from a record with one field. -/
def arrayStruct : Struct where
  name := "S"
  fields := [{ type := ⟨1⟩ }]
  record := some
    { id := ⟨0⟩, name := "S", keyword := .structKeyword, location := ⟨"a.hlsl", 1, 1⟩
      members := [.field { id := ⟨0⟩, name := "x", location := ⟨"a.hlsl", 2, 3⟩ }] }

/-- A function is lowered that takes the struct and returns a number. -/
def functionSession : List Operation :=
  [.type (.integer 32 false), .type (.array ⟨0⟩ 4 none), .type (.struct arrayStruct),
    .type (.function { result := ⟨0⟩, params := [⟨2⟩] }), .lower ⟨0⟩ ⟨3⟩]

/-- The types of the function stand before it, though the struct is listed before the array that it
holds, and the member of the struct stands last. -/
theorem uses_listed_before_of_function : ∃ (s : Store) (c : Debug.Composite), s.LeftToLowering ∧
    s.emitted = [⟨0⟩, ⟨3⟩, ⟨4⟩, ⟨6⟩, ⟨5⟩] ∧
    s.nodes.entry? ⟨6⟩ =
      some (.functionType { flags := .isPublic, result := some ⟨0⟩, params := [⟨3⟩] }) ∧
    (∀ m ∈ [(⟨0⟩ : NodeId), ⟨3⟩], m ∈ [(⟨0⟩ : NodeId), ⟨3⟩, ⟨4⟩]) ∧
    s.nodes.entry? ⟨3⟩ = some (.composite c) ∧ c.members = [⟨5⟩] ∧
    (∃ d, s.nodes.entry? ⟨5⟩ = some (.member d)) ∧ (⟨5⟩ : NodeId) ∈ [(⟨4⟩ : NodeId), ⟨6⟩, ⟨5⟩] := by
  obtain ⟨replies, s, hsession, listed, hfunction, hcomposite, hmember⟩ := exists_of_runAll {}
    functionSession (fun s => s.emitted = [⟨0⟩, ⟨3⟩, ⟨4⟩, ⟨6⟩, ⟨5⟩] ∧ s.nodes.entry? ⟨6⟩ =
      some (.functionType { flags := .isPublic, result := some ⟨0⟩, params := [⟨3⟩] }) ∧
      ((s.nodes.composite? ⟨3⟩).any (·.members = [⟨5⟩])) = true ∧
      ((s.nodes.entry? ⟨5⟩).any (·.member?.isSome)) = true) (by decide +kernel)
  have built : s.LeftToLowering := ⟨{}, functionSession, replies, by decide, hsession⟩
  obtain ⟨c, hc, hmembers⟩ := (Option.any_eq_true _ _).1 hcomposite
  obtain ⟨e, he, hd⟩ := (Option.any_eq_true _ _).1 hmember
  rw [Debug.NodeTable.composite?_eq_some] at hc
  obtain ⟨d, rfl⟩ : ∃ d, e = .member d := by
    cases e <;> first | exact ⟨_, rfl⟩ | cases hd
  have members : c.members = [⟨5⟩] := of_decide_eq_true hmembers
  have place₆ : s.emitted = [⟨0⟩, ⟨3⟩, ⟨4⟩] ++ ⟨6⟩ :: [⟨5⟩] := listed
  have place₃ : s.emitted = [⟨0⟩] ++ ⟨3⟩ :: [⟨4⟩, ⟨6⟩, ⟨5⟩] := listed
  have function := (built.uses_listed_before place₆ hfunction).1
  have composite := (built.uses_listed_before place₃ hc).2 c rfl
  refine ⟨s, c, built, listed, hfunction, function, hc, members, ⟨d, he⟩, ?_⟩
  exact composite ⟨5⟩ (by simp [members]) d he

end Store

end ShaderTypes
