import ShaderTypes.Proofs.Lowering.Lookup
import ShaderTypes.Proofs.Store.LoweringBuilt

/-!
# What a pass over a module completes

A pass stamps the instructions that it is shown, gives each variable and function of a known type
the debug type that lowering finds for it, and appends the registry as it is in the end.  Lowering
the types of later instructions does not disturb what was found for earlier ones, so the order of the
instructions and repeated ones do not matter.

If the debug types were left to lowering, no node is appended twice and each is stamped.
-/

namespace ShaderTypes

namespace Store

/-- The debug type that a variable or a function was given. -/
def debugTypeOf? (s : Store) (n : NodeId) : Option NodeId :=
  (s.nodes.node? n).bind Debug.Node.debugType

variable {s t : Store} {n m d : NodeId} {a : TypeId} {b : BuilderId}

lemma debugTypeOf?_of_nodes (h : s.nodes.nodes <+: t.nodes.nodes) (hn : n.index < s.nodes.size) :
    t.debugTypeOf? n = s.debugTypeOf? n := by
  obtain ⟨node, hnode⟩ := Debug.NodeTable.exists_node? hn
  rw [debugTypeOf?, debugTypeOf?, hnode, Debug.NodeTable.node?_mono h hnode]

/-- A change of a node that leaves its debug type. -/
lemma debugTypeOf?_modify {f : Debug.Node → Debug.Node} (hnodes : t.nodes = s.nodes.modify m f)
    (hf : ∀ node, (f node).debugType = node.debugType) : t.debugTypeOf? n = s.debugTypeOf? n := by
  have hmap : ((s.nodes.modify m f).node? n).map Debug.Node.debugType =
    (s.nodes.node? n).map Debug.Node.debugType := Debug.NodeTable.map_node?_modify hf
  rw [debugTypeOf?, debugTypeOf?, hnodes]
  simpa only [Option.bind_map, Function.id_comp] using congrArg (Option.bind · id) hmap

@[simp]
lemma debugTypeOf?_stamp : (s.stamp m b).debugTypeOf? n = s.debugTypeOf? n :=
  debugTypeOf?_modify nodes_stamp fun _ => rfl

lemma debugTypeOf?_withDebugType_self (h : n.index < s.nodes.size) :
    (s.withDebugType n d).debugTypeOf? n = some d := by
  obtain ⟨node, hnode⟩ := Debug.NodeTable.exists_node? h
  rw [debugTypeOf?, withDebugType, modifyNode, Debug.NodeTable.node?_modify_self, hnode]
  rfl

lemma debugTypeOf?_withDebugType_of_ne (h : n ≠ m) :
    (s.withDebugType m d).debugTypeOf? n = s.debugTypeOf? n := by
  rw [debugTypeOf?, withDebugType, modifyNode, Debug.NodeTable.node?_modify_of_ne h]
  rfl

/-- Lowering gives no node a debug type. -/
lemma debugTypeOf?_of_lower (h : lower b a s = .ok (d, t)) (hn : n.index < s.nodes.size) :
    t.debugTypeOf? n = s.debugTypeOf? n := by
  refine ((lower_changes h).induction
    (P := fun r => n.index < r.nodes.size ∧ r.debugTypeOf? n = s.debugTypeOf? n) ⟨hn, rfl⟩ ?_).2
  rintro r r' change ⟨hr, heq⟩
  refine ⟨Nat.lt_of_lt_of_le hr change.size_le, ?_⟩
  rw [← heq]
  cases change with
  | internType => rfl
  | openFile => exact debugTypeOf?_of_nodes nodes_le_openFile hr
  | keyedNode => exact debugTypeOf?_of_nodes nodes_le_keyedNode hr
  | unkeyedNode => exact debugTypeOf?_of_nodes nodes_le_unkeyedNode hr
  | stamp => exact debugTypeOf?_stamp
  | pushMember => exact debugTypeOf?_modify rfl fun _ => rfl
  | setSize => exact debugTypeOf?_modify rfl fun _ => rfl

/-- What an instruction is of does not change. -/
lemma Extends.type? (h : s.Extends t) (hn : n.index < s.nodes.size) : t.type? n = s.type? n := by
  obtain ⟨node, hnode⟩ := Debug.NodeTable.exists_node? hn
  have he := Debug.NodeTable.entry?_of_node? hnode
  rw [Store.type?, Store.type?, he, h.entries he]

/-- An instruction of a known type stays one. -/
lemma Extends.type?_mono (h : s.Extends t) (ha : s.type? n = some a) : t.type? n = some a := by
  obtain ⟨e, he, -⟩ := Option.bind_eq_some_iff.1 ha
  rw [h.type? (Debug.NodeTable.entry?_lt he), ha]

end Store

namespace Lowering

open Store

variable {b : BuilderId} {s t : Store} {instructions : List NodeId} {n d : NodeId} {a : TypeId}

/-! ### Stamps -/

lemma isStamped_of_walk (h : Walk b instructions s t) (hn : s.isStamped b n = true) :
    t.isStamped b n = true := by
  induction h with
  | nil => exact hn
  | untyped _ _ ih => exact ih (isStamped_stamp hn)
  | typed _ lowered _ ih =>
    refine ih (isStamped_withDebugType ?_)
    exact isStamped_of_changes (lower_changes lowered) (isStamped_stamp hn)

/-- Every instruction that is shown to the pass is stamped. -/
lemma Walk.isStamped (h : Walk b instructions s t)
    (known : ∀ n ∈ instructions, n.index < s.nodes.size) :
    ∀ n ∈ instructions, t.isStamped b n = true := by
  induction h with
  | nil => simp
  | untyped _ tail ih =>
    intro m hm
    rcases List.mem_cons.1 hm with rfl | hm
    · exact isStamped_of_walk tail (isStamped_stamp_self (known m List.mem_cons_self))
    · refine ih (fun k hk => ?_) m hm
      exact Nat.lt_of_lt_of_le (known k (List.mem_cons_of_mem _ hk)) extends_stamp.size_le
  | @typed n d _ _ s s' _ _ lowered tail ih =>
    have hext : s.Extends (s'.withDebugType n d) := extends_of_typed lowered
    intro m hm
    rcases List.mem_cons.1 hm with rfl | hm
    · refine isStamped_of_walk tail (isStamped_withDebugType ?_)
      exact isStamped_of_changes (lower_changes lowered)
        (isStamped_stamp_self (known m List.mem_cons_self))
    · refine ih (fun k hk => ?_) m hm
      exact Nat.lt_of_lt_of_le (known k (List.mem_cons_of_mem _ hk)) hext.size_le

/-- Whatever a pass lists is stamped. -/
lemma Walk.listsStamped (h : Walk b instructions s t) : ListsStamped b s t := by
  induction h with
  | nil => exact .of_subset fun _ => id
  | @untyped n _ s _ _ tail ih =>
    have hstamp : ListsStamped b s (s.stamp n b) := .of_subset fun _ => id
    exact hstamp.trans ih fun m hm => isStamped_of_walk tail hm
  | @typed n d _ _ s s' _ _ lowered tail ih =>
    have hstamp : ListsStamped b s (s.stamp n b) := .of_subset fun _ => id
    have hset : ListsStamped b s' (s'.withDebugType n d) := .of_subset fun _ => id
    have hlower := hstamp.trans (listsStamped_lower lowered)
      fun m hm => isStamped_of_changes (lower_changes lowered) hm
    refine (hlower.trans hset fun m hm => ?_).trans ih fun m hm => isStamped_of_walk tail hm
    exact isStamped_withDebugType hm

/-! ### Debug types of instructions -/

/-- An instruction was given the debug type that lowering finds for its type. -/
def Completed (s : Store) (n : NodeId) (a : TypeId) : Prop :=
  ∃ d, s.debugTypeOf? n = some d ∧ s.found? a = some d

/-- Showing an instruction to the pass completes it, and leaves those that are complete already. -/
lemma completed_of_lower {m : NodeId} {s' : Store} {u : TypeId}
    (hm : (s.stamp m b).type? m = some u) (lowered : lower b u (s.stamp m b) = .ok (d, s'))
    (hn : n.index < s.nodes.size) (ha : s.type? n = some a)
    (h : n = m ∨ Completed s n a) : Completed (s'.withDebugType m d) n a := by
  have hstamp : s.Extends (s.stamp m b) := extends_stamp
  have hset : s'.Extends (s'.withDebugType m d) := extends_withDebugType
  have hn' : n.index < (s.stamp m b).nodes.size := Nat.lt_of_lt_of_le hn hstamp.size_le
  by_cases heq : n = m
  · -- The instruction itself: its type is found from now on.
    subst heq
    obtain rfl : u = a := Option.some.inj (hm.symm.trans ((hstamp.type? hn).trans ha))
    refine ⟨d, debugTypeOf?_withDebugType_self ?_, hset.found? (found?_of_lower lowered)⟩
    exact Nat.lt_of_lt_of_le hn' (extends_lower lowered).size_le
  · -- What was found for another instruction is found still.
    obtain ⟨d', hd, hfound⟩ := h.resolve_left heq
    refine ⟨d', ?_, hset.found? ((extends_lower lowered).found? (hstamp.found? hfound))⟩
    rw [debugTypeOf?_withDebugType_of_ne heq, debugTypeOf?_of_lower lowered hn',
      debugTypeOf?_stamp]
    exact hd

/-- Every variable and function of a known type is completed by the walk.  What was completed once
stays so, by induction on the instructions left. -/
lemma Walk.completed (h : Walk b instructions s t) (hn : n.index < s.nodes.size)
    (ha : s.type? n = some a) (hmem : n ∈ instructions ∨ Completed s n a) : Completed t n a := by
  induction h with
  | nil => exact hmem.resolve_left (by simp)
  | @untyped m _ s _ htype _ ih =>
    have hstamp : s.Extends (s.stamp m b) := extends_stamp
    have ha' := (hstamp.type? hn).trans ha
    refine ih (Nat.lt_of_lt_of_le hn hstamp.size_le) ha' ?_
    rcases hmem with hmem | ⟨d, hd, hfound⟩
    · -- The first instruction has no type, so it is another one.
      refine Or.inl ((List.mem_cons.1 hmem).resolve_left ?_)
      rintro rfl
      rw [htype] at ha'
      cases ha'
    · exact Or.inr ⟨d, debugTypeOf?_stamp.trans hd, hstamp.found? hfound⟩
  | @typed m d _ _ s s' _ htype lowered _ ih =>
    have hext : s.Extends (s'.withDebugType m d) := extends_of_typed lowered
    refine ih (Nat.lt_of_lt_of_le hn hext.size_le) ((hext.type? hn).trans ha) ?_
    rcases hmem with hmem | hdone
    · rcases List.mem_cons.1 hmem with heq | hmem
      · exact Or.inr (completed_of_lower htype lowered hn ha (Or.inl heq))
      · exact Or.inl hmem
    · exact Or.inr (completed_of_lower htype lowered hn ha (Or.inr hdone))

/-- The walk gives no other node a debug type. -/
lemma Walk.debugTypeOf?_eq (h : Walk b instructions s t) (hn : n.index < s.nodes.size)
    (hother : n ∈ instructions → s.type? n = none) : t.debugTypeOf? n = s.debugTypeOf? n := by
  induction h with
  | nil => rfl
  | @untyped m _ s _ _ _ ih =>
    have hstamp : s.Extends (s.stamp m b) := extends_stamp
    rw [ih (Nat.lt_of_lt_of_le hn hstamp.size_le) ?_, debugTypeOf?_stamp]
    intro hmem
    exact (hstamp.type? hn).trans (hother (List.mem_cons_of_mem _ hmem))
  | @typed m d a _ s s' _ htype lowered _ ih =>
    have hstamp : s.Extends (s.stamp m b) := extends_stamp
    have hext : s.Extends (s'.withDebugType m d) := extends_of_typed lowered
    have hne : n ≠ m := by
      rintro rfl
      rw [hstamp.type? hn, hother List.mem_cons_self] at htype
      cases htype
    rw [ih (Nat.lt_of_lt_of_le hn hext.size_le) ?_, debugTypeOf?_withDebugType_of_ne hne,
      debugTypeOf?_of_lower lowered (Nat.lt_of_lt_of_le hn hstamp.size_le), debugTypeOf?_stamp]
    intro hmem
    exact (hext.type? hn).trans (hother (List.mem_cons_of_mem _ hmem))

end Lowering

/-! ### Nodes listed once -/

namespace Store

variable {s t : Store} {n : NodeId} {b : BuilderId} {builders : BuilderId → Prop}
  {saved : Decl.MethodId → NodeId → Prop}

/-- A new node that is put among the listed ones is not listed twice. -/
lemma nodup_insert_fresh {l l' : List NodeId} (h : (l ++ l').Nodup) (hn : n ∉ l ++ l') :
    (l ++ [n] ++ l').Nodup := by
  rw [List.append_assoc, List.singleton_append, List.perm_middle.nodup_iff]
  exact List.nodup_cons.2 ⟨hn, h⟩

/-- No change in the course of a lowering lists a node twice. -/
lemma nodup_emitted_of_change {keys : Store → TypeId → Prop} {base : Nat}
    (h : Lowering.Change b keys base s t) (known : ∀ n ∈ s.emitted, n.index < s.nodes.size)
    (hs : s.emitted.Nodup) : t.emitted.Nodup := by
  have fresh : (⟨s.nodes.size⟩ : NodeId) ∉ s.emitted := fun hn => Nat.lt_irrefl _ (known _ hn)
  cases h with
  | internType => exact hs
  | openFile => rwa [emitted, debugTypes_openFile, unkeyed_openFile]
  | @keyedNode key e _ _ =>
    rcases hkey : s.debugTypes.get? key with _ | n
    · rw [keyedNode_of_get?_eq_none hkey, emitted, OrderedMap.values,
        OrderedMap.entries_insert_of_get?_eq_none hkey, List.map_append]
      exact nodup_insert_fresh hs fresh
    · rwa [keyedNode_of_get? hkey]
  | unkeyedNode =>
    have hlast : (s.emitted ++ [(⟨s.nodes.size⟩ : NodeId)] ++ []).Nodup :=
      nodup_insert_fresh (by simpa using hs) (by simpa using fresh)
    rwa [emitted, List.append_nil, List.append_assoc] at hlast
  | stamp => exact hs
  | pushMember => exact hs
  | setSize => exact hs

/-- Lowering lists no node twice. -/
lemma nodup_emitted_of_lower {a : TypeId} (h : lower b a s = .ok (n, t)) (sound : s.Sound)
    (hs : s.emitted.Nodup) : t.emitted.Nodup := by
  refine ((lower_changes h).induction (P := fun r => r.Sound ∧ r.emitted.Nodup) ⟨sound, hs⟩ ?_).2
  rintro r r' change ⟨hr, hnodup⟩
  exact ⟨(edits_of_changes change.changes).sound hr, nodup_emitted_of_change change hr.listed hnodup⟩

lemma nodup_emitted_of_walk {instructions : List NodeId} (h : Lowering.Walk b instructions s t)
    (sound : s.Sound) (hs : s.emitted.Nodup) : t.emitted.Nodup := by
  induction h with
  | nil => exact hs
  | untyped _ _ ih => exact ih (edits_stamp.sound sound) hs
  | @typed n _ _ _ s _ _ _ lowered _ ih =>
    have hstamp : (s.stamp n b).Sound := edits_stamp.sound sound
    have hlower := (edits_of_changes (lower_changes lowered)).sound hstamp
    have hnodup := nodup_emitted_of_lower lowered hstamp hs
    exact ih (edits_withDebugType.sound hlower) hnodup

/-- If the debug types are left to lowering, no node is listed twice. -/
lemma LoweringBuilt.nodup_emitted (h : s.LoweringBuilt builders saved) : s.emitted.Nodup := by
  refine h.induction (P := fun s => s.emitted.Nodup) (fun _ => List.nodup_nil) ?_
  intro s t hs _ progress hnodup
  cases progress with
  | preserves h => rwa [emitted, h.debugTypes, h.unkeyed]
  | lower _ h => exact nodup_emitted_of_lower h hs.reachable.sound hnodup
  | walk _ h => exact nodup_emitted_of_walk h hs.reachable.sound hnodup

/-- If the debug types are left to lowering for one builder, every listed node is stamped. -/
lemma LoweringBuilt.isStamped (h : s.LoweringBuilt (· = b) saved) :
    ∀ n ∈ s.emitted, s.isStamped b n = true := by
  refine h.induction (P := fun s => ∀ n ∈ s.emitted, s.isStamped b n = true) ?_ ?_
  · intro options n hn
    cases hn
  intro s t _ _ progress hstamped n hn
  cases progress with
  | preserves h =>
    refine isStamped_of_nodes h.types.shapes_le h.nodes (hstamped n ?_)
    rwa [emitted, ← h.debugTypes, ← h.unkeyed]
  | lower hb hlower =>
    rw [hb] at hlower
    rcases listsStamped_lower hlower n hn with hn | hn
    · exact isStamped_of_changes (lower_changes hlower) (hstamped n hn)
    · exact hn
  | walk hb hwalk =>
    rw [hb] at hwalk
    rcases hwalk.listsStamped n hn with hn | hn
    · exact Lowering.isStamped_of_walk hwalk (hstamped n hn)
    · exact hn

/-! ### The pass -/

/-- A pass that does not fail comes to its end.  It appends all listed debug types to the module, and
it stamps every instruction that was there.  Each of them that is a variable or a function of a
known type has as debug type the node that lowering the type gives after the pass, and no other debug
type changes.  If debug types are left to lowering, for the builder of the pass, then nothing is
appended twice and everything that is appended is stamped. -/
theorem Reachable.lowerModule_completes {m : Module} {reply : Reply} (hs : s.Reachable)
    (h : s.run (.lowerModule b m) = .ok (reply, t)) :
    reply = .module true ⟨m.instructions ++ t.debugTypes.values ++ t.unkeyed⟩ ∧
    (∀ n ∈ m.instructions, t.isStamped b n = true) ∧
    (∀ n ∈ m.instructions, ∀ a, s.type? n = some a →
      ∃ d, t.debugTypeOf? n = some d ∧ ∀ b', ∃ u, lower b' a t = .ok (d, u)) ∧
    (∀ n, n.index < s.nodes.size → (n ∈ m.instructions → s.type? n = none) →
      t.debugTypeOf? n = s.debugTypeOf? n) ∧
    (s.LoweringBuilt (· = b) saved → (t.debugTypes.values ++ t.unkeyed).Nodup ∧
      ∀ n ∈ t.debugTypes.values ++ t.unkeyed, t.isStamped b n = true) := by
  obtain ⟨-, known, hperform⟩ := run_eq_ok h
  obtain ⟨⟨completed, m', r⟩, hpass, hreply⟩ := perform_bind_eq_ok hperform
  cases hreply
  obtain ⟨rfl, rfl, hwalk⟩ := lowerModule_eq_ok hpass
  have known : ∀ n ∈ m.instructions, n.index < s.nodes.size := fun n hn =>
    known n (List.mem_append_left _ hn)
  refine ⟨?_, hwalk.isStamped known, ?_, fun n hn => hwalk.debugTypeOf?_eq hn, ?_⟩
  · rw [Module.append, emitted, List.append_assoc]
  · intro n hn a ha
    obtain ⟨d, hd, hfound⟩ := hwalk.completed (known n hn) ha (Or.inl hn)
    exact ⟨d, hd, lower_of_found? hfound⟩
  · intro hbuilt
    refine ⟨nodup_emitted_of_walk hwalk hs.sound hbuilt.nodup_emitted, ?_⟩
    have hrun : t.LoweringBuilt (· = b) saved :=
      hbuilt.run rfl (by simp [Operation.builder?]) (by simp [Operation.saved?]) h
    exact hrun.isStamped

/-- A variable of type `uint` is made. -/
def variableSession : List Operation :=
  [.type (.integer 32 false), .openFile "a.hlsl",
    .globalVariable
      { name := "x", site := ⟨⟨0⟩, 1, 1⟩, parent := ⟨1⟩, linkageName := "x", flags := ⟨0⟩
        type := some ⟨0⟩ }]

/-- The variable is shown to the pass twice. -/
theorem lowerModule_completes_twice : ∃ (s t : Store) (reply : Reply), s.Reachable ∧
    s.LoweringBuilt (· = ⟨0⟩) (fun _ _ => False) ∧ s.type? ⟨2⟩ = some ⟨0⟩ ∧
    s.run (.lowerModule ⟨0⟩ ⟨[⟨2⟩, ⟨2⟩]⟩) = .ok (reply, t) ∧
    reply = .module true ⟨[⟨2⟩, ⟨2⟩] ++ t.debugTypes.values ++ t.unkeyed⟩ ∧
    (∃ d, t.debugTypeOf? ⟨2⟩ = some d ∧ ∃ u, lower ⟨0⟩ ⟨0⟩ t = .ok (d, u)) ∧
    (t.debugTypes.values ++ t.unkeyed).Nodup := by
  obtain ⟨replies, s, hsession, type, hrun⟩ := exists_of_runAll {} variableSession
    (fun s => s.type? ⟨2⟩ = some ⟨0⟩ ∧
      (s.run (.lowerModule ⟨0⟩ ⟨[⟨2⟩, ⟨2⟩]⟩)).toOption.isSome = true) (by decide +kernel)
  obtain ⟨⟨reply, t⟩, hrun⟩ := Option.isSome_iff_exists.1 hrun
  have hrun := eq_ok_of_toOption hrun
  have reachable : s.Reachable := ⟨{}, variableSession, replies, hsession⟩
  have built : s.LoweringBuilt (· = ⟨0⟩) (fun _ _ => False) := by
    refine LoweringBuilt.runAll (.new {}) (by decide +kernel) ?_ ?_ hsession
    · simp [variableSession, Operation.builder?]
    · simp [variableSession, Operation.saved?]
  obtain ⟨hreply, -, hcompleted, -, hbuilt⟩ := reachable.lowerModule_completes hrun
  obtain ⟨d, hd, hlower⟩ := hcompleted ⟨2⟩ List.mem_cons_self ⟨0⟩ type
  exact ⟨s, t, reply, reachable, built, type, hrun, hreply, ⟨d, hd, hlower ⟨0⟩⟩, (hbuilt built).1⟩

end Store

end ShaderTypes
