import ShaderTypes.Proofs.Lowering.Change
import ShaderTypes.Proofs.Lowering.Walk

/-!
# Extension of stores

As long as debug types are made by lowering only, a compilation never takes anything back: both
tables grow at their ends, what an instruction says stays, and a type that is listed stays listed
with its node.  New keys are types that can be described, so that pointers and undescribed types
are never listed.  `Store.Extends` collects this, and everything that is said about the debug types
of an earlier store is carried to a later one along it.
-/

namespace ShaderTypes.Store

/-- What a later store keeps of an earlier one. -/
structure Extends (s t : Store) : Prop where
  types : s.types.Grows t.types
  size_le : s.nodes.size ≤ t.nodes.size
  keyed : ∃ more, t.debugTypes.entries = s.debugTypes.entries ++ more ∧ ∀ entry ∈ more,
    s.nodes.size ≤ entry.2.index ∧
      ∀ a, entry.1 = some a → ∃ x, t.types.shape? a = some x ∧ x.isDescribed = true
  unkeyed : ∃ more, t.unkeyed = s.unkeyed ++ more ∧ ∀ n ∈ more, s.nodes.size ≤ n.index
  entries : ∀ {n : NodeId} {e : Debug.Entry}, s.nodes.entry? n = some e → t.nodes.entry? n = some e
  files : ∀ {name : String} {file : Debug.File}, s.files.get? name = some file →
    ∃ file', t.files.get? name = some file' ∧ file'.source = file.source ∧ file'.unit = file.unit

variable {s t u : Store} {a : TypeId} {n d : NodeId} {b : BuilderId} {x : Shape}

lemma Extends.refl (s : Store) : s.Extends s where
  types := .refl
  size_le := Nat.le_refl _
  keyed := ⟨[], by simp, by simp⟩
  unkeyed := ⟨[], by simp, by simp⟩
  entries := id
  files := fun h => ⟨_, h, rfl, rfl⟩

lemma Extends.trans (h : s.Extends t) (h' : t.Extends u) : s.Extends u where
  types := h.types.trans h'.types
  size_le := Nat.le_trans h.size_le h'.size_le
  keyed := by
    obtain ⟨more, hmore, hnew⟩ := h.keyed
    obtain ⟨last, hlast, hnewLast⟩ := h'.keyed
    refine ⟨more ++ last, by rw [hlast, hmore, List.append_assoc], ?_⟩
    intro entry hentry
    rcases List.mem_append.1 hentry with hentry | hentry
    · refine ⟨(hnew entry hentry).1, fun a ha => ?_⟩
      obtain ⟨x, hx, described⟩ := (hnew entry hentry).2 a ha
      exact ⟨x, TypeTable.shape?_mono h'.types.shapes_le hx, described⟩
    · exact ⟨Nat.le_trans h.size_le (hnewLast entry hentry).1, (hnewLast entry hentry).2⟩
  unkeyed := by
    obtain ⟨more, hmore, hnew⟩ := h.unkeyed
    obtain ⟨last, hlast, hnewLast⟩ := h'.unkeyed
    refine ⟨more ++ last, by rw [hlast, hmore, List.append_assoc], ?_⟩
    intro n hn
    rcases List.mem_append.1 hn with hn | hn
    · exact hnew n hn
    · exact Nat.le_trans h.size_le (hnewLast n hn)
  entries := fun he => h'.entries (h.entries he)
  files := by
    intro name file hfile
    obtain ⟨file', hfile', hsource, hunit⟩ := h.files hfile
    obtain ⟨file'', hfile'', hsource', hunit'⟩ := h'.files hfile'
    exact ⟨file'', hfile'', hsource'.trans hsource, hunit'.trans hunit⟩

namespace Extends

lemma shape? (h : s.Extends t) (hx : s.types.shape? a = some x) : t.types.shape? a = some x :=
  TypeTable.shape?_mono h.types.shapes_le hx

/-- A listed type stays listed with its node. -/
lemma get?_debugTypes {key : Option TypeId} (h : s.Extends t)
    (hn : s.debugTypes.get? key = some n) : t.debugTypes.get? key = some n := by
  obtain ⟨more, hmore, -⟩ := h.keyed
  exact OrderedMap.get?_append hmore hn

/-- A type that is listed was listed before, or it can be described and its node is new. -/
lemma debugType?_cases (h : s.Extends t) (ha : t.debugType? a = some n) :
    s.debugType? a = some n ∨ s.debugType? a = none ∧ s.nodes.size ≤ n.index ∧
      ∃ x, t.types.shape? a = some x ∧ x.isDescribed = true := by
  obtain ⟨more, hmore, hnew⟩ := h.keyed
  rcases OrderedMap.get?_append_cases hmore ha with hs | ⟨hs, hmem⟩
  · exact Or.inl hs
  · exact Or.inr ⟨hs, (hnew _ hmem).1, (hnew _ hmem).2 a rfl⟩

/-- A type that cannot be described is not listed later. -/
lemma debugType?_eq_none (h : s.Extends t) (hx : s.types.shape? a = some x)
    (described : x.isDescribed = false) (ha : s.debugType? a = none) : t.debugType? a = none := by
  rw [Option.eq_none_iff_forall_ne_some]
  intro n hn
  rcases h.debugType?_cases hn with hs | ⟨-, -, y, hy, hdescribed⟩
  · simp [ha] at hs
  · rw [h.shape? hx, Option.some.injEq] at hy
    simp [← hy, described] at hdescribed

/-- The later store lists what the earlier one lists, in the same order. -/
lemma emitted_sublist (h : s.Extends t) : s.emitted.Sublist t.emitted := by
  obtain ⟨more, hmore, -⟩ := h.keyed
  obtain ⟨last, hlast, -⟩ := h.unkeyed
  rw [emitted, emitted, OrderedMap.values, OrderedMap.values, hmore, hlast, List.map_append]
  exact (List.sublist_append_left _ _).append (List.sublist_append_left _ _)

/-- What the earlier store lists is listed by the later one. -/
lemma emitted_subset (h : s.Extends t) (hn : n ∈ s.emitted) : n ∈ t.emitted :=
  h.emitted_sublist.subset hn

/-- What the later store lists is listed by the earlier one, or it is a new node. -/
lemma mem_emitted_cases (h : s.Extends t) (hn : n ∈ t.emitted) :
    n ∈ s.emitted ∨ s.nodes.size ≤ n.index := by
  obtain ⟨more, hmore, hnew⟩ := h.keyed
  obtain ⟨last, hlast, hnewLast⟩ := h.unkeyed
  rw [emitted, OrderedMap.values, hmore, hlast, List.map_append] at hn
  rcases List.mem_append.1 hn with hn | hn
  · rcases List.mem_append.1 hn with hn | hn
    · exact Or.inl (List.mem_append_left _ hn)
    · obtain ⟨entry, hentry, rfl⟩ := List.mem_map.1 hn
      exact Or.inr (hnew entry hentry).1
  · rcases List.mem_append.1 hn with hn | hn
    · exact Or.inl (List.mem_append_right _ hn)
    · exact Or.inr (hnewLast n hn)

end Extends

/-! ### Small operations -/

/-- A store that differs in its types, and in nodes behind those that were there, extends. -/
lemma extends_of_nodes (types : s.types.Grows t.types) (size_le : s.nodes.size ≤ t.nodes.size)
    (debugTypes : t.debugTypes = s.debugTypes) (unkeyed : t.unkeyed = s.unkeyed)
    (entries : ∀ {n e}, s.nodes.entry? n = some e → t.nodes.entry? n = some e)
    (files : ∀ {name file}, s.files.get? name = some file → ∃ file',
      t.files.get? name = some file' ∧ file'.source = file.source ∧ file'.unit = file.unit) :
    s.Extends t where
  types := types
  size_le := size_le
  keyed := ⟨[], by simp [debugTypes], by simp⟩
  unkeyed := ⟨[], by simp [unkeyed], by simp⟩
  entries := entries
  files := files

lemma extends_stamp : s.Extends (s.stamp n b) := by
  refine extends_of_nodes ?_ ?_ rfl rfl (by simp) fun h => ⟨_, h, rfl, rfl⟩
  · exact TypeTable.Grows.refl.intern (by simp [Shape.operands])
  · exact Nat.le_of_eq (by rw [nodes_stamp, Debug.NodeTable.size_modify])

@[simp]
lemma entry?_withDebugType {m : NodeId} :
    (s.withDebugType n d).nodes.entry? m = s.nodes.entry? m :=
  Debug.NodeTable.entry?_modify fun _ => rfl

lemma extends_withDebugType : s.Extends (s.withDebugType n d) := by
  refine extends_of_nodes .refl ?_ rfl rfl (by simp) fun h => ⟨_, h, rfl, rfl⟩
  exact Nat.le_of_eq Debug.NodeTable.size_modify.symm

/-! ### Lowering -/

section Changes

open Lowering

variable {keys : Store → TypeId → Prop} {base : Nat}

/-- A file that is known stays, whatever other file becomes known. -/
lemma get?_files_openFile_of_get? {name name' : String} {file : Debug.File}
    (h : s.files.get? name = some file) : (s.openFile name').2.files.get? name = some file := by
  unfold openFile
  split
  · exact h
  · rename_i hnone
    have hne : name ≠ name' := by
      rintro rfl
      simp [h] at hnone
    exact (OrderedMap.get?_insert_of_ne hne).trans h

lemma files_of_change (h : Change b keys base s t) {name : String} {file : Debug.File}
    (hfile : s.files.get? name = some file) : t.files.get? name = some file := by
  cases h with
  | internType => exact hfile
  | openFile => exact get?_files_openFile_of_get? hfile
  | keyedNode => rwa [files_keyedNode]
  | unkeyedNode => exact hfile
  | stamp => exact hfile
  | pushMember => exact hfile
  | setSize => exact hfile

/-- A file that is known stays as it is. -/
lemma files_of_changes (h : Changes b keys base s t) {name : String} {file : Debug.File}
    (hfile : s.files.get? name = some file) : t.files.get? name = some file :=
  h.induction (P := fun r => r.files.get? name = some file) hfile
    fun _ _ change => files_of_change change

lemma unkeyed_of_change (h : Change b keys base s t) :
    ∃ more, t.unkeyed = s.unkeyed ++ more ∧ ∀ n ∈ more, s.nodes.size ≤ n.index := by
  have unchanged (heq : t.unkeyed = s.unkeyed) :
      ∃ more, t.unkeyed = s.unkeyed ++ more ∧ ∀ n ∈ more, s.nodes.size ≤ n.index :=
    ⟨[], by simp [heq], by simp⟩
  cases h with
  | internType => exact unchanged rfl
  | openFile => exact unchanged unkeyed_openFile
  | keyedNode => exact unchanged unkeyed_keyedNode
  | unkeyedNode => exact ⟨[⟨s.nodes.size⟩], rfl, by simp⟩
  | stamp => exact unchanged rfl
  | pushMember => exact unchanged rfl
  | setSize => exact unchanged rfl

/-- A change leaves the nodes from before the base apart from their marks. -/
lemma entry?_of_change (h : Change b keys base s t) {e : Debug.Entry} (hbase : n.index < base)
    (he : s.nodes.entry? n = some e) : t.nodes.entry? n = some e := by
  have other {m : NodeId} {f : Debug.Node → Debug.Node} (hm : base ≤ m.index) :
      (s.modifyNode m f).nodes.entry? n = some e := by
    rw [entry?_modifyNode_of_ne (by rintro rfl; omega)]
    exact he
  cases h with
  | internType => exact he
  | openFile => exact Debug.NodeTable.entry?_mono nodes_le_openFile he
  | keyedNode => exact Debug.NodeTable.entry?_mono nodes_le_keyedNode he
  | unkeyedNode => exact Debug.NodeTable.entry?_mono nodes_le_unkeyedNode he
  | stamp => rwa [entry?_stamp]
  | pushMember recent => exact other recent
  | setSize recent => exact other recent

/-- Lowering saves nothing for methods. -/
lemma methods_of_changes (h : Changes b keys base s t) : t.methods = s.methods := by
  refine h.induction (P := fun r => r.methods = s.methods) rfl ?_
  intro r r' change hr
  rw [← hr]
  cases change with
  | internType => rfl
  | openFile => exact methods_openFile
  | keyedNode => exact methods_keyedNode
  | unkeyedNode => rfl
  | stamp => rfl
  | pushMember => rfl
  | setSize => rfl

lemma function?_of_changes (h : Changes b keys base s t) {id : Decl.MethodId} :
    t.function? id = s.function? id := by
  rw [function?, function?, methods_of_changes h]

/-- Changes of nodes that were made since extend the store they started from. -/
lemma extends_of_changes {bound : Nat} (h : Changes b (Listable bound) s.nodes.size s t) :
    s.Extends t where
  types := h.grows
  size_le := h.size_le
  keyed := by
    obtain ⟨more, hmore, hnew⟩ := h.keyed
    refine ⟨more, hmore, fun entry hentry => ⟨(hnew entry hentry).1, fun a ha => ?_⟩⟩
    exact ((hnew entry hentry).2 a ha).2
  unkeyed := by
    -- The number of nodes is part of the invariant: what is listed next is newer than all of them.
    have step : ∀ r r', Change b (Listable bound) s.nodes.size r r' →
        (s.nodes.size ≤ r.nodes.size ∧
          ∃ more, r.unkeyed = s.unkeyed ++ more ∧ ∀ n ∈ more, s.nodes.size ≤ n.index) →
        s.nodes.size ≤ r'.nodes.size ∧
          ∃ more, r'.unkeyed = s.unkeyed ++ more ∧ ∀ n ∈ more, s.nodes.size ≤ n.index := by
      rintro r r' change ⟨hsize, more, hmore, hnew⟩
      obtain ⟨last, hlast, hnewLast⟩ := unkeyed_of_change change
      refine ⟨Nat.le_trans hsize change.size_le, more ++ last, ?_, ?_⟩
      · rw [hlast, hmore, List.append_assoc]
      · intro n hn
        rcases List.mem_append.1 hn with hn | hn
        · exact hnew n hn
        · exact Nat.le_trans hsize (hnewLast n hn)
    exact (h.induction (P := fun r => s.nodes.size ≤ r.nodes.size ∧
      ∃ more, r.unkeyed = s.unkeyed ++ more ∧ ∀ n ∈ more, s.nodes.size ≤ n.index)
      ⟨Nat.le_refl _, [], by simp, by simp⟩ step).2
  entries := by
    intro n e he
    have hbase := Debug.NodeTable.entry?_lt he
    exact h.induction (P := fun r => r.nodes.entry? n = some e) he
      fun _ _ change => entry?_of_change change hbase
  files := fun hfile => ⟨_, files_of_changes h hfile, rfl, rfl⟩

end Changes

/-- Lowering extends the store. -/
theorem extends_lower (h : lower b a s = .ok (n, t)) : s.Extends t :=
  extends_of_changes (lower_changes h)

/-- Showing an instruction of a known type to the pass extends the store. -/
lemma extends_of_typed (lowered : lower b a (s.stamp n b) = .ok (d, t)) :
    s.Extends (t.withDebugType n d) :=
  (extends_stamp.trans (extends_lower lowered)).trans extends_withDebugType

/-- Walking over instructions extends the store. -/
theorem extends_of_walk {instructions : List NodeId} (h : Lowering.Walk b instructions s t) :
    s.Extends t := by
  induction h with
  | nil => exact .refl _
  | untyped _ _ ih => exact extends_stamp.trans ih
  | typed _ lowered _ ih =>
    exact (extends_of_typed lowered).trans ih

end ShaderTypes.Store
