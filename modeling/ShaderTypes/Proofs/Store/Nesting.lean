import Mathlib.Algebra.BigOperators.Group.List.Basic
import ShaderTypes.Proofs.Store.Advance

/-!
# Sizes of nested arrays and vectors

The nodes of a store refer to each other in cycles: a member names the composite that lists it, and
a template the composite that it is attached to.  The element of an array or a vector is part of no
cycle, as it stands before the node it is the element of.  `Store.Layered` is kept by every
operation, also by those with which the caller makes and lists nodes by itself.

So the size of a node is found by going from element to element, and `NodeTable.Measures` says what
is found that way without a look at the places of the nodes.  The counts on the way may be
multiplied in any order and the remainder taken at the end, though words wrap around at each of
them.
-/

namespace ShaderTypes

namespace Debug

/-- The size that an entry gives by itself. -/
def Entry.ownSize : Entry → UInt32
  | .basic e => (e.size.map NodeTable.constantSize).getD 0
  | .composite e => e.size
  | .member e => e.size
  | _ => 0

/-- What the size of the element is multiplied by: the counts of an array, and that of a vector. -/
def Entry.factors : Entry → List UInt32
  | .array e => e.counts
  | .vector e => [e.count]
  | _ => []

/-- What an entry uses is among what it refers to. -/
lemma Entry.mem_nodes_of_mem_uses {e : Entry} {m : NodeId} (h : m ∈ e.uses) : m ∈ e.nodes := by
  cases e <;> simp_all only [uses, nodes, List.mem_cons, List.not_mem_nil, or_false]
  tauto

namespace NodeTable

/-- What is found as the size of a node by going from element to element. -/
inductive Measures (t : NodeTable) : NodeId → UInt32 → Prop
  | own {n : NodeId} {e : Entry} (he : t.entry? n = some e) (base : e.element? = none) :
      Measures t n e.ownSize
  | product {n m : NodeId} {e : Entry} {size : UInt32} (he : t.entry? n = some e)
      (element : e.element? = some m) (tail : Measures t m size) :
      Measures t n (e.factors.foldl (· * ·) size)

/-- Arrays and vectors around a node that is neither, with all their counts from the outside to the
inside. -/
inductive Nested (t : NodeTable) : NodeId → List UInt32 → NodeId → Prop
  | base {n : NodeId} {e : Entry} (he : t.entry? n = some e) (base : e.element? = none) :
      Nested t n [] n
  | around {n m base : NodeId} {e : Entry} {counts : List UInt32} (he : t.entry? n = some e)
      (element : e.element? = some m) (tail : Nested t m counts base) :
      Nested t n (e.factors ++ counts) base

/-- Elements stand before what they are the elements of. -/
def Backward (t : NodeTable) : Prop :=
  ∀ {n m : NodeId} {e : Entry}, t.entry? n = some e → e.element? = some m → m.index < n.index

variable {t : NodeTable} {n m base : NodeId} {e : Entry} {size : UInt32}
  {counts : List UInt32}

/-! ### One level -/

lemma sizeInBits_own (he : t.entry? n = some e) (base : e.element? = none) :
    t.sizeInBits n = e.ownSize := by
  rw [sizeInBits, he]
  cases e <;> first | rfl | cases base

/-- Behind its element, the size of an array or a vector is that of the element times its counts. -/
lemma sizeInBits_product (he : t.entry? n = some e) (element : e.element? = some m)
    (before : m.index < n.index) : t.sizeInBits n = e.factors.foldl (· * ·) (t.sizeInBits m) := by
  rw [sizeInBits, he]
  cases e with
  | array e =>
    cases element
    exact dif_pos before
  | vector e =>
    cases element
    exact dif_pos before
  | _ => cases element

/-- Words are multiplied as numbers, but for a multiple of what a word can hold. -/
lemma toNat_foldl_mul (counts : List UInt32) (size : UInt32) :
    (counts.foldl (· * ·) size).toNat =
      size.toNat * (counts.map UInt32.toNat).prod % 2 ^ 32 := by
  induction counts generalizing size with
  | nil =>
    rw [List.foldl_nil, List.map_nil, List.prod_nil, Nat.mul_one,
      Nat.mod_eq_of_lt size.toNat_lt]
  | cons count counts ih =>
    calc ((count :: counts).foldl (· * ·) size).toNat
        = (size * count).toNat * (counts.map UInt32.toNat).prod % 2 ^ 32 := ih (size * count)
      _ = size.toNat * count.toNat * (counts.map UInt32.toNat).prod % 2 ^ 32 := by
          rw [UInt32.toNat_mul, Nat.mod_mul_mod]
      _ = size.toNat * ((count :: counts).map UInt32.toNat).prod % 2 ^ 32 := by
          rw [List.map_cons, List.prod_cons, Nat.mul_assoc]

/-! ### All levels -/

/-- Whatever is found from element to element is the size. -/
lemma Measures.eq_sizeInBits (ht : t.Backward) (h : t.Measures n size) : size = t.sizeInBits n := by
  induction h with
  | own he base => exact (sizeInBits_own he base).symm
  | product he element _ ih => rw [sizeInBits_product he element (ht he element), ih]

/-- Going from element to element comes to an end. -/
lemma exists_nested (ht : t.Backward) (hn : n.index < t.size) :
    (∃ size, t.Measures n size) ∧ ∃ counts base, t.Nested n counts base := by
  induction hi : n.index using Nat.strongRecOn generalizing n with
  | _ i ih =>
  subst hi
  obtain ⟨node, hnode⟩ := exists_node? hn
  have he := entry?_of_node? hnode
  rcases element : node.entry.element? with _ | m
  · exact ⟨⟨_, .own he element⟩, _, _, .base he element⟩
  · obtain ⟨⟨size, hsize⟩, counts, base, hnested⟩ :=
      ih m.index (ht he element) (Nat.lt_trans (ht he element) hn) rfl
    exact ⟨⟨_, .product he element hsize⟩, _, _, .around he element hnested⟩

/-- The size is that of the innermost node times all counts on the way to it. -/
lemma Nested.toNat_sizeInBits (ht : t.Backward) (h : t.Nested n counts base) :
    (t.sizeInBits n).toNat =
      (t.sizeInBits base).toNat * (counts.map UInt32.toNat).prod % 2 ^ 32 := by
  induction h with
  | base he base =>
    rw [List.map_nil, List.prod_nil, Nat.mul_one, Nat.mod_eq_of_lt (UInt32.toNat_lt _)]
  | @around n m base e counts he element _ ih =>
    calc (t.sizeInBits n).toNat
        = (t.sizeInBits m).toNat * (e.factors.map UInt32.toNat).prod % 2 ^ 32 := by
          rw [sizeInBits_product he element (ht he element), toNat_foldl_mul]
      _ = (t.sizeInBits base).toNat * (counts.map UInt32.toNat).prod *
            (e.factors.map UInt32.toNat).prod % 2 ^ 32 := by
          rw [ih, Nat.mod_mul_mod]
      _ = (t.sizeInBits base).toNat * ((e.factors ++ counts).map UInt32.toNat).prod % 2 ^ 32 := by
          rw [List.map_append, List.prod_append, Nat.mul_assoc,
            Nat.mul_comm (counts.map UInt32.toNat).prod]

end NodeTable

end Debug

namespace Store

/-- What is listed under a key is there, and what a node uses stands before it. -/
structure Layered (s : Store) : Prop where
  listed : ∀ n ∈ s.debugTypes.values, n.index < s.nodes.size
  uses : ∀ {n : NodeId} {e : Debug.Entry}, s.nodes.entry? n = some e →
    ∀ m ∈ e.uses, m.index < n.index

variable {s t : Store} {a : TypeId} {n : NodeId} {b : BuilderId} {e : Debug.Entry}
  {key : Option TypeId} {op : Operation} {reply : Reply}

lemma layered_new (options : Options) : (Store.new options).Layered where
  listed := by simp [new, OrderedMap.values]
  uses := by simp [new, Debug.NodeTable.entry?, Debug.NodeTable.node?]

/-! ### The small operations -/

namespace Layered

lemma backward (hs : s.Layered) : s.nodes.Backward :=
  fun he element => hs.uses he _ (Debug.Entry.mem_uses_of_element? element)

lemma addNode (hs : s.Layered) (uses : ∀ m ∈ e.uses, m.index < s.nodes.size) :
    (s.addNode e).2.Layered := by
  refine ⟨fun n hn => ?_, fun he m hm => ?_⟩
  · exact Nat.lt_of_lt_of_eq (Nat.lt_succ_of_lt (hs.listed n hn)) Debug.NodeTable.size_push.symm
  · rcases Debug.NodeTable.entry?_push_cases he with hold | ⟨rfl, rfl⟩
    · exact hs.uses hold m hm
    · exact uses m hm

lemma unkeyedNode (hs : s.Layered) (uses : ∀ m ∈ e.uses, m.index < s.nodes.size) :
    (s.unkeyedNode e).2.Layered :=
  have added := hs.addNode uses
  ⟨added.listed, added.uses⟩

lemma insert (hs : s.Layered) (known : n.index < s.nodes.size) :
    ({ s with debugTypes := s.debugTypes.insert key n } : Store).Layered := by
  refine ⟨fun m hm => ?_, hs.uses⟩
  rcases OrderedMap.mem_values_insert hm with rfl | hm
  · exact known
  · exact hs.listed m hm

lemma keyedNode (hs : s.Layered) (uses : ∀ m ∈ e.uses, m.index < s.nodes.size) :
    (s.keyedNode key e).2.Layered := by
  rcases hkey : s.debugTypes.get? key with _ | n
  · rw [keyedNode_of_get?_eq_none hkey]
    exact (hs.addNode uses).insert (n := ⟨s.nodes.size⟩)
      (Nat.lt_of_lt_of_eq (Nat.lt_succ_self _) Debug.NodeTable.size_push.symm)
  · rwa [keyedNode_of_get? hkey]

lemma modifyNode {f : Debug.Node → Debug.Node} (hs : s.Layered)
    (resembles : ∀ node : Debug.Node, node.entry.Resembles (f node).entry) :
    (s.modifyNode n f).Layered := by
  refine ⟨fun m hm => ?_, fun he l hl => ?_⟩
  · exact Nat.lt_of_lt_of_eq (hs.listed m hm) Debug.NodeTable.size_modify.symm
  · obtain ⟨e, hold, same⟩ := Debug.NodeTable.entry?_modify_cases resembles he
    exact hs.uses hold l (same.uses ▸ hl)

end Layered

/-- An advance uses what is listed, so it keeps the layers. -/
lemma Advance.layered (h : Advance s t) (hs : s.Layered) : t.Layered := by
  cases h with
  | internType => exact ⟨hs.listed, hs.uses⟩
  | addNode apart => exact hs.addNode (by simp [(Debug.Entry.uses_of_not_isDebugType apart).1])
  | keyedNode _ uses => exact hs.keyedNode fun m hm => hs.listed m (uses m hm)
  | unkeyedNode uses => exact hs.unkeyedNode fun m hm => hs.listed m (uses m hm)
  | modifyNode resembles => exact hs.modifyNode resembles
  | rest => exact ⟨hs.listed, hs.uses⟩

lemma Advances.layered (h : Advances s t) (hs : s.Layered) : t.Layered :=
  h.induction hs fun _ _ advance ih => advance.layered ih

/-! ### All operations -/

open Lowering

/-- The composite of a struct may be listed under any type. -/
lemma layered_of_lowerComposite {struct : Struct} {record : Decl.Record}
    (h : lowerComposite b a struct record s = .ok (n, t)) (hs : s.Layered) : t.Layered := by
  have opened (tag : Debug.CompositeTag) : (openComposite s a struct record tag).2.Layered := by
    rw [openComposite_eq]
    exact (advances_openFile.layered hs).keyedNode (by simp [Debug.Entry.uses])
  cases composing_of_compositeWith h with
  | found => exact opened _
  | filled _ _ _ _ slots =>
    have filled := slots.advances (fun _ _ _ _ hu => advances_of_lower hu) mem_values_keyedNode
    exact (filled.layered (opened _)).modifyNode fun _ => Debug.Entry.resembles_mapComposite

/-- No operation makes a node before what it uses. -/
theorem layered_of_run (hs : s.Layered) (h : s.run op = .ok (reply, t)) : t.Layered := by
  have advanced (leaves : op.leavesDebugTypes = true) : t.Layered :=
    (run_advances leaves h).layered hs
  have uses {e : Debug.Entry} (known : s.KnowsParts e) : ∀ m ∈ e.uses, m.index < s.nodes.size :=
    fun m hm => known.nodes m (Debug.Entry.mem_nodes_of_mem_uses hm)
  cases effect_of_run h with
  | keyed _ known => exact hs.keyedNode (uses known)
  | unkeyed _ known => exact hs.unkeyedNode (uses known)
  | recordDebugType known => exact hs.insert known
  | lowerComposite _ lowered => exact layered_of_lowerComposite lowered hs
  -- All others leave the debug types to lowering.
  | idle idles => exact advanced (by cases idles <;> rfl)
  | types grants => exact advanced (by cases grants <;> rfl)
  | add adds => exact advanced (by cases adds <;> rfl)
  | fill fills => exact advanced (by cases fills <;> rfl)
  | opened opens => exact advanced (by cases opens <;> rfl)
  | _ => exact advanced rfl

/-- In every reachable store, what a node uses stands before it. -/
theorem Reachable.layered (h : s.Reachable) : s.Layered :=
  h.run_induction (fun _ hrun hs => layered_of_run hs hrun) layered_new

/-- In a reachable store, going from element to element finds the size of every node and nothing
else.  The size of arrays and vectors around a node that is neither is the size of that node times
all their counts, but for a multiple of `2 ^ 32`; how the counts are spread over the nodes and how
they are ordered does not matter. -/
theorem Reachable.sizeInBits_of_nested (h : s.Reachable) :
    (∀ n : NodeId, n.index < s.nodes.size →
      (∀ size, s.nodes.Measures n size ↔ size = s.nodes.sizeInBits n) ∧
        ∃ counts base, s.nodes.Nested n counts base) ∧
    (∀ n counts base, s.nodes.Nested n counts base →
      (s.nodes.sizeInBits n).toNat =
        (s.nodes.sizeInBits base).toNat * (counts.map UInt32.toNat).prod % 2 ^ 32) ∧
    ∀ n n' counts counts' base, s.nodes.Nested n counts base → s.nodes.Nested n' counts' base →
      counts.Perm counts' → s.nodes.sizeInBits n = s.nodes.sizeInBits n' := by
  have backward : s.nodes.Backward := h.layered.backward
  refine ⟨fun n hn => ?_, fun n counts base hn => hn.toNat_sizeInBits backward, ?_⟩
  · obtain ⟨⟨size, hsize⟩, hnested⟩ := Debug.NodeTable.exists_nested backward hn
    refine ⟨fun k => ⟨fun hk => hk.eq_sizeInBits backward, ?_⟩, hnested⟩
    rintro rfl
    rwa [← hsize.eq_sizeInBits backward]
  · intro n n' counts counts' base hn hn' perm
    apply UInt32.toNat_inj.1
    rw [hn.toNat_sizeInBits backward, hn'.toNat_sizeInBits backward,
      (perm.map UInt32.toNat).prod_eq]

/-- Where the nodes of the session below are declared. -/
def cyclicSite : Debug.Site where
  source := ⟨0⟩
  line := 1
  column := 1

/-- What is fixed about the composite of the session below. -/
def cyclicHeading : Debug.Heading where
  name := "S"
  site := cyclicSite
  parent := ⟨1⟩
  linkageName := "S"
  flags := .isPublic
  tag := .structureTag

/-- The member of that composite, which is of its type as well. -/
def cyclicMember : Debug.Member where
  name := "x"
  type := ⟨2⟩
  site := cyclicSite
  parent := ⟨2⟩
  offset := 0
  size := 32
  flags := .isPublic
  value := none

/-- A composite of 96 bits lists a member and has a template, both of which name it.  Two arrays and
a vector stand around it, one of the arrays without counts, and beside them an array with the same
counts in another order.  In the end the vector is listed under the type of the composite. -/
def cyclicSession : List Operation :=
  [.type (.integer 32 false), .type (.integer 32 true), .type (.integer 64 false),
    .type (.integer 64 true), .type .bool, .openFile "a.hlsl", .composite ⟨0⟩ cyclicHeading 96,
    .member cyclicMember, .pushMember ⟨2⟩ ⟨3⟩, .template ⟨0⟩ ⟨2⟩, .array ⟨1⟩ ⟨⟨2⟩, [2, 3]⟩,
    .array ⟨2⟩ ⟨⟨5⟩, []⟩, .vector ⟨3⟩ ⟨⟨6⟩, 0x5000000⟩, .array ⟨4⟩ ⟨⟨2⟩, [0x5000000, 3, 2]⟩,
    .recordDebugType ⟨0⟩ ⟨7⟩]

/-- Both ways the size is the remainder of 96 times 2, 3 and `0x5000000`, which is more than a word
can hold. -/
theorem sizeInBits_of_nested_of_cycles : ∃ (s : Store) (c : Debug.Composite) (p : Debug.Template),
    s.Reachable ∧ s.debugType? ⟨0⟩ = some ⟨7⟩ ∧
    s.nodes.entry? ⟨2⟩ = some (.composite c) ∧ c.members = [⟨3⟩] ∧ c.template = some ⟨4⟩ ∧
    s.nodes.entry? ⟨3⟩ = some (.member cyclicMember) ∧
    s.nodes.entry? ⟨4⟩ = some (.template p) ∧ p.target = ⟨2⟩ ∧
    s.nodes.Nested ⟨7⟩ [0x5000000, 2, 3] ⟨2⟩ ∧ s.nodes.Nested ⟨8⟩ [0x5000000, 3, 2] ⟨2⟩ ∧
    s.nodes.Measures ⟨7⟩ (s.nodes.sizeInBits ⟨7⟩) ∧
    (s.nodes.sizeInBits ⟨7⟩).toNat = (s.nodes.sizeInBits ⟨2⟩).toNat * 503316480 % 2 ^ 32 ∧
    s.nodes.sizeInBits ⟨7⟩ = s.nodes.sizeInBits ⟨8⟩ := by
  obtain ⟨replies, s, hsession, ⟨hlisted, hsize⟩, hcomposite, hmember, htemplate, h₅, h₆, h₇, h₈⟩ :=
    exists_of_runAll {} cyclicSession (fun s =>
      (s.debugType? ⟨0⟩ = some ⟨7⟩ ∧ 7 < s.nodes.size) ∧
      ((s.nodes.entry? ⟨2⟩).bind Debug.Entry.composite?).any
        (fun c => c.members = [⟨3⟩] ∧ c.template = some ⟨4⟩) = true ∧
      s.nodes.entry? ⟨3⟩ = some (.member cyclicMember) ∧
      s.nodes.entry? ⟨4⟩ = some (.template { target := ⟨2⟩ }) ∧
      s.nodes.entry? ⟨5⟩ = some (.array ⟨⟨2⟩, [2, 3]⟩) ∧
      s.nodes.entry? ⟨6⟩ = some (.array ⟨⟨5⟩, []⟩) ∧
      s.nodes.entry? ⟨7⟩ = some (.vector ⟨⟨6⟩, 0x5000000⟩) ∧
      s.nodes.entry? ⟨8⟩ = some (.array ⟨⟨2⟩, [0x5000000, 3, 2]⟩)) (by decide +kernel)
  have reached : s.Reachable := ⟨{}, cyclicSession, replies, hsession⟩
  obtain ⟨c, hc, hfilled⟩ := (Option.any_eq_true _ _).1 hcomposite
  obtain ⟨members, template⟩ := of_decide_eq_true hfilled
  have hc := Debug.NodeTable.composite?_eq_some.1 hc
  have base : s.nodes.Nested ⟨2⟩ [] ⟨2⟩ := .base hc rfl
  have vector : s.nodes.Nested ⟨7⟩ [0x5000000, 2, 3] ⟨2⟩ :=
    .around h₇ rfl (.around h₆ rfl (.around h₅ rfl base))
  have array : s.nodes.Nested ⟨8⟩ [0x5000000, 3, 2] ⟨2⟩ := .around h₈ rfl base
  obtain ⟨measured, product, alike⟩ := reached.sizeInBits_of_nested
  exact ⟨s, c, _, reached, hlisted, hc, members, template, hmember, htemplate, rfl, vector, array,
    ((measured ⟨7⟩ hsize).1 _).2 rfl, product _ _ _ vector,
    alike _ _ _ _ _ vector array (by decide)⟩

end Store

end ShaderTypes
