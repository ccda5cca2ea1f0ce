import Mathlib.Data.List.Sort
import ShaderTypes.Proofs.Lowering.Account
import ShaderTypes.Proofs.Lowering.Depicted
import ShaderTypes.Proofs.Lowering.Order
import ShaderTypes.Proofs.Store.Keeping

/-!
# Members and their composites

A member names its composite, the composite lists its members, and all members together are listed
apart.  When the debug types are left to lowering, these three agree: the members listed apart that
name a composite are those that it lists, in the same order.

Nothing is claimed of a composite while it is filled, only of those that a lowering leaves behind.
`Store.Assembled` collects what is kept: what is listed apart is listed by the composite it names,
and what a composite lists are functions, and members that name it and were made in this order.  As
what is listed apart was made in that order too, two lists with the same members are the same.
-/

namespace ShaderTypes

namespace Store

/-- The composite that the member at a node belongs to. -/
def parent? (s : Store) (n : NodeId) : Option NodeId :=
  ((s.nodes.entry? n).bind Debug.Entry.member?).map Debug.Member.parent

/-- What the composite `n` may list: functions, and members that belong to it, the later ones made
after the earlier ones, and none before the node with the index `low`. -/
inductive Assembles (s : Store) (n : NodeId) : Nat → List NodeId → Prop
  | nil {low : Nat} : Assembles s n low []
  | function {low : Nat} {m : NodeId} {ms : List NodeId} {f : Debug.Function}
      (function : s.nodes.entry? m = some (.function f)) (tail : Assembles s n low ms) :
      Assembles s n low (m :: ms)
  | member {low : Nat} {m : NodeId} {ms : List NodeId} {d : Debug.Member} (made : low ≤ m.index)
      (member : s.nodes.entry? m = some (.member d)) (parent : d.parent = n)
      (tail : Assembles s n (m.index + 1) ms) : Assembles s n low (m :: ms)

/-- The node is a member of a composite that is listed under a type and lists it. -/
def Placed (s : Store) (m : NodeId) : Prop :=
  ∃ d v c, s.nodes.entry? m = some (.member d) ∧ s.debugType? v = some d.parent ∧
    s.nodes.entry? d.parent = some (.composite c) ∧ m ∈ c.members

/-- Whether an operation leaves the debug types to lowering, and the members of composites with
them.  Templates and their parameters would be listed apart as well, and a function that is saved
for a method is one of the members. -/
def leavesMembers (s : Store) (op : Operation) : Bool :=
  op.leavesDebugTypes && !op.addsMembers && !op.listsApart &&
    match op with
    | .saveFunction _ n => (s.nodes.entry? n).any (·.function?.isSome)
    | _ => true

/-- What is listed apart has its place in a composite, and every composite that is listed under a
type is assembled.  Under no type there is the placeholder, and what is saved for methods are
functions. -/
structure Assembled (s : Store) : Prop where
  unkeyed : ∀ m ∈ s.unkeyed, s.Placed m
  composites : ∀ {v : TypeId} {n : NodeId} {c : Debug.Composite}, s.debugType? v = some n →
    s.nodes.entry? n = some (.composite c) → s.Assembles n 0 c.members
  placeholder : ∀ {n : NodeId}, s.debugTypes.get? none = some n →
    s.nodes.entry? n = some placeholderEntry
  functions : ∀ {id : Decl.MethodId} {n : NodeId}, s.function? id = some n →
    ∃ f, s.nodes.entry? n = some (.function f)

variable {s t : Store} {a v : TypeId} {n m d : NodeId} {b : BuilderId} {c : Debug.Composite}
  {low : Nat} {ms : List NodeId} {op : Operation} {sized closed : Prop}

lemma parent?_eq_some : s.parent? m = some n ↔
    ∃ d, s.nodes.entry? m = some (.member d) ∧ d.parent = n := by
  rw [parent?]
  rcases s.nodes.entry? m with _ | e
  · simp
  · cases e <;> simp [Debug.Entry.member?]

lemma parent?_of_member {d : Debug.Member} (h : s.nodes.entry? m = some (.member d)) :
    s.parent? m = some d.parent :=
  parent?_eq_some.2 ⟨d, h, rfl⟩

lemma parent?_of_function {f : Debug.Function} (h : s.nodes.entry? m = some (.function f)) :
    s.parent? m = none := by
  rw [parent?, h]
  rfl

/-! ### Lists in the order of making -/

lemma nodup_of_increasing {l : List NodeId} (h : l.Pairwise fun m n => m.index < n.index) :
    l.Nodup := by
  refine h.imp ?_
  rintro m _ hlt rfl
  exact Nat.lt_irrefl _ hlt

/-- Lists of nodes in the order of their making are the same if they have the same nodes. -/
lemma eq_of_increasing {l l' : List NodeId} (h : l.Pairwise fun m n => m.index < n.index)
    (h' : l'.Pairwise fun m n => m.index < n.index) (mem : ∀ m, m ∈ l ↔ m ∈ l') : l = l' := by
  have irrefl : Std.Irrefl fun m n : NodeId => m.index < n.index := ⟨fun _ => Nat.lt_irrefl _⟩
  have antisymm : Std.Antisymm fun m n : NodeId => m.index < n.index :=
    ⟨fun _ _ hlt hgt => absurd hlt (Nat.lt_asymm hgt)⟩
  exact h.eq_of_mem_iff h' mem

/-! ### What one composite lists -/

namespace Assembles

lemma of_le {low' : Nat} (h : s.Assembles n low ms) (hle : low' ≤ low) : s.Assembles n low' ms := by
  induction h generalizing low' with
  | nil => exact .nil
  | function function _ ih => exact .function function (ih hle)
  | member made member parent tail _ => exact .member (Nat.le_trans hle made) member parent tail

lemma of_keeps (h : s.Assembles n low ms) (after : s.Keeps sized closed t) :
    t.Assembles n low ms := by
  induction h with
  | nil => exact .nil
  | function function _ ih => exact .function (after.entry?_eq function rfl) ih
  | member made member parent _ ih =>
    exact .member made (after.entry?_eq member rfl) parent ih

/-- A member belongs to the composite that lists it. -/
lemma eq_of_parent? {p : NodeId} (h : s.Assembles n low ms) (hm : m ∈ ms)
    (hp : s.parent? m = some p) : n = p := by
  induction h with
  | nil => cases hm
  | function function _ ih =>
    rcases List.mem_cons.1 hm with rfl | hm
    · cases hp.symm.trans (parent?_of_function function)
    · exact ih hm
  | member _ member parent _ ih =>
    rcases List.mem_cons.1 hm with rfl | hm
    · exact parent.symm.trans (Option.some.inj ((parent?_of_member member).symm.trans hp))
    · exact ih hm

/-- The members that a composite lists are listed in the order of their making. -/
lemma increasing (h : s.Assembles n low ms) :
    (∀ m ∈ ms.filter (s.parent? · |>.isSome), low ≤ m.index) ∧
      (ms.filter (s.parent? · |>.isSome)).Pairwise fun m m' => m.index < m'.index := by
  induction h with
  | nil => exact ⟨by simp, .nil⟩
  | function function _ ih =>
    rwa [List.filter_cons_of_neg (by simp [parent?_of_function function])]
  | member made member _ _ ih =>
    rw [List.filter_cons_of_pos (by simp [parent?_of_member member])]
    refine ⟨List.forall_mem_cons.2 ⟨made, fun l hl => ?_⟩, List.pairwise_cons.2 ⟨ih.1, ih.2⟩⟩
    exact Nat.le_trans made (Nat.le_of_succ_le (ih.1 l hl))

/-- No member is listed twice by a composite. -/
lemma count_eq_one {p : NodeId} (h : s.Assembles n low ms) (hm : m ∈ ms)
    (hp : s.parent? m = some p) : ms.count m = 1 := by
  have hsome : (s.parent? m).isSome = true := Option.isSome_of_eq_some hp
  rw [← List.count_filter (p := (s.parent? · |>.isSome)) hsome]
  exact List.count_eq_one_of_mem (nodup_of_increasing h.increasing.2)
    (List.mem_filter.2 ⟨hm, hsome⟩)

end Assembles

/-- What is made for the slots of a struct is assembled, if functions are saved for methods only. -/
lemma Populates.assembles {slots : List Lowering.Slot} {extent extent' : Lowering.Extent}
    (h : s.Populates n slots low extent ms extent')
    (functions : ∀ {id m}, s.function? id = some m → ∃ f, s.nodes.entry? m = some (.function f)) :
    s.Assembles n low ms := by
  induction h with
  | nil => exact .nil
  | method function _ ih =>
    obtain ⟨f, hf⟩ := functions function
    exact .function hf ih
  | data made _ _ _ member _ ih => exact .member made member rfl ih

/-! ### What is assembled stays assembled -/

lemma Placed.of_keeps (h : s.Placed m) (after : s.Keeps sized closed t)
    (listed : ∀ {v n}, s.debugType? v = some n → t.debugType? v = some n) : t.Placed m := by
  obtain ⟨d, v, c, hm, hv, hc, hmem⟩ := h
  obtain ⟨e, he, retains⟩ := after _ _ hc
  have hm' := after.entry?_eq hm rfl
  cases retains with
  | same => exact ⟨d, v, c, hm', listed hv, he, hmem⟩
  | composite _ _ more => exact ⟨d, v, _, hm', listed hv, he, more.subset hmem⟩

/-- A composite that is listed stays assembled when no members are added to it. -/
lemma Assembled.assembles_of_keeps (hs : s.Assembled) (sound : s.Sound)
    (after : s.Keeps sized closed t) (same : closed) (hv : s.debugType? v = some n)
    (hc : t.nodes.entry? n = some (.composite c)) : t.Assembles n 0 c.members := by
  obtain ⟨c', hc', members, -⟩ := after.exists_composite (sound.lt_of_get? hv) hc
  rw [members same]
  exact (hs.composites hv hc').of_keeps after

/-- Where the registry is left and composites get no members, nothing has to be assembled. -/
lemma Assembled.of_keeps (hs : s.Assembled) (sound : s.Sound) (after : s.Keeps sized closed t)
    (same : closed) (debugTypes : t.debugTypes = s.debugTypes) (unkeyed : t.unkeyed = s.unkeyed)
    (functions : ∀ {id n}, t.function? id = some n → ∃ f, s.nodes.entry? n = some (.function f)) :
    t.Assembled where
  unkeyed := by
    intro m hm
    rw [unkeyed] at hm
    exact (hs.unkeyed m hm).of_keeps after fun hv => by rwa [debugType?, debugTypes]
  composites := by
    intro v n c hv hc
    rw [debugType?, debugTypes] at hv
    exact hs.assembles_of_keeps sound after same hv hc
  placeholder := after.entry?_placeholder debugTypes hs.placeholder
  functions := by
    intro id n hn
    obtain ⟨f, hf⟩ := functions hn
    exact ⟨f, after.entry?_eq hf rfl⟩

lemma exists_function_of_leavesMembers {id : Decl.MethodId}
    (leaves : s.leavesMembers (.saveFunction id n) = true) :
    ∃ f, s.nodes.entry? n = some (.function f) := by
  obtain ⟨e, he, hsome⟩ := (Option.any_eq_true _ _).1 leaves
  cases e with
  | function f => exact ⟨f, he⟩
  | _ => cases hsome

lemma Assembled.of_beside (hs : s.Assembled) (sound : s.Sound)
    (leaves : s.leavesMembers op = true) (h : s.Beside op t) : t.Assembled := by
  have same : op.addsMembers = false ∧ op.listsApart = false := by
    simp only [leavesMembers, Bool.and_eq_true, Bool.not_eq_true'] at leaves
    exact ⟨leaves.1.1.2, leaves.1.2⟩
  refine hs.of_keeps sound h.keeps same.1 h.debugTypes (h.unkeyed same.2) fun hn => ?_
  rcases h.functions hn with hn | rfl
  · exact hs.functions hn
  · exact exists_function_of_leavesMembers leaves

lemma Assembled.of_stays (hs : s.Assembled) (sound : s.Sound) (h : s.Stays t) : t.Assembled := by
  have after : s.Keeps True True t := keeps_of_extends h.after
  refine hs.of_keeps sound after trivial h.debugTypes h.unkeyed fun hn => ?_
  rw [function?, h.methods] at hn
  exact hs.functions hn

/-- A lowering assembles the composites that it lists, and what it lists apart are their members. -/
lemma Assembled.lower (hs : s.Assembled) (regular : s.Regular) (h : lower b a s = .ok (n, t)) :
    t.Assembled := by
  have after := extends_lower h
  have keeps : s.Keeps True True t := keeps_of_extends after
  have depicted := listsDepicted_lower h regular
  have functions {id : Decl.MethodId} {m : NodeId} (hm : t.function? id = some m) :
      ∃ f, s.nodes.entry? m = some (.function f) := by
    rw [function?_of_changes (lower_changes h)] at hm
    exact hs.functions hm
  refine ⟨fun m hm => ?_, fun {v n c} hv hc => ?_,
    fun hn => depicted.entry?_placeholder after hs.placeholder hn,
    fun hm => (functions hm).imp fun f hf => after.entries hf⟩
  · rcases (accounts_lower h).unkeyed m hm with hold | ⟨v, n, c, hv, hnone, hc, hmem⟩
    · exact (hs.unkeyed m hold).of_keeps keeps after.get?_debugTypes
    obtain ⟨more, hmore, hnew⟩ := after.unkeyed
    rw [hmore] at hm
    rcases List.mem_append.1 hm with hm | hm
    · exact (hs.unkeyed m hm).of_keeps keeps after.get?_debugTypes
    obtain ⟨x, e, -, he, hd⟩ := depicted.typed hv hnone
    obtain rfl : e = .composite c := Option.some.inj (he.symm.trans hc)
    obtain ⟨_, _, slots, extent, _, _, _, populates⟩ := hd.populates
    obtain ⟨i, hi⟩ := List.mem_iff_getElem?.1 hmem
    rcases populates.getElem?_cases hi with ⟨decl, -, function⟩ | ⟨-, -, d, hmember, rfl⟩
    · -- A function was saved before, and what is listed apart now is new.
      obtain ⟨f, hf⟩ := functions function
      exact absurd (Debug.NodeTable.entry?_lt hf) (Nat.not_lt.2 (hnew m hm))
    · exact ⟨d, v, c, hmember, hv, hc, hmem⟩
  · rcases hsv : s.debugType? v with _ | n'
    · obtain ⟨x, e, -, he, hd⟩ := depicted.typed hv hsv
      obtain rfl := Option.some.inj (he.symm.trans hc)
      obtain ⟨_, _, slots, extent, _, _, _, populates⟩ := hd.populates
      have assembles := populates.assembles fun hm =>
        (functions hm).imp fun f hf => after.entries hf
      exact assembles.of_le (Nat.zero_le _)
    · obtain rfl : n' = n := Option.some.inj ((after.get?_debugTypes hsv).symm.trans hv)
      exact hs.assembles_of_keeps regular.sound keeps trivial hsv hc

lemma leavesDebugTypes_of_leavesMembers (leaves : s.leavesMembers op = true) :
    op.leavesDebugTypes = true := by
  simp only [leavesMembers, Bool.and_eq_true] at leaves
  exact leaves.1.1.1

lemma ReachedBy.assembled (h : s.ReachedBy leavesMembers) : s.Assembled := by
  refine h.induction (P := Assembled) leavesDebugTypes_of_leavesMembers (fun options => ?_)
    (fun regular leaves h hs => hs.of_beside regular.sound leaves h)
    (fun regular h hs => hs.of_stays regular.sound h) (fun regular _ h hs => hs.lower regular h)
  exact ⟨fun _ hm => (by cases hm), fun hv => (by cases hv), fun hn => (by cases hn),
    fun hn => (by cases hn)⟩

/-! ### What is listed apart -/

lemma Advance.size_le (h : Advance s t) : s.nodes.size ≤ t.nodes.size := by
  cases h with
  | addNode => exact Nat.le_of_lt (by simp [Store.addNode])
  | keyedNode => exact nodes_le_keyedNode.length_le
  | unkeyedNode => exact nodes_le_unkeyedNode.length_le
  | modifyNode => exact Nat.le_of_eq Debug.NodeTable.size_modify.symm
  | _ => exact Nat.le_refl _

/-- What is listed apart is listed in the order of its making. -/
lemma LeftToLowering.unkeyed_increasing (h : s.LeftToLowering) :
    s.unkeyed.Pairwise fun m n => m.index < n.index := by
  refine (h.induction (P := fun r => (∀ n ∈ r.unkeyed, n.index < r.nodes.size) ∧
    r.unkeyed.Pairwise fun m n => m.index < n.index) (fun _ => ⟨by simp [new], .nil⟩) ?_).2
  rintro r r' advance ⟨known, increasing⟩
  have same (heq : r'.unkeyed = r.unkeyed) : (∀ n ∈ r'.unkeyed, n.index < r'.nodes.size) ∧
      r'.unkeyed.Pairwise fun m n => m.index < n.index := by
    rw [heq]
    exact ⟨fun n hn => Nat.lt_of_lt_of_le (known n hn) advance.size_le, increasing⟩
  cases advance with
  | keyedNode => exact same unkeyed_keyedNode
  | @unkeyedNode e =>
    have hsize : (r.unkeyedNode e).2.nodes.size = r.nodes.size + 1 := Debug.NodeTable.size_push
    have hlist : (r.unkeyedNode e).2.unkeyed = r.unkeyed ++ [⟨r.nodes.size⟩] := rfl
    rw [hsize, hlist]
    refine ⟨fun n hn => ?_, List.pairwise_append.2 ⟨increasing, List.pairwise_singleton _ _, ?_⟩⟩
    · rcases List.mem_append.1 hn with hn | hn
      · exact Nat.lt_succ_of_lt (known n hn)
      · rw [List.mem_singleton.1 hn]
        exact Nat.lt_succ_self _
    · intro m hm n hn
      rw [List.mem_singleton.1 hn]
      exact known m hm
  | _ => exact same rfl

/-- Every composite is listed under a key. -/
lemma LeftToLowering.mem_values_of_composite (h : s.LeftToLowering)
    (hc : s.nodes.entry? n = some (.composite c)) : n ∈ s.debugTypes.values := by
  refine h.induction (P := fun r => ∀ {n e}, r.nodes.entry? n = some e →
    e.composite?.isSome = true → n ∈ r.debugTypes.values) (fun _ => ?_) ?_ hc rfl
  · simp [new, Debug.NodeTable.entry?, Debug.NodeTable.node?]
  intro r r' advance hr n e he hsome
  have old {e : Debug.Entry} (he : r.nodes.entry? n = some e)
      (hsome : e.composite?.isSome = true) : n ∈ r'.debugTypes.values :=
    advance.advances.mem_values (hr he hsome)
  cases advance with
  | internType => exact old he hsome
  | addNode apart =>
    rcases Debug.NodeTable.entry?_push_cases he with he | ⟨-, rfl⟩
    · exact old he hsome
    · cases e <;> simp_all [Debug.Entry.composite?, Debug.Entry.isDebugType]
  | @keyedNode key e' =>
    rcases hkey : r.debugTypes.get? key with _ | n'
    · have hlisted : (r.keyedNode key e').1 ∈ (r.keyedNode key e').2.debugTypes.values :=
        Lowering.mem_values_keyedNode
      rw [keyedNode_of_get?_eq_none hkey] at he old hlisted ⊢
      rcases Debug.NodeTable.entry?_push_cases he with he | ⟨rfl, -⟩
      · exact old he hsome
      · exact hlisted
    · rw [keyedNode_of_get? hkey] at he old ⊢
      exact old he hsome
  | unkeyedNode _ composite =>
    rcases Debug.NodeTable.entry?_push_cases he with he | ⟨-, rfl⟩
    · exact old he hsome
    · simp [composite] at hsome
  | modifyNode resembles =>
    obtain ⟨e', he', same⟩ := Debug.NodeTable.entry?_modify_cases resembles he
    exact old he' (same.composite ▸ hsome)
  | rest => exact old he hsome

/-- Every composite is assembled, since it is listed under a type. -/
lemma Assembled.assembles (hs : s.Assembled) (left : s.LeftToLowering)
    (hc : s.nodes.entry? n = some (.composite c)) : s.Assembles n 0 c.members := by
  have listed := left.mem_values_of_composite hc
  obtain ⟨⟨key, n'⟩, hmem, rfl⟩ := List.mem_map.1 listed
  have hkey := OrderedMap.get?_of_mem left.reachable.sound.keys hmem
  cases key with
  | some v => exact hs.composites hkey hc
  | none =>
    -- What is listed under no type is the placeholder.
    cases hc.symm.trans (hs.placeholder hkey)

/-- If the debug types and their members are left to lowering, what is listed apart are the members,
all of them and each once.  A member belongs to a composite that is listed under a type; that
composite lists it once, and no other lists it.  The members listed apart that belong to a composite
are those that it lists, in the same order. -/
theorem ReachedBy.members_agree (h : s.ReachedBy leavesMembers) :
    s.unkeyed.Nodup ∧
    (∀ m, m ∈ s.unkeyed ↔ ∃ d, s.nodes.entry? m = some (.member d)) ∧
    (∀ m d, s.nodes.entry? m = some (.member d) → d.parent ∈ s.debugTypes.values ∧
      ∃ c, s.nodes.entry? d.parent = some (.composite c) ∧ c.members.count m = 1 ∧
        ∀ n c', s.nodes.entry? n = some (.composite c') → m ∈ c'.members → n = d.parent) ∧
    ∀ n c, s.nodes.entry? n = some (.composite c) →
      s.unkeyed.filter (s.parent? · = some n) = c.members.filter (s.parent? · |>.isSome) := by
  have left := h.leftToLowering leavesDebugTypes_of_leavesMembers
  have increasing := left.unkeyed_increasing
  have assembles {n : NodeId} {c : Debug.Composite} (hc : s.nodes.entry? n = some (.composite c)) :
      s.Assembles n 0 c.members := h.assembled.assembles left hc
  have listed {m : NodeId} {d : Debug.Member} (hm : s.nodes.entry? m = some (.member d)) :
      m ∈ s.unkeyed := left.staged.members hm rfl
  have placed {m : NodeId} {d : Debug.Member} (hm : s.nodes.entry? m = some (.member d)) :
      ∃ v c, s.debugType? v = some d.parent ∧ s.nodes.entry? d.parent = some (.composite c) ∧
        m ∈ c.members := by
    obtain ⟨d', v, c, hm', hplace⟩ := h.assembled.unkeyed m (listed hm)
    obtain rfl : d' = d := by
      simpa using hm'.symm.trans hm
    exact ⟨v, c, hplace⟩
  refine ⟨nodup_of_increasing increasing, fun m => ?_, ?_, ?_⟩
  · refine ⟨fun hm => ?_, fun ⟨_, hd⟩ => listed hd⟩
    obtain ⟨d, -, -, hd, -⟩ := h.assembled.unkeyed m hm
    exact ⟨d, hd⟩
  · intro m d hm
    obtain ⟨v, c, hv, hc, hmem⟩ := placed hm
    refine ⟨OrderedMap.mem_values_of_get? hv, c, hc, ?_, fun n c' hc' hmem' => ?_⟩
    · exact (assembles hc).count_eq_one hmem (parent?_of_member hm)
    · exact (assembles hc').eq_of_parent? hmem' (parent?_of_member hm)
  · intro n c hc
    refine eq_of_increasing (increasing.filter _) (assembles hc).increasing.2 fun m => ?_
    rw [List.mem_filter, List.mem_filter, decide_eq_true_eq, Option.isSome_iff_exists]
    constructor
    · rintro ⟨-, hp⟩
      obtain ⟨d, hm, rfl⟩ := parent?_eq_some.1 hp
      obtain ⟨-, c', -, hc', hmem⟩ := placed hm
      obtain rfl : c' = c := by simpa using hc'.symm.trans hc
      exact ⟨hmem, d.parent, hp⟩
    · rintro ⟨hmem, p, hp⟩
      obtain rfl := (assembles hc).eq_of_parent? hmem hp
      obtain ⟨d, hm, -⟩ := parent?_eq_some.1 hp
      exact ⟨listed hm, hp⟩

/-- A struct with two fields of one type. -/
def innerStruct : Struct where
  name := "In"
  fields := [{ type := ⟨0⟩ }, { type := ⟨0⟩ }]
  record := some
    { id := ⟨1⟩, name := "In", keyword := .structKeyword, location := ⟨"a.hlsl", 1, 1⟩
      members := [.field { id := ⟨1⟩, name := "x", location := ⟨"a.hlsl", 2, 3⟩ },
        .field { id := ⟨2⟩, name := "y", location := ⟨"a.hlsl", 3, 3⟩ }] }

/-- A struct with two of these, a field of their type and a method. -/
def outerStruct : Struct where
  name := "Out"
  fields := [{ type := ⟨0⟩ }, { type := ⟨1⟩ }, { type := ⟨1⟩ }]
  record := some
    { id := ⟨0⟩, name := "Out", keyword := .structKeyword, location := ⟨"a.hlsl", 5, 1⟩
      members := [.field { id := ⟨3⟩, name := "n", location := ⟨"a.hlsl", 6, 3⟩ },
        .method { id := ⟨0⟩, name := "f", location := ⟨"a.hlsl", 7, 3⟩ },
        .field { id := ⟨4⟩, name := "p", location := ⟨"a.hlsl", 8, 3⟩ },
        .field { id := ⟨5⟩, name := "q", location := ⟨"a.hlsl", 9, 3⟩ }] }

/-- The outer struct is lowered, and then the inner one, which was reached already. -/
def nestedSession : List Operation :=
  [.openFile "a.hlsl",
    .function
      { name := "f", site := ⟨⟨0⟩, 7, 3⟩, parent := ⟨1⟩, linkageName := "f", flags := .isPublic
        scopeLine := 7, type := none },
    .saveFunction ⟨0⟩ ⟨2⟩, .type (.integer 32 false), .type (.struct innerStruct),
    .type (.struct outerStruct), .lower ⟨0⟩ ⟨2⟩, .lower ⟨0⟩ ⟨1⟩]

/-- The members of the inner struct are made between those of the outer one, and all are listed
apart in this order; those of the outer struct are the ones that its composite lists beside the
method. -/
theorem members_agree_of_nested : ∃ (s : Store) (c : Debug.Composite),
    s.ReachedBy leavesMembers ∧ s.unkeyed = [⟨5⟩, ⟨7⟩, ⟨8⟩, ⟨9⟩, ⟨10⟩] ∧
    s.nodes.entry? ⟨3⟩ = some (.composite c) ∧
    c.members = [⟨5⟩, ⟨2⟩, ⟨9⟩, ⟨10⟩] ∧
    s.unkeyed.filter (s.parent? · = some ⟨3⟩) = c.members.filter (s.parent? · |>.isSome) ∧
    ∃ d, s.nodes.entry? ⟨9⟩ = some (.member d) ∧ d.parent ∈ s.debugTypes.values := by
  obtain ⟨replies, s, hsession, hlisted, hcomposite⟩ := exists_of_runAll {} nestedSession
    (fun s => s.unkeyed = [⟨5⟩, ⟨7⟩, ⟨8⟩, ⟨9⟩, ⟨10⟩] ∧
      ((s.nodes.composite? ⟨3⟩).any (·.members = [⟨5⟩, ⟨2⟩, ⟨9⟩, ⟨10⟩])) = true) (by decide +kernel)
  have built : s.ReachedBy leavesMembers :=
    ReachedBy.runAll (.new {}) (by decide +kernel) hsession
  obtain ⟨c, hc, hmembers⟩ := (Option.any_eq_true _ _).1 hcomposite
  rw [Debug.NodeTable.composite?_eq_some] at hc
  obtain ⟨-, listed, placed, ordered⟩ := built.members_agree
  obtain ⟨d, hd⟩ := (listed ⟨9⟩).1 (by simp [hlisted])
  exact ⟨s, c, built, hlisted, hc, of_decide_eq_true hmembers, ordered ⟨3⟩ c hc, d, hd,
    (placed ⟨9⟩ d hd).1⟩

end Store

end ShaderTypes
