import ShaderTypes.Proofs.Lowering.Completion
import ShaderTypes.Proofs.Lowering.Description
import ShaderTypes.Proofs.Lowering.Reach

/-!
# What a pass leaves unstamped

A pass stamps the instructions that it is shown and whatever it lists itself.  Of the nodes that
were listed before, it stamps the placeholder only, and that only if lowering comes to a type that
cannot be described: `Store.FallsBack` says of which types this is so.  It is told from the store in
which the pass begins, because a type that is lowered on the way and falls back has already stamped
the placeholder.

So a node that was listed before the pass without a stamp is appended to the module without one.
-/

namespace ShaderTypes

namespace Store

/-- Lowering the type comes to a type that cannot be described, unless it comes to one that has a
debug type before. -/
inductive FallsBack (s : Store) : TypeId → Prop
  | undescribed {a : TypeId} {x : Shape} (h : s.debugType? a = none)
      (hx : s.types.shape? a = some x) (described : x.isDescribed = false)
      (pointer : x.isPointer = false) : FallsBack s a
  | part {a u : TypeId} {x : Shape} (h : s.debugType? a = none) (hx : s.types.shape? a = some x)
      (hu : u ∈ s.types.parts x) (fallsBack : FallsBack s u) : FallsBack s a

variable {s r t : Store} {a u p : TypeId} {n : NodeId} {b : BuilderId} {x : Shape}

/-! ### The same question later -/

lemma FallsBack.debugType?_eq_none (h : s.FallsBack a) : s.debugType? a = none := by
  cases h with
  | undescribed h => exact h
  | part h => exact h

section Sustained

variable (wf : s.types.WellFormed) (h : s.Sustains r) (known : a.index < s.types.size)
include h known

lemma Sustains.shape?_eq : r.types.shape? a = s.types.shape? a :=
  TypeTable.shape?_eq_of_lt h.shapes known

omit known in
/-- A type that has no debug type later had none before. -/
lemma Sustains.debugType?_eq_none (ha : r.debugType? a = none) : s.debugType? a = none := by
  rw [Option.eq_none_iff_forall_ne_some]
  intro n hn
  cases ha.symm.trans (h.keyed hn)

include wf

lemma Sustains.parts_eq (hx : r.types.shape? a = some x) : r.types.parts x = s.types.parts x := by
  rw [h.shape?_eq known] at hx
  exact TypeTable.parts_eq h.shapes fun u hu => wf.operand_lt hx hu

/-- The parts of a type that was known were known. -/
lemma Sustains.part_lt (hx : r.types.shape? a = some x) (hu : u ∈ r.types.parts x) :
    u.index < s.types.size := by
  rw [h.shape?_eq known] at hx
  exact wf.operand_lt hx (TypeTable.mem_operands_of_mem_parts hu)

/-- Whether a type that can be described, or a pointer, falls back is a question about its parts. -/
lemma Sustains.exists_part (hx : r.types.shape? a = some x)
    (hkind : x.isDescribed = true ∨ x.isPointer = true) (ha : s.FallsBack a) :
    ∃ u ∈ r.types.parts x, s.FallsBack u := by
  have hparts := h.parts_eq wf known hx
  rw [h.shape?_eq known] at hx
  cases ha with
  | undescribed _ hy described pointer =>
    obtain rfl := Option.some.inj (hx.symm.trans hy)
    simp [described, pointer] at hkind
  | @part _ u _ _ hy hu fallsBack =>
    obtain rfl := Option.some.inj (hx.symm.trans hy)
    exact ⟨u, hparts ▸ hu, fallsBack⟩

lemma Sustains.fallsBack_of_part (ha : r.debugType? a = none) (hx : r.types.shape? a = some x)
    (hu : u ∈ r.types.parts x) (fallsBack : s.FallsBack u) : s.FallsBack a := by
  have hparts := h.parts_eq wf known hx
  rw [h.shape?_eq known] at hx
  exact .part (h.debugType?_eq_none ha) hx (hparts ▸ hu) fallsBack

omit wf in
lemma Sustains.fallsBack_of_undescribed (ha : r.debugType? a = none)
    (hx : r.types.shape? a = some x) (described : x.isDescribed = false)
    (pointer : x.isPointer = false) : s.FallsBack a := by
  rw [h.shape?_eq known] at hx
  exact .undescribed (h.debugType?_eq_none ha) hx described pointer

end Sustained

/-! ### Types that fall back stamp the placeholder -/

/-- What holds in the course of a pass that began in the store `s` with the placeholder `p`: unless
the placeholder was stamped, no type below the bound that falls back on it was listed since. -/
structure Settled (s : Store) (b : BuilderId) (p : NodeId) (bound : Nat) (r : Store) : Prop where
  sustains : s.Sustains r
  made : p.index < r.nodes.size
  spared : r.isStamped b p = true ∨
    ∀ v, v.index < bound → s.FallsBack v → r.debugType? v = none

namespace Settled

variable {p : NodeId} {bound base : Nat}

lemma mono {bound' : Nat} (h : s.Settled b p bound r) (hle : bound' ≤ bound) :
    s.Settled b p bound' r where
  sustains := h.sustains
  made := h.made
  spared := h.spared.imp_right fun hr v hv => hr v (Nat.lt_of_lt_of_le hv hle)

/-- Changes that list no type below the bound. -/
lemma changes {keys : Store → TypeId → Prop} (h : s.Settled b p bound r)
    (hc : Lowering.Changes b keys base r t)
    (listed : ∀ v, v.index < bound → r.debugType? v = none → t.debugType? v = none) :
    s.Settled b p bound t where
  sustains := h.sustains.trans (sustains_of_changes hc)
  made := Nat.lt_of_lt_of_le h.made hc.size_le
  spared := by
    rcases h.spared with stamped | hr
    · exact Or.inl (isStamped_of_changes hc stamped)
    · exact Or.inr fun v hv fallsBack => listed v hv (hr v hv fallsBack)

/-- Changes that list types below `low` only, and leave those settled. -/
lemma raise {low : Nat} (h : s.Settled b p bound r)
    (hc : Lowering.Changes b (Lowering.Listable low) base r t) (ht : s.Settled b p low t) :
    s.Settled b p bound t where
  sustains := ht.sustains
  made := ht.made
  spared := by
    rcases ht.spared with stamped | below
    · exact Or.inl stamped
    rcases h.spared with stamped | hr
    · exact Or.inl (isStamped_of_changes hc stamped)
    refine Or.inr fun v hv fallsBack => ?_
    -- Below `low` this is known of `t`, and no type from there on was listed.
    rcases Nat.lt_or_ge v.index low with hlow | hlow
    · exact below v hlow fallsBack
    · exact hc.debugType?_eq_none hlow (hr v hv fallsBack)

/-- One more type may be listed, if it stamps the placeholder when it falls back. -/
lemma succ (h : s.Settled b p a.index t) (ha : s.FallsBack a → t.isStamped b p = true) :
    s.Settled b p (a.index + 1) t where
  sustains := h.sustains
  made := h.made
  spared := by
    by_cases fallsBack : s.FallsBack a
    · exact Or.inl (ha fallsBack)
    refine h.spared.imp_right fun ht v hv hfalls => ht v ?_ hfalls
    have hne : v.index ≠ a.index := by
      intro heq
      have hva : v = a := by
        cases v
        cases a
        exact congrArg TypeId.mk heq
      exact fallsBack (hva ▸ hfalls)
    omega

end Settled

end Store

namespace Lowering

open Store

variable {s r t : Store} {a u : TypeId} {n p : NodeId} {b : BuilderId}

/-- A lowering keeps a store settled, and stamps the placeholder if its type falls back. -/
abbrev Settling (s : Store) (b : BuilderId) (p : NodeId) :
    TypeId → TypeId → Store → NodeId → Store → Prop :=
  Lowered b fun a r _ t => a.index < s.types.size → s.Settled b p (a.index + 1) r →
    s.Settled b p (a.index + 1) t ∧ (s.FallsBack a → t.isStamped b p = true)

lemma settled_of_part (h : Settling s b p a u r n t) (known : u.index < s.types.size)
    (hr : s.Settled b p a.index r) :
    s.Settled b p a.index t ∧ (s.FallsBack u → t.isStamped b p = true) := by
  obtain ⟨ht, hstamped⟩ := h.kept known (hr.mono h.lt)
  exact ⟨hr.raise (lower_changes h.run) ht, hstamped⟩

lemma Chain.settled {as : List TypeId} {ns : List NodeId} (h : Chain (Settling s b p a) as r ns t)
    (known : ∀ u ∈ as, u.index < s.types.size) (hr : s.Settled b p a.index r) :
    s.Settled b p a.index t ∧ ∀ u ∈ as, s.FallsBack u → t.isStamped b p = true := by
  induction h with
  | nil => exact ⟨hr, by simp⟩
  | cons head tail ih =>
    obtain ⟨hr', hhead⟩ := settled_of_part head (known _ List.mem_cons_self) hr
    obtain ⟨ht, htail⟩ := ih (fun u hu => known u (List.mem_cons_of_mem _ hu)) hr'
    refine ⟨ht, fun u hu fallsBack => ?_⟩
    rcases List.mem_cons.1 hu with rfl | hu
    · exact isStamped_of_changes tail.changes_of_below (hhead fallsBack)
    · exact htail u hu fallsBack

lemma Filling.settled {slots : List Slot} {extent extent' : Extent}
    (h : Filling (Settling s b p a) b n slots extent r extent' t)
    (known : ∀ u ∈ slots.filterMap Slot.type?, u.index < s.types.size)
    (hr : s.Settled b p a.index r) :
    s.Settled b p a.index t ∧
      ∀ u ∈ slots.filterMap Slot.type?, s.FallsBack u → t.isStamped b p = true := by
  induction h with
  | nil => exact ⟨hr, by simp⟩
  | @method _ _ _ _ function r _ _ _ ih =>
    have hpush : Changes b (Listable a.index) 0 r (r.pushMember n function) :=
      changes_pushMember
    exact ih known (hr.changes hpush fun _ _ => id)
  | @data decl field slots extent _ type _ r' _ head tail ih =>
    have hmember : Changes b (Listable a.index) 0 r' (addMember b r' n extent decl field type).2 :=
      changes_addMember (Nat.zero_le _) (Nat.zero_le _)
    have htypes : (Slot.data decl field :: slots).filterMap Slot.type? =
      field.type :: slots.filterMap Slot.type? := rfl
    rw [htypes] at known ⊢
    obtain ⟨hr', hhead⟩ := settled_of_part head (known _ List.mem_cons_self) hr
    have hr'' : s.Settled b p a.index (addMember b r' n extent decl field type).2 := by
      refine hr'.changes hmember fun v _ hv => ?_
      rw [debugType?, debugTypes_addMember]
      exact hv
    obtain ⟨ht, htail⟩ := ih (fun u hu => known u (List.mem_cons_of_mem _ hu)) hr''
    refine ⟨ht, fun u hu fallsBack => ?_⟩
    rcases List.mem_cons.1 hu with rfl | hu
    · exact isStamped_of_changes (hmember.trans tail.changes_of_below) (hhead fallsBack)
    · exact htail u hu fallsBack

lemma some_ne_some_of_lt {v : TypeId} (hv : v.index < a.index) : some v ≠ some a := by
  rintro ⟨⟩
  exact Nat.lt_irrefl _ hv

lemma Composing.settled {struct : Struct} {record : Decl.Record}
    (h : Composing (Settling s b p a) b a struct record r n t) (ha : r.debugType? a = none)
    (known : ∀ u ∈ (pair record struct).slots.filterMap Slot.type?, u.index < s.types.size)
    (hr : s.Settled b p a.index r) :
    s.Settled b p a.index t ∧
      ∀ u ∈ (pair record struct).slots.filterMap Slot.type?,
        s.FallsBack u → t.isStamped b p = true := by
  have hopen {tag : Debug.CompositeTag} :
      s.Settled b p a.index (openComposite r a struct record tag).2 := by
    have hchanges : Changes b (fun _ _ => True) 0 r (openComposite r a struct record tag).2 :=
      changes_openComposite trivial
    refine hr.changes hchanges fun v hv hvr => ?_
    exact (get?_debugTypes_openComposite (some_ne_some_of_lt hv)).trans hvr
  cases h with
  | found _ hc members =>
    -- The composite of a type without a debug type is new, so it has no members yet.
    rw [isEmpty_members_openComposite ha hc] at members
    cases members
  | @filled tag _ extent r' _ _ _ _ slots =>
    obtain ⟨ht, hstamped⟩ := slots.settled known hopen
    have hsize : Changes b (Listable a.index) 0 r'
        (r'.setSize (openComposite r a struct record tag).1 extent.size) := changes_setSize
    exact ⟨ht.changes hsize fun _ _ => id,
      fun u hu fallsBack => isStamped_of_changes hsize (hstamped u hu fallsBack)⟩

end Lowering

open Lowering Store

variable {s r t : Store} {a u : TypeId} {n p : NodeId} {b : BuilderId}

/-- Lowering a type that falls back stamps the placeholder, by induction along the recursion: the
parts of a type come before it, and the first of them that falls back stamps the placeholder. -/
theorem settled_of_lower (wf : s.types.WellFormed) (hp : s.debugTypes.get? none = some p)
    (h : lower b a r = .ok (n, t)) (known : a.index < s.types.size)
    (hr : s.Settled b p (a.index + 1) r) :
    s.Settled b p (a.index + 1) t ∧ (s.FallsBack a → t.isStamped b p = true) := by
  refine lower_induction (P := fun a r _ t => a.index < s.types.size →
    s.Settled b p (a.index + 1) r →
      s.Settled b p (a.index + 1) t ∧ (s.FallsBack a → t.isStamped b p = true)) ?_ h known hr
  intro a r n t hlower hstep known hr
  have hchanges := lower_changes hlower
  have hr' : s.Settled b p a.index r := hr.mono (Nat.le_succ _)
  have finish {t : Store} (ht : s.Settled b p a.index t)
      (hstamped : s.FallsBack a → t.isStamped b p = true) :
      s.Settled b p (a.index + 1) t ∧ (s.FallsBack a → t.isStamped b p = true) :=
    ⟨ht.succ hstamped, hstamped⟩
  cases hstep with
  | listed ha =>
    -- A type that falls back was not listed in the beginning.
    refine ⟨hr, fun fallsBack => hr.spared.resolve_right fun hs => ?_⟩
    cases ha.symm.trans (hs a (Nat.lt_succ_self _) fallsBack)
  | pointer ha hx pointee =>
    have hpart := hr.sustains.part_lt wf known hx List.mem_cons_self
    obtain ⟨ht, hstamped⟩ := settled_of_part pointee hpart hr'
    refine finish ht fun fallsBack => hstamped ?_
    obtain ⟨u, hu, hfalls⟩ := hr.sustains.exists_part wf known hx (Or.inr rfl) fallsBack
    rwa [List.mem_singleton.1 hu] at hfalls
  | basic ha hx hb =>
    refine finish (hr'.changes hchanges fun v hv hvr => ?_) fun fallsBack => ?_
    · exact (get?_debugTypes_keyedNode_of_ne (some_ne_some_of_lt hv)).trans hvr
    · -- A type without parts that can be described does not fall back.
      have hbasic := Option.isSome_of_eq_some hb
      obtain ⟨u, hu, -⟩ := hr.sustains.exists_part wf known hx
        (Or.inl (Shape.isDescribed_of_basic? hbasic)) fallsBack
      rw [TypeTable.parts_of_basic? hbasic] at hu
      cases hu
  | @built _ s' x _ e ha hx parts he =>
    have hparts (u : TypeId) (hu : u ∈ r.types.parts x) : u.index < s.types.size :=
      hr.sustains.part_lt wf known hx hu
    obtain ⟨hs', hstamped⟩ := parts.settled hparts hr'
    have hlisting : Changes b (fun _ _ => True) 0 s'
        ((s'.keyedNode (some a) e).2.stamp (s'.keyedNode (some a) e).1 b) :=
      (Change.keyedNode (fun _ _ => trivial) he.type?_eq_none).changes.step
        (.stamp (Or.inl (Nat.zero_le _)))
    refine finish (hs'.changes hlisting fun v hv hvs => ?_) fun fallsBack => ?_
    · exact (get?_debugTypes_keyedNode_of_ne (some_ne_some_of_lt hv)).trans hvs
    · obtain ⟨u, hu, hfalls⟩ := hr.sustains.exists_part wf known hx (Or.inl he.isDescribed) fallsBack
      exact isStamped_of_changes hlisting (hstamped u hu hfalls)
  | @composite _ t struct record _ ha hx hrecord composing =>
    have described := composing.isDescribed hrecord
    have hparts := TypeTable.parts_struct (t := r.types) hrecord described
    obtain ⟨ht, hstamped⟩ := composing.settled ha
      (fun u hu => hr.sustains.part_lt wf known hx (hparts ▸ hu)) hr'
    have hstamp : Changes b (fun _ _ => True) 0 t (t.stamp n b) := changes_stamp
    refine finish (ht.changes hstamp fun _ _ => id) fun fallsBack => ?_
    obtain ⟨u, hu, hfalls⟩ := hr.sustains.exists_part wf known hx (Or.inl described) fallsBack
    exact isStamped_of_changes hstamp (hstamped u (hparts ▸ hu) hfalls)
  | placeholder ha hx described pointer =>
    have hplaceholder : Lowering.placeholder r = (p, r) :=
      Store.keyedNode_of_get? (hr.sustains.keyed hp)
    rw [hplaceholder] at hchanges ⊢
    refine finish (hr'.changes hchanges fun _ _ => id) fun _ => ?_
    exact isStamped_stamp_self hr.made

/-! ### Nothing else is stamped -/

namespace Store

/-- Lowering the types leaves the marks of the nodes that were there, and those of the placeholder
too if none of the types falls back on it. -/
def LeavesMarks (s : Store) (as : List TypeId) (r t : Store) : Prop :=
  ∀ n, n.index < r.nodes.size →
    (r.debugTypes.get? none = some n → ∀ u ∈ as, ¬ s.FallsBack u) → t.marks? n = r.marks? n

lemma LeavesMarks.mono {as bs : List TypeId} (h : s.LeavesMarks as r t)
    (hsub : ∀ u ∈ as, s.FallsBack u → ∃ v ∈ bs, s.FallsBack v) : s.LeavesMarks bs r t := by
  intro n hn hnot
  refine h n hn fun hplaceholder u hu fallsBack => ?_
  obtain ⟨v, hv, hfalls⟩ := hsub u hu fallsBack
  exact hnot hplaceholder v hv hfalls

lemma LeavesMarks.trans {as bs : List TypeId} {r' : Store} {bound base : Nat}
    (h : s.LeavesMarks as r r') (h' : s.LeavesMarks bs r' t)
    (hc : Changes b (Listable bound) base r r') : s.LeavesMarks (as ++ bs) r t := by
  intro n hn hnot
  have hlast : t.marks? n = r'.marks? n := by
    refine h' n (Nat.lt_of_lt_of_le hn hc.size_le) fun hplaceholder u hu => ?_
    -- A placeholder that was made in between is a new node.
    rcases hc.get?_cases hplaceholder with hr | ⟨-, hnew, -⟩
    · exact hnot hr u (List.mem_append_right _ hu)
    · omega
  rw [hlast]
  exact h n hn fun hplaceholder u hu => hnot hplaceholder u (List.mem_append_left _ hu)

/-- A node that is listed under a key and stamped, unless it was listed before. -/
lemma marks?_keyedNode_stamp {key : Option TypeId} {e : Debug.Entry} (hn : n.index < r.nodes.size)
    (hkey : r.debugTypes.get? key ≠ some n) :
    ((r.keyedNode key e).2.stamp (r.keyedNode key e).1 b).marks? n = r.marks? n := by
  have hne : n ≠ (r.keyedNode key e).1 := by
    rcases hget : r.debugTypes.get? key with _ | m
    · rw [keyedNode_of_get?_eq_none hget]
      rintro rfl
      exact Nat.lt_irrefl _ hn
    · rw [keyedNode_of_get? hget]
      rintro rfl
      exact hkey hget
  rw [marks?_stamp_of_ne hne, marks?_of_nodes nodes_le_keyedNode hn]

end Store

namespace Lowering

lemma marks?_addMember {composite type : NodeId} {extent : Extent} {decl : Decl.Field}
    {field : Field} (hn : n.index < r.nodes.size) :
    (addMember b r composite extent decl field type).2.marks? n = r.marks? n := by
  have hopen : n.index < (openMember r decl).nodes.size :=
    Nat.lt_of_lt_of_le hn nodes_le_openMember.length_le
  have hne : n ≠ ⟨(openMember r decl).nodes.size⟩ := by
    rintro rfl
    exact Nat.lt_irrefl _ hopen
  rw [addMember_snd, marks?_pushMember, marks?_stamp_of_ne hne]
  exact marks?_of_nodes (nodes_le_openMember.trans nodes_le_unkeyedNode) hn

/-- A lowering leaves the marks of the nodes that were there. -/
abbrev Leaving (s : Store) (b : BuilderId) : TypeId → TypeId → Store → NodeId → Store → Prop :=
  Lowered b fun a r _ t => a.index < s.types.size → s.Sustains r → s.LeavesMarks [a] r t

lemma Chain.leavesMarks {as : List TypeId} {ns : List NodeId} (h : Chain (Leaving s b a) as r ns t)
    (known : ∀ u ∈ as, u.index < s.types.size) (hr : s.Sustains r) : s.LeavesMarks as r t := by
  induction h with
  | nil => exact fun _ _ _ => rfl
  | cons head tail ih =>
    obtain ⟨-, hlower, hmarks⟩ := head
    have hchanges := lower_changes hlower
    have htail := ih (fun u hu => known u (List.mem_cons_of_mem _ hu))
      (hr.trans (sustains_of_changes hchanges))
    exact (hmarks (known _ List.mem_cons_self) hr).trans htail hchanges

lemma Filling.leavesMarks {composite : NodeId} {slots : List Slot} {extent extent' : Extent}
    (h : Filling (Leaving s b a) b composite slots extent r extent' t)
    (known : ∀ u ∈ slots.filterMap Slot.type?, u.index < s.types.size) (hr : s.Sustains r) :
    s.LeavesMarks (slots.filterMap Slot.type?) r t := by
  induction h with
  | nil => exact fun _ _ _ => rfl
  | @method _ _ _ _ function r _ _ _ ih =>
    have hpush : Changes b (Listable a.index) 0 r (r.pushMember composite function) :=
      changes_pushMember
    have hmarks : s.LeavesMarks [] r (r.pushMember composite function) :=
      fun _ _ _ => marks?_pushMember
    exact hmarks.trans (ih known (hr.trans (sustains_of_changes hpush))) hpush
  | @data decl field slots extent _ type _ r' t head tail ih =>
    obtain ⟨-, hlower, hmarks⟩ := head
    have hchanges := lower_changes hlower
    have hmember : Changes b (Listable a.index) 0 r'
        (addMember b r' composite extent decl field type).2 :=
      changes_addMember (Nat.zero_le _) (Nat.zero_le _)
    have htail := ih (fun u hu => known u (List.mem_cons_of_mem _ hu))
      ((hr.trans (sustains_of_changes hchanges)).trans (sustains_of_changes hmember))
    have hmade : s.LeavesMarks [] r' (addMember b r' composite extent decl field type).2 :=
      fun _ hn _ => marks?_addMember hn
    exact (hmarks (known _ List.mem_cons_self) hr).trans (hmade.trans htail hmember) hchanges

lemma Composing.leavesMarks {struct : Struct} {record : Decl.Record}
    (h : Composing (Leaving s b a) b a struct record r n t)
    (known : ∀ u ∈ (pair record struct).slots.filterMap Slot.type?, u.index < s.types.size)
    (hr : s.Sustains r) : s.LeavesMarks ((pair record struct).slots.filterMap Slot.type?) r t := by
  have hchanges {tag : Debug.CompositeTag} :
      Changes b (fun _ _ => True) 0 r (openComposite r a struct record tag).2 :=
    changes_openComposite trivial
  have hopen {tag : Debug.CompositeTag} {m : NodeId} (hm : m.index < r.nodes.size) :
      (openComposite r a struct record tag).2.marks? m = r.marks? m :=
    marks?_of_nodes (nodes_le_openFile.trans nodes_le_keyedNode) hm
  cases h with
  | found => exact fun _ hm _ => hopen hm
  | @filled tag _ _ _ _ _ _ _ slots =>
    intro m hm hnot
    have hfilled := slots.leavesMarks known (hr.trans (sustains_of_changes hchanges)) m
      (Nat.lt_of_lt_of_le hm hchanges.size_le)
    rw [marks?_setSize, hfilled ?_, hopen hm]
    rwa [get?_debugTypes_openComposite (by simp)]

end Lowering

/-- Lowering stamps no other node than the placeholder among those that were there, and the
placeholder only if the type falls back. -/
theorem leavesMarks_lower (wf : s.types.WellFormed) (h : lower b a r = .ok (n, t))
    (known : a.index < s.types.size) (hr : s.Sustains r) : s.LeavesMarks [a] r t := by
  refine lower_induction (P := fun a r _ t => a.index < s.types.size → s.Sustains r →
    s.LeavesMarks [a] r t) ?_ h known hr
  intro a r n t _ hstep known hr
  have whole {x : Shape} (ha : r.debugType? a = none) (hx : r.types.shape? a = some x) :
      ∀ u ∈ r.types.parts x, s.FallsBack u → ∃ v ∈ [a], s.FallsBack v :=
    fun u hu hfalls => ⟨a, List.mem_cons_self, hr.fallsBack_of_part wf known ha hx hu hfalls⟩
  cases hstep with
  | listed => exact fun _ _ _ => rfl
  | pointer ha hx pointee =>
    have hpart := hr.part_lt wf known hx List.mem_cons_self
    exact (pointee.kept hpart hr).mono (whole ha hx)
  | basic ha =>
    intro m hm _
    -- The constant for the size comes first, which adds a type and no node.
    refine marks?_keyedNode_stamp (r := (r.internType (.integer 32 false)).2) hm fun hlisted => ?_
    cases ha.symm.trans hlisted
  | @built _ s' x _ e ha hx parts _ =>
    have hparts (u : TypeId) (hu : u ∈ r.types.parts x) : u.index < s.types.size :=
      hr.part_lt wf known hx hu
    have hmarks := (parts.leavesMarks hparts hr).mono (whole ha hx)
    have hchanges := parts.changes_of_below
    have ha' : s'.debugType? a = none := hchanges.debugType?_eq_none (Nat.le_refl _) ha
    intro m hm hnot
    rw [← hmarks m hm hnot]
    refine marks?_keyedNode_stamp (Nat.lt_of_lt_of_le hm hchanges.size_le) fun hlisted => ?_
    cases ha'.symm.trans hlisted
  | @composite _ t struct record _ ha hx hrecord composing =>
    have hparts := TypeTable.parts_struct (t := r.types) hrecord (composing.isDescribed hrecord)
    have hmarks :=
      composing.leavesMarks (fun u hu => hr.part_lt wf known hx (hparts ▸ hu)) hr
    intro m hm hnot
    have hne : m ≠ n := by
      rintro rfl
      exact Nat.lt_irrefl _ (Nat.lt_of_lt_of_le hm (composing.size_le ha))
    rw [marks?_stamp_of_ne hne]
    exact hmarks.mono (hparts ▸ whole ha hx) m hm hnot
  | placeholder ha hx described pointer =>
    intro m hm hnot
    refine marks?_keyedNode_stamp hm fun hplaceholder => ?_
    exact hnot hplaceholder a List.mem_cons_self
      (hr.fallsBack_of_undescribed known ha hx described pointer)

end ShaderTypes
