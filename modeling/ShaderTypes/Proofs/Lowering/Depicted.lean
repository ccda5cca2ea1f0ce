import ShaderTypes.Proofs.Lowering.Depiction
import ShaderTypes.Proofs.Lowering.Stamping

/-!
# What a lowering lists is depicted

Whatever a lowering lists is depicted by the node it lists.  The proof goes along the recursion: a
composite is listed before its members are made, so while they are made only what was listed since is
claimed to be depicted, and the composite itself is put in last.  What was there before is never
touched again.

When a composite gets its size in the end, arrays of it would change their size as well.  None of
them is the debug type of a member: a type that stands before the struct is resolved to a node that
is older than the composite, or to one that was made since and leads to such types only.
-/

namespace ShaderTypes

namespace Store

variable {s t u : Store} {a : TypeId} {n m : NodeId} {b : BuilderId} {x : Shape}
  {e : Debug.Entry}

/-! ### Listing depicted types -/

lemma ListsDepicted.of_debugTypes_eq (h : t.debugTypes = s.debugTypes) : ListsDepicted s t where
  typed := by
    intro a n hn hs
    rw [debugType?, h] at hn
    cases hs.symm.trans hn
  placeholder := by
    intro n hn hs
    rw [h] at hn
    cases hs.symm.trans hn

/-- What is listed in between by a store with the same registry. -/
lemma ListsDepicted.of_left (h : t.debugTypes = s.debugTypes) (hd : ListsDepicted t u) :
    ListsDepicted s u where
  typed := fun hn hs => hd.typed hn (by rwa [debugType?, h])
  placeholder := fun hn hs => hd.placeholder hn (by rwa [h])

/-- What was depicted on the way is still depicted when its entries and all sizes are left. -/
lemma ListsDepicted.trans (h : ListsDepicted s t) (h' : ListsDepicted t u) (sound : t.Sound)
    (sustained : t.Sustains u) (functions : ∀ id, u.function? id = t.function? id)
    (kept : ∀ {a n e}, t.debugType? a = some n → s.debugType? a = none →
      t.nodes.entry? n = some e → u.nodes.entry? n = some e)
    (sizes : ∀ d : NodeId, d.index < t.nodes.size →
      u.nodes.sizeInBits d = t.nodes.sizeInBits d) : ListsDepicted s u where
  typed := by
    intro a n hn hs
    rcases ht : t.debugType? a with _ | m
    · exact h'.typed hn ht
    · obtain rfl : m = n := Option.some.inj ((sustained.keyed ht).symm.trans hn)
      obtain ⟨x, e, hx, he, hd⟩ := h.typed ht hs
      refine ⟨x, e, TypeTable.shape?_mono sustained.shapes hx, kept ht hs he, ?_⟩
      exact hd.of_sustains sustained functions (sound.operand_lt hx) fun _ _ d hv =>
        sizes d (sound.resolve?_lt hv)
  placeholder := by
    intro n hn hs
    rcases ht : t.debugTypes.get? none with _ | m
    · exact h'.placeholder hn ht
    · obtain rfl : m = n := Option.some.inj ((sustained.keyed ht).symm.trans hn)
      exact sustained.entries (h.placeholder ht hs) rfl

/-- In particular when nothing is changed of what the nodes say. -/
lemma ListsDepicted.trans_entries (h : ListsDepicted s t) (h' : ListsDepicted t u)
    (sound : t.Sound) (sustained : t.Sustains u)
    (functions : ∀ id, u.function? id = t.function? id)
    (entries : ∀ {n e}, t.nodes.entry? n = some e → u.nodes.entry? n = some e) :
    ListsDepicted s u :=
  h.trans h' sound sustained functions (fun _ _ he => entries he) fun _ hd =>
    sizeInBits_eq_of_entries entries hd

/-- What is listed under no type stays the placeholder. -/
lemma ListsDepicted.entry?_placeholder (h : ListsDepicted s t) (after : s.Extends t)
    (old : ∀ {n}, s.debugTypes.get? none = some n → s.nodes.entry? n = some placeholderEntry)
    (hn : t.debugTypes.get? none = some n) : t.nodes.entry? n = some placeholderEntry := by
  rcases hnone : s.debugTypes.get? none with _ | m
  · exact h.placeholder hn hnone
  · obtain rfl : m = n := Option.some.inj ((after.get?_debugTypes hnone).symm.trans hn)
    exact after.entries (old hnone)

lemma ListsDepicted.stamp (h : ListsDepicted s t) (sound : t.Sound) :
    ListsDepicted s (t.stamp n b) where
  typed := by
    intro a m hm hs
    obtain ⟨x, e, hx, he, hd⟩ := h.typed hm hs
    have after : t.Extends (t.stamp n b) := extends_stamp
    have stamped : Lowering.Changes b (fun _ _ => True) 0 t (t.stamp n b) := Lowering.changes_stamp
    refine ⟨x, e, after.shape? hx, entry?_stamp.trans he, hd.mono stamped (sound.operand_lt hx) ?_⟩
    exact fun _ _ d hv => after.sizeInBits_eq (sound.resolve?_lt hv)
  placeholder := fun hm hs => entry?_stamp.trans (h.placeholder hm hs)

/-- A node is listed, and stamped. -/
lemma changes_keyedNode_stamp {key : Option TypeId} (untyped : e.type? = none) :
    Lowering.Changes b (fun _ _ => True) 0 s
      ((s.keyedNode key e).2.stamp (s.keyedNode key e).1 b) :=
  (Lowering.Change.keyedNode (fun _ _ => trivial) untyped).changes.trans Lowering.changes_stamp

lemma entry?_keyedNode_stamp {key : Option TypeId} {e' : Debug.Entry}
    (he : s.nodes.entry? m = some e') :
    ((s.keyedNode key e).2.stamp n b).nodes.entry? m = some e' := by
  rw [entry?_stamp]
  exact Debug.NodeTable.entry?_mono nodes_le_keyedNode he

/-- A node that is listed under a type that it depicts. -/
lemma listsDepicted_keyedNode (sound : s.Sound) (untyped : e.type? = none)
    (ha : s.debugType? a = none) (hx : s.types.shape? a = some x)
    (hd : s.Depicts x ⟨s.nodes.size⟩ e) :
    ListsDepicted s ((s.keyedNode (some a) e).2.stamp (s.keyedNode (some a) e).1 b) := by
  have listing : Lowering.Changes b (fun _ _ => True) 0 s
      ((s.keyedNode (some a) e).2.stamp (s.keyedNode (some a) e).1 b) :=
    changes_keyedNode_stamp untyped
  constructor
  · intro v n hn hs
    by_cases hv : v = a
    · subst hv
      obtain rfl : (s.keyedNode (some v) e).1 = n :=
        Option.some.inj (get?_debugTypes_keyedNode.symm.trans hn)
      refine ⟨x, e, TypeTable.shape?_mono listing.grows.shapes_le hx, ?_, ?_⟩
      · rw [entry?_stamp]
        exact entry?_keyedNode_of_get?_eq_none ha
      · have hnode : (s.keyedNode (some v) e).1 = ⟨s.nodes.size⟩ := by
          rw [keyedNode_of_get?_eq_none ha]
        rw [hnode] at listing ⊢
        refine hd.mono listing (sound.operand_lt hx) fun _ _ d hv => ?_
        exact sizeInBits_eq_of_entries entry?_keyedNode_stamp (sound.resolve?_lt hv)
    · have hother := get?_debugTypes_keyedNode_of_ne (s := s) (e := e)
        (show some v ≠ some a by simpa using hv)
      cases hs.symm.trans (hother.symm.trans hn)
  · intro n hn hs
    have hother := get?_debugTypes_keyedNode_of_ne (s := s) (e := e)
      (show none ≠ some a by simp)
    cases hs.symm.trans (hother.symm.trans hn)

lemma listsDepicted_placeholder :
    ListsDepicted s ((Lowering.placeholder s).2.stamp (Lowering.placeholder s).1 b) := by
  rcases hnone : s.debugTypes.get? none with _ | m
  · constructor
    · intro v n hn hs
      have hother := get?_debugTypes_keyedNode_of_ne (s := s) (e := placeholderEntry)
        (show some v ≠ none by simp)
      cases hs.symm.trans (hother.symm.trans hn)
    · intro n hn _
      obtain rfl : (Lowering.placeholder s).1 = n :=
        Option.some.inj (get?_debugTypes_keyedNode.symm.trans hn)
      rw [entry?_stamp]
      exact entry?_keyedNode_of_get?_eq_none (e := placeholderEntry) hnone
  · have hkeyed : Lowering.placeholder s = (m, s) := keyedNode_of_get? hnone
    rw [hkeyed]
    exact .of_debugTypes_eq rfl

/-! ### Filling a composite -/

lemma entry?_pushMember_self {c : Debug.Composite} (hc : s.nodes.entry? n = some (.composite c)) :
    (s.pushMember n m).nodes.entry? n =
      some (.composite { c with members := c.members ++ [m] }) := by
  obtain ⟨node, hnode, hentry⟩ := Option.map_eq_some_iff.1 hc
  rw [pushMember, modifyNode, Debug.NodeTable.entry?, Debug.NodeTable.node?_modify_self, hnode]
  simp [hentry, Debug.Entry.mapComposite]

lemma entry?_setSize_self {c : Debug.Composite} {size : UInt32}
    (hc : s.nodes.entry? n = some (.composite c)) :
    (s.setSize n size).nodes.entry? n = some (.composite { c with size }) := by
  obtain ⟨node, hnode, hentry⟩ := Option.map_eq_some_iff.1 hc
  rw [setSize, modifyNode, Debug.NodeTable.entry?, Debug.NodeTable.node?_modify_self, hnode]
  simp [hentry, Debug.Entry.mapComposite]

end Store

namespace Lowering

open Store

variable {b : BuilderId} {s t : Store} {a : TypeId} {n m d : NodeId} {e : Debug.Entry}
  {decl : Decl.Field} {field : Field} {extent extent' : Extent} {type : NodeId}
  {keys : Store → TypeId → Prop} {base : Nat}

/-- The value of an initializer is evaluated to the constant operand made for it. -/
lemma evaluates_literalConstant (value : Option Literal) :
    (literalConstant s value).2.Evaluates value (literalConstant s value).1 := by
  rcases value with _ | v
  · exact .none
  · cases v with
    | int => exact .int (TypeTable.shape?_intern_of_isScalar rfl)
    | float => exact .float (TypeTable.shape?_intern_of_isScalar rfl)
    | bool => exact .bool (TypeTable.shape?_intern_of_isScalar rfl)
    | other => exact .other

/-! ### One member -/

/-- Before a composite takes a new member, the nodes that were there say what they said. -/
lemma entry?_addMember_before (he : s.nodes.entry? m = some e) :
    (((openMember s decl).unkeyedNode (memberEntry s n extent decl field type)).2.stamp
      ⟨(openMember s decl).nodes.size⟩ b).nodes.entry? m = some e := by
  rw [entry?_stamp]
  exact Debug.NodeTable.entry?_mono (nodes_le_openMember.trans nodes_le_unkeyedNode) he

lemma entry?_addMember_of_ne (hm : m ≠ n) (he : s.nodes.entry? m = some e) :
    (addMember b s n extent decl field type).2.nodes.entry? m = some e := by
  rw [addMember_snd]
  exact (entry?_modifyNode_of_ne hm).trans (entry?_addMember_before he)

/-- The composite takes the new member last. -/
lemma entry?_addMember_self {c : Debug.Composite} (hc : s.nodes.entry? n = some (.composite c)) :
    (addMember b s n extent decl field type).2.nodes.entry? n = some (.composite
      { c with members := c.members ++ [⟨(openMember s decl).nodes.size⟩] }) := by
  rw [addMember_snd]
  exact entry?_pushMember_self (entry?_addMember_before hc)

lemma entry?_addMember_new (hn : n.index < s.nodes.size) :
    (addMember b s n extent decl field type).2.nodes.entry? ⟨(openMember s decl).nodes.size⟩ =
      some (memberEntry s n extent decl field type) := by
  have hne : (⟨(openMember s decl).nodes.size⟩ : NodeId) ≠ n := by
    rintro rfl
    exact Nat.lt_irrefl _ (Nat.lt_of_lt_of_le hn nodes_le_openMember.length_le)
  rw [addMember_snd]
  refine (entry?_modifyNode_of_ne hne).trans ?_
  rw [entry?_stamp]
  exact Debug.NodeTable.entry?_of_node? Debug.NodeTable.node?_push_size

/-- The new member is the last node. -/
lemma size_addMember : (addMember b s n extent decl field type).2.nodes.size =
    (openMember s decl).nodes.size + 1 := by
  rw [addMember_snd, pushMember, modifyNode, Debug.NodeTable.size_modify, nodes_stamp,
    Debug.NodeTable.size_modify]
  exact Debug.NodeTable.size_push

lemma sizeInBits_addMember (hd : d.index < s.nodes.size) :
    (addMember b s n extent decl field type).2.nodes.sizeInBits d = s.nodes.sizeInBits d := by
  rw [addMember_snd, sizeInBits_pushMember]
  exact sizeInBits_eq_of_entries entry?_addMember_before hd

/-- A new member is as depicted, in this store and in every later one in which its type has the size
that it has now. -/
lemma populates_addMember {slots : List Slot} {ms : List NodeId} (hn : n.index < s.nodes.size)
    (described : s.resolve? field.type = some type)
    (sized : t.nodes.sizeInBits type = s.nodes.sizeInBits type)
    (after : Changes b keys base (addMember b s n extent decl field type).2 t)
    (tail : t.Populates n slots ((openMember s decl).nodes.size + 1)
      (addMember b s n extent decl field type).1 ms extent') :
    t.Populates n (.data decl field :: slots) s.nodes.size extent
      (⟨(openMember s decl).nodes.size⟩ :: ms) extent' := by
  have hmember : Changes b (fun _ _ => True) 0 s (addMember b s n extent decl field type).2 :=
    changes_addMember (Nat.zero_le _) (Nat.zero_le _)
  have hvalue : Changes b (fun _ _ => True) 0 (literalConstant s decl.value).2
      (addMember b s n extent decl field type).2 :=
    (Change.openFile decl.location.file).changes.trans
      (changes_addMember_of_openMember (Nat.zero_le _) (Nat.zero_le _))
  have located : (addMember b s n extent decl field type).2.files.get? decl.location.file =
      some ((literalConstant s decl.value).2.openFile decl.location.file).1 := get?_files_openFile
  have kept := sustains_of_changes after
  obtain ⟨file, hfile, hsource, -⟩ := kept.files located
  refine .data nodes_le_openMember.length_le
    (((sustains_of_changes hmember).trans kept).resolve? described) hfile
    ((evaluates_literalConstant _).mono ((sustains_of_changes hvalue).trans kept)) ?_ ?_
  · rw [hsource, sized]
    exact kept.entries (entry?_addMember_new hn) rfl
  · rw [sized]
    exact tail

/-! ### A new composite -/

lemma get?_files_openComposite {struct : Struct} {record : Decl.Record} {tag : Debug.CompositeTag} :
    (openComposite s a struct record tag).2.files.get? record.location.file =
      some (s.openFile record.location.file).1 := by
  rw [openComposite_eq, files_keyedNode]
  exact get?_files_openFile

/-- A lowering of a regular store lists depicted nodes only. -/
abbrev Depicting (b : BuilderId) : TypeId → TypeId → Store → NodeId → Store → Prop :=
  Lowered b fun _ s _ t => s.Regular → ListsDepicted s t

/-- A chain extends the store, depicts what it lists, and resolves its types to its nodes. -/
lemma Chain.depicts {as : List TypeId} {ns : List NodeId}
    (h : Chain (Depicting b a) as s ns t) (hs : s.Regular) :
    s.Extends t ∧ ListsDepicted s t ∧ as.map t.resolve? = ns.map some := by
  induction h with
  | nil => exact ⟨.refl _, .of_debugTypes_eq rfl, rfl⟩
  | cons head tail ih =>
    obtain ⟨-, hlower, hdepicted⟩ := head
    have hs' := hs.of_changes (lower_changes hlower)
    obtain ⟨hext, htail, hresolve⟩ := ih hs'
    refine ⟨(extends_lower hlower).trans hext, ?_, ?_⟩
    · exact (hdepicted hs).trans_entries htail hs'.sound hext.sustains
        (fun _ => function?_of_changes tail.changes_of_below) hext.entries
    · rw [List.map_cons, List.map_cons, hresolve,
        hext.sustains.resolve? (hs.resolve?_of_lower hlower)]

section Filling

variable {slots : List Slot} (h : Filling (Depicting b a) b n slots extent s extent' t)
include h

/-- Filling a composite leaves what all other nodes say. -/
lemma Filling.entry?_of_ne (hm : m ≠ n) (he : s.nodes.entry? m = some e) :
    t.nodes.entry? m = some e := by
  induction h with
  | nil => exact he
  | method _ _ ih => exact ih ((entry?_modifyNode_of_ne hm).trans he)
  | data head _ ih =>
    have hext := extends_lower head.run
    exact ih (entry?_addMember_of_ne hm (hext.entries he))

/-- Filling a composite leaves all sizes, its own as well. -/
lemma Filling.sizeInBits_eq (hd : d.index < s.nodes.size) :
    t.nodes.sizeInBits d = s.nodes.sizeInBits d := by
  induction h with
  | nil => rfl
  | @method _ _ _ _ function s _ _ _ ih =>
    have hpush : Changes b (fun _ _ => True) 0 s (s.pushMember n function) := changes_pushMember
    exact (ih (Nat.lt_of_lt_of_le hd hpush.size_le)).trans sizeInBits_pushMember
  | @data decl field _ extent _ type s s' _ head _ ih =>
    have hext := extends_lower head.run
    have hd' := Nat.lt_of_lt_of_le hd hext.size_le
    have hmember : Changes b (fun _ _ => True) 0 s' (addMember b s' n extent decl field type).2 :=
      changes_addMember (Nat.zero_le _) (Nat.zero_le _)
    calc _ = (addMember b s' n extent decl field type).2.nodes.sizeInBits d :=
          ih (Nat.lt_of_lt_of_le hd' hmember.size_le)
      _ = s'.nodes.sizeInBits d := sizeInBits_addMember hd'
      _ = s.nodes.sizeInBits d := hext.sizeInBits_eq hd

/-- Filling a composite depicts what it lists.  The composite is among the nodes from before, so it
is not claimed to be depicted yet. -/
lemma Filling.listsDepicted (hs : s.Regular) (hn : n.index < s.nodes.size) : ListsDepicted s t := by
  induction h with
  | nil => exact .of_debugTypes_eq rfl
  | @method decl slots _ _ function s t _ tail ih =>
    have hpush : Changes b (Listable a.index) 0 s (s.pushMember n function) :=
      changes_pushMember
    have htail := ih (hs.of_changes hpush) (Nat.lt_of_lt_of_le hn hpush.size_le)
    refine .of_left ?_ htail
    rfl
  | @data decl field slots extent _ type s s' t head tail ih =>
    obtain ⟨-, hlower, hdepicted⟩ := head
    have hchanges := lower_changes hlower
    have hs' := hs.of_changes hchanges
    have hn' := Nat.lt_of_lt_of_le hn hchanges.size_le
    have hmember : Changes b (Listable a.index) 0 s' (addMember b s' n extent decl field type).2 :=
      changes_addMember (Nat.zero_le _) (Nat.zero_le _)
    have hs'' := hs'.of_changes hmember
    have htail := tail.changes_of_below
    have hrest : ListsDepicted s' t :=
      (ih hs'' (Nat.lt_of_lt_of_le hn' hmember.size_le)).of_left debugTypes_addMember
    refine (hdepicted hs).trans hrest hs'.sound (sustains_of_changes (hmember.trans htail))
      (fun _ => function?_of_changes (hmember.trans htail)) (fun {v m e} hv hnone he => ?_) ?_
    · -- The composite is older than what the member's type listed.
      have hm : s.nodes.size ≤ m.index := by
        rcases hchanges.get?_cases hv with hold | ⟨-, hm, -⟩
        · cases hnone.symm.trans hold
        · exact hm
      have hne : m ≠ n := by
        rintro rfl
        exact Nat.lt_irrefl _ (Nat.lt_of_lt_of_le hn hm)
      exact tail.entry?_of_ne hne (entry?_addMember_of_ne hne he)
    · intro d hd
      have hd' := Nat.lt_of_lt_of_le hd hmember.size_le
      exact (tail.sizeInBits_eq hd').trans (sizeInBits_addMember hd)

/-- A filled composite has one more member for each slot, as depicted. -/
lemma Filling.populates {c : Debug.Composite} (hs : s.Regular)
    (hc : s.nodes.entry? n = some (.composite c)) :
    ∃ ms, t.nodes.entry? n = some (.composite { c with members := c.members ++ ms }) ∧
      t.Populates n slots s.nodes.size extent ms extent' := by
  induction h generalizing c with
  | nil => exact ⟨[], by simpa using hc, .nil⟩
  | @method decl slots _ _ function s t saved tail ih =>
    have hpush : Changes b (Listable a.index) 0 s (s.pushMember n function) :=
      changes_pushMember
    obtain ⟨ms, hentry, hmembers⟩ := ih (hs.of_changes hpush) (entry?_pushMember_self hc)
    have saved' := (function?_of_changes (hpush.trans tail.changes_of_below)).trans saved
    exact ⟨function :: ms, by simpa using hentry, .method saved' (hmembers.of_le hpush.size_le)⟩
  | @data decl field slots extent _ type s s' t head tail ih =>
    have hlower := head.run
    have hchanges := lower_changes hlower
    have hs' := hs.of_changes hchanges
    have hc' := (extends_lower hlower).entries hc
    have hmember : Changes b (Listable a.index) 0 s' (addMember b s' n extent decl field type).2 :=
      changes_addMember (Nat.zero_le _) (Nat.zero_le _)
    obtain ⟨ms, hentry, hmembers⟩ := ih (hs'.of_changes hmember) (entry?_addMember_self hc')
    rw [size_addMember] at hmembers
    have resolved := hs.resolve?_of_lower hlower
    have htype := hs'.sound.resolve?_lt resolved
    have sized : t.nodes.sizeInBits type = s'.nodes.sizeInBits type :=
      (tail.sizeInBits_eq (Nat.lt_of_lt_of_le htype hmember.size_le)).trans
        (sizeInBits_addMember htype)
    refine ⟨⟨(openMember s' decl).nodes.size⟩ :: ms, by simpa using hentry, ?_⟩
    exact (populates_addMember (Debug.NodeTable.entry?_lt hc') resolved sized
      tail.changes_of_below hmembers).of_le hchanges.size_le

end Filling

/-! ### The size of a composite -/

section SetSize

variable {struct : Struct} {record : Decl.Record} {tag : Debug.CompositeTag} {r : Store}
  {size : UInt32} {u v : TypeId} (hs : s.Sound) (ha : s.debugType? a = none) (hr : r.Sound)
  (hfill : Changes b (Listable a.index) 0 (openComposite s a struct record tag).2 r)
  (hlisted : ListsDepicted (openComposite s a struct record tag).2 r)
include ha

/-- The composite is the node made last. -/
lemma size_openComposite :
    (openComposite s a struct record tag).2.nodes.size =
      (openComposite s a struct record tag).1.index + 1 := by
  have hkey : (s.openFile record.location.file).2.debugTypes.get? (some a) = none := by
    rw [debugTypes_openFile]
    exact ha
  rw [openComposite_eq, keyedNode_of_get?_eq_none hkey]
  exact Debug.NodeTable.size_push

/-- A node that is listed after the composite is another one and says what it said. -/
lemma entry?_setSize_of_new (hnew : (openComposite s a struct record tag).2.nodes.size ≤ d.index)
    (he : r.nodes.entry? d = some e) :
    (r.setSize (openComposite s a struct record tag).1 size).nodes.entry? d = some e := by
  have hne : d ≠ (openComposite s a struct record tag).1 := by
    rintro rfl
    rw [size_openComposite ha] at hnew
    exact Nat.lt_irrefl _ hnew
  exact (entry?_modifyNode_of_ne hne).trans he

include hs hr hfill hlisted

/-- When a composite that was filled gets its size, the debug types of the types before its own keep
theirs. -/
lemma sizeInBits_setSize_of_resolve? (hu : u.index < a.index) (hd : r.resolve? u = some d) :
    (r.setSize (openComposite s a struct record tag).1 size).nodes.sizeInBits d =
      r.nodes.sizeInBits d := by
  induction u using TypeId.strongInduction generalizing d with
  | _ u ih =>
  rcases resolve?_cases hd with ⟨p, c, hx, hp, hn⟩ | ⟨x, hx, pointer, hn⟩
  · exact ih p hp (Nat.lt_trans hp hu) hn
  have hkey : (if x.isDescribed then some u else none) ≠ some a := by
    split
    · rintro ⟨⟩
      exact Nat.lt_irrefl _ hu
    · simp
  rcases hfill.get?_cases hn with hold | ⟨hnone, hnew, -⟩
  · -- The node is older than the composite, and so is all that its size is computed from.
    rw [get?_debugTypes_openComposite hkey] at hold
    exact sizeInBits_setSize_of_lt
      (Nat.lt_of_lt_of_le (hs.lt_of_get? hold) (size_le_openComposite ha))
  cases described : x.isDescribed with
  | false =>
    simp only [described, Bool.false_eq_true, ↓reduceIte] at hn hnone
    have he := hlisted.placeholder hn hnone
    refine Debug.NodeTable.sizeInBits_congr he (entry?_setSize_of_new ha hnew he) fun m hm => ?_
    cases hm
  | true =>
    simp only [described, ↓reduceIte] at hn hnone
    obtain ⟨y, e, hy, he, hdepicts⟩ := hlisted.typed hn hnone
    refine Debug.NodeTable.sizeInBits_congr he (entry?_setSize_of_new ha hnew he) fun m hm _ => ?_
    -- The element is the debug type of a part, and parts stand before.
    obtain ⟨v, hv, hm⟩ := hdepicts.exists_of_element? hm
    have hvu := hr.types.wellFormed u y hy v hv
    exact ih v hvu (Nat.lt_trans hvu hu) hm

/-- What was depicted while the composite was filled is depicted when it has its size. -/
lemma depicts_setSize_of_ne (hva : v ≠ a) (hn : r.debugType? v = some n)
    (hv : s.debugType? v = none) :
    ∃ x e, r.types.shape? v = some x ∧
      (r.setSize (openComposite s a struct record tag).1 size).nodes.entry? n = some e ∧
      (r.setSize (openComposite s a struct record tag).1 size).Depicts x n e := by
  have hsize : Changes b (Listable a.index) 0 r
      (r.setSize (openComposite s a struct record tag).1 size) := changes_setSize
  have hv' : (openComposite s a struct record tag).2.debugType? v = none :=
    (get?_debugTypes_openComposite (by simpa using hva)).trans hv
  obtain ⟨x, e, hx, he, hd⟩ := hlisted.typed hn hv'
  obtain ⟨hnew, hlt⟩ : (openComposite s a struct record tag).2.nodes.size ≤ n.index ∧
      v.index < a.index := by
    rcases hfill.get?_cases hn with hn | ⟨-, hnew, hlistable⟩
    · cases hv'.symm.trans hn
    · exact ⟨hnew, (hlistable v rfl).1⟩
  refine ⟨x, e, hx, entry?_setSize_of_new ha hnew he, ?_⟩
  refine hd.mono hsize (hr.operand_lt hx) fun u hu d hres => ?_
  have hlt' := Nat.lt_trans (hr.types.wellFormed v x hx u hu) hlt
  exact sizeInBits_setSize_of_resolve? hs ha hr hfill hlisted hlt' hres

/-- The composite depicts its struct when it has its members and its size. -/
lemma depicts_setSize_self {ms : List NodeId} (made : struct.record = some record)
    (htag : compositeTag record = .ok tag) (fault : (pair record struct).fault = none)
    (hx : s.types.shape? a = some (.struct struct))
    (hmembers : r.Populates (openComposite s a struct record tag).1 (pair record struct).slots
      ((openComposite s a struct record tag).1.index + 1) {} ms extent) :
    (r.setSize (openComposite s a struct record tag).1 size).Depicts (.struct struct)
      (openComposite s a struct record tag).1 (.composite
        { heading struct record tag (s.openFile record.location.file).1 with
          size := extent.size, members := ms }) := by
  have hsize : Changes b (Listable a.index) 0 r
      (r.setSize (openComposite s a struct record tag).1 size) := changes_setSize
  obtain ⟨file, hfile, hsource, hunit⟩ :=
    (sustains_of_changes (hfill.trans hsize)).files get?_files_openComposite
  have headed : Heads record struct file (heading struct record tag _) :=
    (heads_heading htag).of_file hsource hunit
  refine .composite made hfile headed (aligns_pair fault) ?_
  refine hmembers.of_sustains (sustains_of_changes hsize) (fun _ => function?_of_changes hsize) ?_
  intro decl field hslot d hres
  have hfield := hs.types.wellFormed _ _ hx _ (Shape.mem_operands_of_mem_pair hslot)
  exact sizeInBits_setSize_of_resolve? hs ha hr hfill hlisted hfield hres

end SetSize

/-- A composed struct is depicted by its composite: it was made without members, got one for each
slot, and got its size in the end. -/
lemma Composing.listsDepicted {struct : Struct} {record : Decl.Record}
    (h : Composing (Depicting b a) b a struct record s n t) (hs : s.Regular)
    (made : struct.record = some record) (ha : s.debugType? a = none)
    (hx : s.types.shape? a = some (.struct struct)) : t.Sound ∧ ListsDepicted s t := by
  have hkey : Listable (a.index + 1) (s.openFile record.location.file).2 a := by
    refine ⟨Nat.lt_succ_self _, _, ?_, h.isDescribed made⟩
    rw [types_openFile]
    exact hx
  cases h with
  | found _ hc members =>
    -- A composite that is made now has no members yet.
    rw [isEmpty_members_openComposite ha hc] at members
    cases members
  | @filled tag c extent r htag hc members fault slots =>
    have hopen : Changes b (Listable (a.index + 1)) 0 s (openComposite s a struct record tag).2 :=
      changes_openComposite hkey
    have hs' := hs.of_changes hopen
    have hfill := slots.changes_of_below
    have hsize : Changes b (Listable a.index) 0 r
        (r.setSize (openComposite s a struct record tag).1 extent.size) := changes_setSize
    have hr := hs'.of_changes hfill
    have hentry : (openComposite s a struct record tag).2.nodes.entry?
        (openComposite s a struct record tag).1 = some (.composite
          { heading struct record tag (s.openFile record.location.file).1 with size := 0 }) :=
      entry?_openComposite ha
    have hlisted := slots.listsDepicted hs' (Debug.NodeTable.entry?_lt hentry)
    obtain ⟨ms, hentry, hmembers⟩ := slots.populates hs' hentry
    rw [size_openComposite ha] at hmembers
    refine ⟨(hr.of_changes hsize).sound, ?_, ?_⟩
    · intro v m hm hv
      by_cases hva : v = a
      · subst hva
        have after := sustains_of_changes (hfill.trans hsize)
        obtain rfl : (openComposite s v struct record tag).1 = m :=
          Option.some.inj ((after.keyed debugType?_openComposite).symm.trans hm)
        refine ⟨.struct struct, _, ?_, entry?_setSize_self hentry, ?_⟩
        · exact TypeTable.shape?_mono ((sustains_of_changes hopen).trans after).shapes hx
        · exact depicts_setSize_self hs.sound ha hr.sound hfill hlisted made htag fault hx hmembers
      · exact depicts_setSize_of_ne hs.sound ha hr.sound hfill hlisted hva hm hv
    · intro m hm hnone
      refine (sustains_of_changes hsize).entries (hlisted.placeholder hm ?_) rfl
      exact (get?_debugTypes_openComposite (by simp)).trans hnone

end Lowering

open Lowering Store

variable {b : BuilderId} {s t : Store} {a : TypeId} {n : NodeId}

/-- Whatever a lowering of a regular store lists is depicted by the node it lists. -/
theorem listsDepicted_lower (h : lower b a s = .ok (n, t)) (hs : s.Regular) : ListsDepicted s t := by
  refine lower_induction (P := fun _ s _ t => s.Regular → ListsDepicted s t) ?_ h hs
  intro a s n t _ hstep hs
  cases hstep with
  | listed => exact .of_debugTypes_eq rfl
  | pointer _ _ pointee => exact pointee.kept hs
  | @basic _ x name bits encoding ha hx hb =>
    have word : Changes b (Listable 0) 0 s (s.internType (.integer 32 false)).2 :=
      (Change.internType rfl).changes
    have hs' := hs.of_changes word
    have hx' := TypeTable.shape?_mono (sustains_of_changes word).shapes hx
    refine .of_left ?_ (listsDepicted_keyedNode hs'.sound rfl ha hx' (.basic hb ?_))
    · rfl
    · exact TypeTable.shape?_intern_of_isScalar rfl
  | @built _ s' x nodes e ha hx parts he =>
    obtain ⟨hext, hparts, hresolve⟩ := parts.depicts hs
    have hchanges := parts.changes_of_below
    have hs' := hs.of_changes hchanges
    have ha' := hchanges.debugType?_eq_none (Nat.le_refl _) ha
    have known := hs.sound.operand_lt hx
    have shapes := hchanges.grows.shapes_le
    have hd : s'.Depicts x ⟨s'.nodes.size⟩ e := by
      refine .built ?_ (he.mono shapes known)
      rwa [TypeTable.parts_eq shapes known]
    have untyped := he.type?_eq_none
    have listing : Changes b (fun _ _ => True) 0 s'
        ((s'.keyedNode (some a) e).2.stamp (s'.keyedNode (some a) e).1 b) :=
      changes_keyedNode_stamp untyped
    exact hparts.trans_entries (listsDepicted_keyedNode hs'.sound untyped ha' (hext.shape? hx) hd)
      hs'.sound (sustains_of_changes listing) (fun _ => function?_of_changes listing)
      entry?_keyedNode_stamp
  | composite ha hx hr composing =>
    obtain ⟨sound, hlisted⟩ := composing.listsDepicted hs hr ha hx
    exact hlisted.stamp sound
  | placeholder => exact listsDepicted_placeholder

/-- What the pass over a module lists is depicted as well. -/
theorem listsDepicted_of_walk {instructions : List NodeId} (h : Walk b instructions s t)
    (hs : s.Regular) : ListsDepicted s t ∧ t.methods = s.methods := by
  induction h with
  | nil => exact ⟨.of_debugTypes_eq rfl, rfl⟩
  | @untyped n _ s t _ _ ih =>
    have stamp : s.Extends (s.stamp n b) := extends_stamp
    have same : (s.stamp n b).debugTypes = s.debugTypes := rfl
    obtain ⟨hlisted, hmethods⟩ := ih (hs.of_extends stamp (edits_stamp.sound hs.sound))
    exact ⟨.of_left same hlisted, hmethods⟩
  | @typed n d _ _ s s' t _ lowered tail ih =>
    have stamp : s.Extends (s.stamp n b) := extends_stamp
    have same : (s.stamp n b).debugTypes = s.debugTypes := rfl
    have stamped := hs.of_extends stamp (edits_stamp.sound hs.sound)
    have hs' := stamped.of_changes (lower_changes lowered)
    have set : s'.Extends (s'.withDebugType n d) := extends_withDebugType
    have same' : (s'.withDebugType n d).debugTypes = s'.debugTypes := rfl
    obtain ⟨hlisted, hmethods⟩ := ih (hs'.of_extends set (edits_withDebugType.sound hs'.sound))
    have after : s'.Extends t := set.trans (extends_of_walk tail)
    have hmethods' : t.methods = s'.methods := hmethods
    have before : s'.methods = (s.stamp n b).methods := methods_of_changes (lower_changes lowered)
    have htrans := (listsDepicted_lower lowered stamped).trans_entries (.of_left same' hlisted)
      hs'.sound after.sustains (fun _ => by rw [function?, function?, hmethods']) after.entries
    exact ⟨.of_left same htrans, hmethods'.trans before⟩

end ShaderTypes
