import ShaderTypes.Proofs.Lowering.Trail
import ShaderTypes.Proofs.Store.Course

/-!
# Files in the order of their first touch

The files are kept in the order in which they became known.  Lowering a type touches the files on
the trail of the type, in that order, and those that are new go to the end: `Store.Touches`, along
the recursion.

For the types that get a debug type on the way, all files on their trails are known in the end.
That is why the trail of a later part, which leaves these types out, comes to the same as the one
read off the store at the start.
-/

namespace ShaderTypes

namespace Store

/-- Whether a type has a debug type. -/
def isListed (s : Store) (a : TypeId) : Bool :=
  (s.debugType? a).isSome

/-- The files that describing a type touches. -/
def trail (s : Store) (a : TypeId) : List String :=
  s.types.trail s.isListed a

/-- Whether the composite listed under a type has members. -/
def isPopulated (s : Store) (a : TypeId) : Bool :=
  ((s.debugType? a).bind s.nodes.composite?).any (!·.members.isEmpty)

/-- The files that describing a struct and its record under a type touches.  The type is listed
before the members are made, and they are not made again. -/
def compositeTrail (s : Store) (a : TypeId) (struct : Struct) (record : Decl.Record) :
    List String :=
  record.location.file ::
    if s.isPopulated a then []
    else Lowering.pairsTrail (s.types.trail fun v => v == a || s.isListed v)
      (Lowering.firstOccurrences (record.dataFields.zip struct.fields))

/-- A later store in which the given files were touched, and the files on the trail of every type
that is listed newly are known. -/
structure Touches (s : Store) (l : List String) (t : Store) : Prop where
  grows : s.types.Grows t.types
  listed : ∀ {v : TypeId}, s.isListed v = true → t.isListed v = true
  files : t.files.keys = l.foldl touch s.files.keys
  covered : ∀ {v : TypeId}, s.isListed v = false → t.isListed v = true →
    s.trail v ⊆ t.files.keys

variable {s t u : Store} {a : TypeId} {n : NodeId} {b : BuilderId} {l l' l'' : List String}
  {name : String} {e : Debug.Entry}

lemma isListed_of_debugType? (h : s.debugType? a = some n) : s.isListed a = true :=
  Option.isSome_of_eq_some h

lemma isListed_eq_false (h : s.debugType? a = none) : s.isListed a = false := by
  rw [isListed, h, Option.isSome_none]

lemma isListed_eq (h : t.debugTypes = s.debugTypes) : t.isListed = s.isListed := by
  funext v
  rw [isListed, isListed, debugType?, debugType?, h]

/-- The placeholder is no type's own. -/
lemma isListed_keyedNode_none : (s.keyedNode none e).2.isListed = s.isListed := by
  funext v
  rw [isListed, isListed, debugType?, debugType?, get?_debugTypes_keyedNode_of_ne (by simp)]

/-- Opening a file touches it. -/
lemma keys_openFile : (s.openFile name).2.files.keys = touch s.files.keys name := by
  rw [touch]
  rcases hname : s.files.get? name with _ | file
  · rw [openFile_of_get?_eq_none hname]
    exact OrderedMap.keys_insert
  · rw [openFile_of_get? hname, if_pos]
    by_contra hnone
    cases hname.symm.trans (OrderedMap.get?_eq_none_iff.2 hnone)

namespace Touches

lemma subset (h : Touches s l t) : l ⊆ t.files.keys := by
  intro f hf
  rw [h.files]
  exact mem_foldl_touch.2 (Or.inr hf)

lemma refl (s : Store) : Touches s [] s where
  grows := .refl
  listed := id
  files := rfl
  covered := fun hs ht => by simp [hs] at ht

/-- A step that lists no type. -/
lemma of_isListed (grows : s.types.Grows t.types) (listed : t.isListed = s.isListed)
    (files : t.files.keys = l.foldl touch s.files.keys) : Touches s l t where
  grows := grows
  listed := fun hs => by rwa [listed]
  files := files
  covered := fun hs ht => by
    rw [listed, hs] at ht
    cases ht

lemma congr (h : Touches s l t) (alike : TouchAlike [] l' l) : Touches s l' t :=
  { h with files := h.files.trans (alike _ (List.nil_subset _)).symm }

/-- A further step that lists no type and opens no file. -/
lemma keep (h : Touches s l t) (grows : t.types.Grows u.types) (listed : u.isListed = t.isListed)
    (files : u.files = t.files) : Touches s l u where
  grows := h.grows.trans grows
  listed := fun hs => by rw [listed]; exact h.listed hs
  files := by rw [files, h.files]
  covered := fun hs hu => by
    rw [listed] at hu
    rw [files]
    exact h.covered hs hu

/-- The trail of a type in the later store comes to the same once what was touched is known. -/
lemma alike (h : Touches s l t) (hs : s.types.Interned) (known : a.index < s.types.size) :
    TouchAlike t.files.keys (s.trail a) (t.trail a) :=
  TypeTable.trail_alike hs.wellFormed (h.grows.interned hs).wellFormed h.grows.shapes_le known
    (fun _ => h.listed) fun _ _ hv hv' => h.covered hv hv'

/-- One after the other, where what is touched then may be read off the earlier store. -/
lemma trans (h : Touches s l t) (h' : Touches t l'' u) (hs : s.types.Interned)
    (alike : TouchAlike t.files.keys l' l'') : Touches s (l ++ l') u where
  grows := h.grows.trans h'.grows
  listed := fun hv => h'.listed (h.listed hv)
  files := by
    rw [List.foldl_append, ← h.files, h'.files]
    exact (alike _ (List.Subset.refl _)).symm
  covered := by
    intro v hv hu f hf
    have kept : t.files.keys ⊆ u.files.keys := by
      rw [h'.files]
      exact prefix_foldl_touch.subset
    rcases ht : t.isListed v with _ | _
    · -- A type that is listed in the second part only is on the trail in both stores.
      rcases Nat.lt_or_ge v.index s.types.size with known | unknown
      · rcases (h.alike hs known).mem hf with hf | hf
        · exact kept hf
        · exact h'.covered ht hu hf
      · have hshape : s.types.shape? v = none := List.getElem?_eq_none unknown
        rw [Store.trail, TypeTable.trail_of_shape?_eq_none hshape] at hf
        cases hf
    · exact kept (h.covered hv ht hf)

end Touches

lemma Touches.stamp (h : Touches s l t) : Touches s l (t.stamp n b) := by
  have change : Lowering.Change b (fun _ _ => True) 0 t (t.stamp n b) :=
    .stamp (Or.inl (Nat.zero_le _))
  exact h.keep change.grows rfl rfl

/-- A type is listed once the files on its trail are known. -/
lemma Touches.keyedNode (h : Touches s (s.trail a) t) :
    Touches s (s.trail a) (t.keyedNode (some a) e).2 where
  grows := by rw [types_keyedNode]; exact h.grows
  listed := by
    intro v hv
    obtain ⟨m, hm⟩ := Option.isSome_iff_exists.1 (h.listed hv)
    refine Option.isSome_iff_exists.2 ?_
    by_cases hva : v = a
    · subst hva
      exact ⟨_, get?_debugTypes_keyedNode⟩
    · exact ⟨m, (get?_debugTypes_keyedNode_of_ne (by simpa using hva)).trans hm⟩
  files := by rw [files_keyedNode, h.files]
  covered := by
    intro v hs hv
    rw [files_keyedNode]
    by_cases hva : v = a
    · rw [hva]
      exact h.subset
    · refine h.covered hs ?_
      rwa [isListed, debugType?, get?_debugTypes_keyedNode_of_ne (by simpa using hva)] at hv

end Store

namespace Lowering

open Store

variable {R : TypeId → Store → NodeId → Store → Prop} {P : TypeId → Store → NodeId → Store → Prop}
  {s t : Store} {a : TypeId} {n : NodeId} {b : BuilderId} {struct : Struct} {record : Decl.Record}

/-- A lowering touches the files on the trail of its type. -/
abbrev Touching (u : TypeId) (s : Store) (_ : NodeId) (t : Store) : Prop :=
  s.types.Interned → u.index < s.types.size → Touches s (s.trail u) t

lemma touches_addMember {composite type : NodeId} {extent : Extent} {decl : Decl.Field}
    {field : Field} :
    Touches s [decl.location.file] (addMember b s composite extent decl field type).2 := by
  have member :
      Changes b (fun _ _ => True) 0 s (addMember b s composite extent decl field type).2 :=
    changes_addMember (Nat.zero_le _) (Nat.zero_le _)
  refine .of_isListed member.grows (isListed_eq debugTypes_addMember) ?_
  have hvalue : (literalConstant s decl.value).2.files = s.files := by
    unfold literalConstant
    split <;> rfl
  rw [addMember_snd]
  change (openMember s decl).files.keys = _
  rw [openMember, keys_openFile, hvalue]
  rfl

section Pieces

variable (hR : ∀ u s n t, R u s n t → Touching u s n t)
include hR

lemma Chain.touches {as : List TypeId} {ns : List NodeId} (h : Chain R as s ns t)
    (hs : s.types.Interned) (known : ∀ u ∈ as, u.index < s.types.size) :
    Touches s (as.flatMap s.trail) t := by
  induction h with
  | nil => exact .refl _
  | cons head _ ih =>
    obtain ⟨hu, hrest⟩ := List.forall_mem_cons.1 known
    have hhead := hR _ _ _ _ head hs hu
    have htail := ih (hhead.grows.interned hs) fun v hv =>
      Nat.lt_of_lt_of_le (hrest v hv) hhead.grows.shapes_le.length_le
    exact hhead.trans htail hs (.flatMap fun v hv => hhead.alike hs (hrest v hv))

lemma Filling.touches {slots : List Slot} {extent extent' : Extent}
    (h : Filling R b n slots extent s extent' t) (hs : s.types.Interned)
    (known : ∀ p ∈ slots.filterMap Slot.pair?, p.2.type.index < s.types.size) :
    Touches s (pairsTrail s.trail (slots.filterMap Slot.pair?)) t := by
  induction h with
  | nil => exact .refl _
  | @method decl slots _ _ function s t _ tail ih =>
    have push : Touches s [] (s.pushMember n function) := .of_isListed .refl rfl rfl
    exact push.trans (ih hs known) hs (.refl _ _)
  | @data decl field slots extent _ type s s' t head tail ih =>
    obtain ⟨hfield, hrest⟩ := List.forall_mem_cons.1 known
    have hhead := hR _ _ _ _ head hs hfield
    have member : Touches s' [decl.location.file] (addMember b s' n extent decl field type).2 :=
      touches_addMember
    have before := hhead.trans member hs (.refl _ _)
    have htail := ih (before.grows.interned hs) fun v hv =>
      Nat.lt_of_lt_of_le (hrest v hv) before.grows.shapes_le.length_le
    have hslots := before.trans htail hs
      (pairsTrail_alike fun p hp => before.alike hs (hrest p hp))
    exact hslots

end Pieces

/-! ### Composites -/

section OpenComposite

variable {tag : Debug.CompositeTag} {v : TypeId}

lemma types_openComposite : (openComposite s a struct record tag).2.types = s.types := by
  rw [openComposite_eq, types_keyedNode, types_openFile]

lemma keys_files_openComposite : (openComposite s a struct record tag).2.files.keys =
    touch s.files.keys record.location.file := by
  rw [openComposite_eq, files_keyedNode, keys_openFile]

lemma isListed_openComposite : (openComposite s a struct record tag).2.isListed =
    fun v => v == a || s.isListed v := by
  funext v
  by_cases hva : v = a
  · simp [isListed, hva, debugType?_openComposite]
  · have hne : (v == a) = false := by simpa using hva
    rw [isListed, debugType?, get?_debugTypes_openComposite (by simpa using hva), hne,
      Bool.false_or]
    rfl

lemma trail_openComposite : (openComposite s a struct record tag).2.trail =
    s.types.trail fun v => v == a || s.isListed v := by
  funext v
  rw [Store.trail, isListed_openComposite, types_openComposite]

/-- The composite that is found has members just when there are some already. -/
lemma isPopulated_eq {c : Debug.Composite}
    (listed : ∀ m, s.debugType? a = some m → m.index < s.nodes.size)
    (hc : (openComposite s a struct record tag).2.nodes.composite?
      (openComposite s a struct record tag).1 = some c) :
    s.isPopulated a = !c.members.isEmpty := by
  rcases ha : s.debugType? a with _ | m
  · rw [isEmpty_members_openComposite ha hc, isPopulated, ha]
    rfl
  · have hlisted : (s.openFile record.location.file).2.debugTypes.get? (some a) = some m := by
      rw [debugTypes_openFile]
      exact ha
    have hopen :
        openComposite s a struct record tag = (m, (s.openFile record.location.file).2) := by
      rw [openComposite_eq, keyedNode_of_get? hlisted]
    obtain ⟨node, hnode⟩ := Debug.NodeTable.exists_node? (listed m ha)
    have he := Debug.NodeTable.entry?_of_node? hnode
    rw [hopen, Debug.NodeTable.composite?_eq_some,
      Debug.NodeTable.entry?_mono nodes_le_openFile he, ← he,
      ← Debug.NodeTable.composite?_eq_some] at hc
    rw [isPopulated, ha, Option.bind_some, hc, Option.any_some]

end OpenComposite

/-- Describing a struct on request touches the file of its record, and those of its members if they
are made. -/
lemma Composing.files (hR : ∀ u s n t, R u s n t → Touching u s n t)
    (h : Composing R b a struct record s n t) (hs : s.types.Interned)
    (listed : ∀ m, s.debugType? a = some m → m.index < s.nodes.size)
    (known : ∀ u ∈ (Shape.struct struct).operands, u.index < s.types.size) : t.files.keys = (s.compositeTrail a struct record).foldl touch s.files.keys := by
  cases h with
  | found _ hc members =>
    rw [compositeTrail, isPopulated_eq listed hc, members, keys_files_openComposite]
    rfl
  | @filled tag c extent q _ hc members fault slots =>
    have hslots := slots.touches hR (by rwa [types_openComposite]) fun p hp => by
      rw [pairs_pair fault] at hp
      rw [types_openComposite]
      exact known _ (mem_operands_of_mem_firstOccurrences hp)
    have hfiles := hslots.files
    rw [trail_openComposite, keys_files_openComposite, pairs_pair fault] at hfiles
    rw [compositeTrail, isPopulated_eq listed hc, members]
    exact hfiles

/-- Below a type the trails are the same before and after the type is listed. -/
lemma trail_alike_openComposite {tag : Debug.CompositeTag} {u : TypeId} (hs : s.types.Interned)
    (hu : u.index < a.index) (known : a.index < s.types.size) :
    TouchAlike [] (s.trail u) ((openComposite s a struct record tag).2.trail u) := by
  rw [trail_openComposite]
  refine TypeTable.trail_alike hs.wellFormed hs.wellFormed (List.prefix_refl _)
    (Nat.lt_trans hu known) (fun v hv => by simp [hv]) ?_
  intro v hv hold hnew
  obtain rfl : v = a := by simpa [hold] using hnew
  exact absurd hu (Nat.not_lt.2 hv)

/-- A composed struct that had no debug type touches the files on its trail. -/
lemma Composing.touches (h : Composing (Lowered b Touching a) b a struct record s n t)
    (ha : s.debugType? a = none) (hx : s.types.shape? a = some (.struct struct))
    (hr : struct.record = some record) (hs : s.types.Interned) : Touches s (s.trail a) t := by
  have described := h.isDescribed hr
  have hlt := TypeTable.shape?_lt hx
  have below : ∀ p ∈ firstOccurrences (record.dataFields.zip struct.fields),
      p.2.type.index < a.index := fun p hp =>
    hs.wellFormed a _ hx _ (mem_operands_of_mem_firstOccurrences hp)
  cases h with
  | found _ hc members =>
    -- A composite that is made now has no members yet.
    rw [isEmpty_members_openComposite ha hc] at members
    cases members
  | @filled tag c extent q _ hc _ fault slots =>
    have hslots := slots.touches (fun _ _ _ _ h => h.kept) (by rwa [types_openComposite])
      fun p hp => by
        rw [pairs_pair fault] at hp
        rw [types_openComposite]
        exact Nat.lt_trans (below p hp) hlt
    rw [pairs_pair fault] at hslots
    have alike : TouchAlike [] (s.trail a) (record.location.file ::
        pairsTrail (openComposite s a struct record tag).2.trail
          (firstOccurrences (record.dataFields.zip struct.fields))) := by
      refine (TypeTable.trail_alike_pairsTrail hs.wellFormed hx hr described
        (isListed_eq_false ha)).trans (.append (.refl [] [record.location.file]) ?_)
      exact pairsTrail_alike fun p hp => trail_alike_openComposite hs (below p hp) hlt
    have files : q.files.keys = (s.trail a).foldl touch s.files.keys := by
      rw [alike _ (List.nil_subset _), hslots.files, keys_files_openComposite]
      rfl
    refine ⟨?_, fun hv => ?_, files, fun {v} hv hq => ?_⟩
    · have grows := hslots.grows
      rwa [types_openComposite] at grows
    · refine hslots.listed ?_
      rw [isListed_openComposite]
      simp [hv]
    · by_cases hva : v = a
      · rw [hva]
        intro f hf
        exact files ▸ mem_foldl_touch.2 (Or.inr hf)
      · have hopen : (openComposite s a struct record tag).2.isListed v = false := by
          rw [isListed_openComposite]
          simp [hva, hv]
        -- What is listed along with the members stands before `a`.
        obtain ⟨m, hm⟩ := Option.isSome_iff_exists.1 hq
        have hv : v.index < a.index := by
          rcases slots.changes_of_below.get?_cases hm with hold | ⟨-, -, listable⟩
          · cases hopen.symm.trans (isListed_of_debugType? hold)
          · exact (listable v rfl).1
        intro f hf
        rcases (trail_alike_openComposite hs hv hlt).mem hf with hf | hf
        · cases hf
        · exact hslots.covered hopen hq hf

end Lowering

open Lowering Store

variable {s t : Store} {a : TypeId} {n : NodeId} {b : BuilderId} {struct : Struct}
  {record : Decl.Record}

/-- Lowering a type touches the files on its trail. -/
theorem touches_lower (h : lower b a s = .ok (n, t)) (hs : s.types.Interned)
    (known : a.index < s.types.size) : Touches s (s.trail a) t := by
  refine lower_induction (P := Touching) ?_ h hs known
  intro a s n t _ hstep hs known
  -- Composites apart, the trail of a type is that of its parts.
  have parts {x : Shape} (ha : s.debugType? a = none) (hx : s.types.shape? a = some x)
      (hwith : s.types.trailWith s.trail x = (s.types.parts x).flatMap s.trail) :
      TouchAlike [] (s.trail a) ((s.types.parts x).flatMap s.trail) := by
    rw [← hwith]
    exact TypeTable.trail_alike_trailWith hs.wellFormed hx (isListed_eq_false ha)
  cases hstep with
  | listed ha =>
    refine (Touches.refl s).congr ?_
    rw [Store.trail, TypeTable.trail_of_listed (isListed_of_debugType? ha)]
    exact .refl [] []
  | pointer ha hx pointee =>
    have hp := pointee.kept hs (Nat.lt_trans pointee.lt known)
    refine hp.congr ?_
    simpa [TypeTable.parts] using parts ha hx rfl
  | @basic _ x _ _ _ ha hx hb =>
    have hbasic := Option.isSome_of_eq_some hb
    have alike := parts ha hx (by cases x <;> first | rfl | cases hbasic)
    rw [TypeTable.parts_of_basic? hbasic] at alike
    have word : Change b (fun _ _ => True) 0 s (s.internType (.integer 32 false)).2 :=
      .internType rfl
    exact ((((Touches.refl s).congr alike).keep word.grows rfl rfl).keyedNode).stamp
  | built ha hx hparts he =>
    have alike := parts ha hx (by cases he <;> rfl)
    have touched := hparts.touches (fun _ _ _ _ h => h.kept) hs fun u hu =>
      hs.wellFormed.operand_lt hx (TypeTable.mem_operands_of_mem_parts hu)
    exact ((touched.congr alike).keyedNode).stamp
  | composite ha hx hr composing => exact (composing.touches ha hx hr hs).stamp
  | placeholder ha hx described pointer =>
    have alike : TouchAlike [] (s.trail a) (s.types.trailWith s.trail _) :=
      TypeTable.trail_alike_trailWith hs.wellFormed hx (isListed_eq_false ha)
    rw [TypeTable.trailWith_of_undescribed described pointer] at alike
    have types : (Lowering.placeholder s).2.types = s.types := types_keyedNode
    exact (((Touches.refl s).congr alike).keep (types ▸ .refl) isListed_keyedNode_none
      files_keyedNode).stamp

/-- Describing a struct on request touches the file of its record, and those of its members if they
are made. -/
theorem files_of_lowerComposite (h : lowerComposite b a struct record s = .ok (n, t))
    (sound : s.Sound) (known : ∀ field ∈ struct.fields, field.type.index < s.types.size) :
    t.files.keys = (s.compositeTrail a struct record).foldl touch s.files.keys := by
  refine (composing_of_compositeWith h).files (fun _ _ _ _ hu => touches_lower hu) sound.types
    (fun m hm => ?_) fun u hu => ?_
  · exact sound.lt_of_get? hm
  · obtain ⟨field, hfield, rfl⟩ := List.mem_map.1 hu
    exact known field hfield

/-- The trails of the variables and functions left may be read off the earlier store. -/
lemma Store.Touches.trans_walk {r : Store} {l : List String} {rest : List NodeId}
    (h : Touches s l r) (edits : Edits s r) (sound : s.Sound)
    (known : ∀ n ∈ rest, n.index < s.nodes.size)
    (h' : Touches r ((rest.filterMap r.type?).flatMap r.trail) t) :
    Touches s (l ++ (rest.filterMap s.type?).flatMap s.trail) t := by
  have same : rest.filterMap r.type? = rest.filterMap s.type? :=
    List.filterMap_congr fun n hn => edits.type?_eq (known n hn)
  rw [same] at h'
  refine h.trans h' sound.types (.flatMap fun a ha => ?_)
  obtain ⟨n, -, hn⟩ := List.mem_filterMap.1 ha
  exact h.alike sound.types (sound.typed hn)

/-- Completing a module touches the files on the trails of its variables and functions. -/
theorem touches_of_walk {instructions : List NodeId} (h : Walk b instructions s t) (sound : s.Sound)
    (known : ∀ n ∈ instructions, n.index < s.nodes.size) :
    Touches s ((instructions.filterMap s.type?).flatMap s.trail) t := by
  induction h with
  | nil => exact .refl _
  | @untyped n rest s t htype tail ih =>
    have stamp : Edits s (s.stamp n b) := edits_stamp
    obtain ⟨hn, hrest⟩ := List.forall_mem_cons.1 known
    have htail := ih (stamp.sound sound) fun m hm => Nat.lt_of_lt_of_le (hrest m hm) stamp.size_le
    rw [List.filterMap_cons_none ((stamp.type?_eq hn).symm.trans htype)]
    exact (Touches.refl s).stamp.trans_walk stamp sound hrest htail
  | @typed n d a rest s s' t htype lowered tail ih =>
    have stamp : Edits s (s.stamp n b) := edits_stamp
    have before : Edits s (s'.withDebugType n d) :=
      (stamp.trans (edits_of_changes (lower_changes lowered))).trans edits_withDebugType
    obtain ⟨hn, hrest⟩ := List.forall_mem_cons.1 known
    have htail := ih (before.sound sound) fun m hm => Nat.lt_of_lt_of_le (hrest m hm) before.size_le
    have htype' : s.type? n = some a := (stamp.type?_eq hn).symm.trans htype
    have first : Touches s [] (s.stamp n b) := (Touches.refl s).stamp
    have lower := touches_lower lowered (stamp.sound sound).types ((stamp.sound sound).typed htype)
    have head : Touches s (s.trail a) (s'.withDebugType n d) :=
      (first.trans lower sound.types (first.alike sound.types (sound.typed htype'))).keep
        .refl rfl rfl
    rw [List.filterMap_cons_some htype', List.flatMap_cons]
    exact head.trans_walk before sound hrest htail

end ShaderTypes
