import ShaderTypes.Proofs.Lowering.Description
import ShaderTypes.Proofs.Lowering.Reach
import ShaderTypes.Proofs.Store.Course

/-!
# Saturation of the registry

A lowering stops at types that are listed already.  Nothing is missed by that: whatever is listed has
all that describing it goes on to, `Store.Saturated`, so that everything that is reached from a type
with a debug type has one as well.  And nothing is listed by the way that is not reached:
`Store.Covers` says both of what one lowering lists, and goes along its recursion.

So after a session the registry lists what is reached from the roots of the session, no more and no
less.
-/

namespace ShaderTypes

/-- Describing a type comes to what is listed under a key: under a type of its own, or under no type
for all that cannot be described. -/
def TypeTable.ReachesKey (t : TypeTable) (a : TypeId) : Option TypeId → Prop
  | some v => t.Reaches a v
  | none => ∃ v x, t.Reaches a v ∧ t.shape? v = some x ∧ x.isDescribed = false ∧
      x.isPointer = false

lemma TypeTable.ReachesKey.raise {t : TypeTable} {a u : TypeId} {key : Option TypeId}
    (h : t.Reaches a u) (hkey : t.ReachesKey u key) : t.ReachesKey a key := by
  rcases key with _ | v
  · obtain ⟨v, x, hv, hx⟩ := hkey
    exact ⟨v, x, h.trans hv, hx⟩
  · exact h.trans hkey

lemma TypeTable.ReachesKey.mono {t t' : TypeTable} {a : TypeId} {key : Option TypeId}
    (wf : t.WellFormed) (h : t.shapes <+: t'.shapes) (known : a.index < t.size)
    (hkey : t.ReachesKey a key) : t'.ReachesKey a key := by
  rcases key with _ | v
  · obtain ⟨v, x, hv, hx, described, pointer⟩ := hkey
    exact ⟨v, x, (wf.reaches_iff h known).2 hv, shape?_mono h hx, described, pointer⟩
  · exact (wf.reaches_iff h known).2 hkey

namespace Store

/-- What is wrong with a struct that is described by its record: no function is saved for a method,
or the record and the struct do not fit together. -/
inductive Faulty (s : Store) : Shape → Fault → Prop
  | method {struct : Struct} {record : Decl.Record} {m : Decl.Method}
      (made : struct.record = some record) (enum : record.isEnum = false)
      (declared : .method m ∈ record.members) (unsaved : s.function? m.id = none) :
      Faulty s (.struct struct) (.missingFunction record.name m.name)
  | misfit {struct : Struct} {record : Decl.Record} {fault : Fault}
      (made : struct.record = some record) (enum : record.isEnum = false)
      (h : Lowering.Misfit struct.name record.dataFields struct.fields fault) :
      Faulty s (.struct struct) fault

/-- All that describing a type of the given shape needs is there. -/
structure Furnishes (s : Store) (x : Shape) : Prop where
  parts : ∀ u ∈ s.types.parts x, ∃ d, s.resolve? u = some d
  faultless : ∀ fault, ¬ s.Faulty x fault

/-- What is listed under the types of a store has all that it needs. -/
def Saturated (s : Store) : Prop :=
  ∀ (a : TypeId) (n : NodeId), s.debugType? a = some n →
    ∃ x, s.types.shape? a = some x ∧ s.Furnishes x

/-- What the lowering of a type lists anew is reached from the type, and has all that it needs. -/
structure Covers (a : TypeId) (s t : Store) : Prop where
  reached : ∀ {key : Option TypeId} {n : NodeId}, t.debugTypes.get? key = some n →
    s.debugTypes.get? key = none → t.types.ReachesKey a key
  furnished : ∀ {v : TypeId} {n : NodeId}, t.debugType? v = some n → s.debugType? v = none →
    ∃ x, t.types.shape? v = some x ∧ t.Furnishes x

variable {s t u r : Store} {a v : TypeId} {n : NodeId} {b : BuilderId} {x : Shape} {fault : Fault}
  {key : Option TypeId} {as : List TypeId}

/-! ### Faults and what is needed -/

lemma Faulty.mono (methods : ∀ {id}, t.function? id = none → s.function? id = none)
    (h : t.Faulty x fault) : s.Faulty x fault := by
  cases h with
  | method made enum declared unsaved => exact .method made enum declared (methods unsaved)
  | misfit made enum h => exact .misfit made enum h

/-- A struct without a fault fits together with its record. -/
lemma fits_of_faultless (h : ∀ fault, ¬ s.Faulty x fault) : x.Fits := by
  rintro struct record rfl made enum
  exact Lowering.fault_pair_eq_none_iff.2 fun fault misfit => h fault (.misfit made enum misfit)

/-- A struct that fits together with its record, with functions for all methods, has no fault. -/
lemma faultless_of_pair {struct : Struct} {record : Decl.Record} (made : struct.record = some record)
    (fits : (Lowering.pair record struct).fault = none)
    (saved : ∀ m, .method m ∈ (Lowering.pair record struct).slots → s.function? m.id ≠ none) :
    ¬ s.Faulty (.struct struct) fault := by
  rintro (⟨made', -, declared, unsaved⟩ | ⟨made', -, misfit⟩)
  · obtain rfl := Option.some.inj (made.symm.trans made')
    exact saved _ (Lowering.method_mem_of_fault fits declared) unsaved
  · obtain rfl := Option.some.inj (made.symm.trans made')
    exact Lowering.fault_pair_eq_none_iff.1 fits _ misfit

lemma faultless_of_ne_struct (h : ∀ struct, x ≠ .struct struct) : ¬ s.Faulty x fault := by
  rintro (⟨_, -, -, -⟩ | ⟨_, -, -⟩)
  all_goals exact h _ rfl

lemma Furnishes.mono (shapes : s.types.shapes <+: t.types.shapes)
    (keyed : ∀ {key n}, s.debugTypes.get? key = some n → t.debugTypes.get? key = some n)
    (methods : ∀ {id}, t.function? id = none → s.function? id = none)
    (hx : ∀ u ∈ x.operands, u.index < s.types.size) (h : s.Furnishes x) : t.Furnishes x where
  parts := by
    intro u hu
    rw [TypeTable.parts_eq shapes hx] at hu
    obtain ⟨d, hd⟩ := h.parts u hu
    exact ⟨d, resolve?_mono shapes keyed hd⟩
  faultless := fun fault hfault => h.faultless fault (hfault.mono methods)

/-! ### Following types in a saturated store -/

/-- What is entailed by a type with a debug type has one. -/
lemma Saturated.exists_resolve?_of_entails (hs : s.Saturated)
    (hx : s.types.shape? a = some x) (ha : ∃ d, s.resolve? a = some d) {u : TypeId}
    (entails : s.types.Entails x u) : ∃ d, s.resolve? u = some d := by
  obtain ⟨d, hd⟩ := ha
  rcases resolve?_cases hd with ⟨p, c, hp, -, hn⟩ | ⟨y, hy, pointer, hn⟩
  · obtain rfl := Option.some.inj (hx.symm.trans hp)
    cases entails
    exact ⟨d, hn⟩
  · obtain rfl := Option.some.inj (hx.symm.trans hy)
    have described : x.isDescribed = true := by
      cases entails with
      | pointee => cases pointer
      | field made enum => simp [Shape.isDescribed, made, enum]
      | _ => rfl
    rw [described] at hn
    obtain ⟨y, hy, furnished⟩ := hs _ _ hn
    obtain rfl := Option.some.inj (hx.symm.trans hy)
    exact furnished.parts u
      (TypeTable.mem_parts_of_entails (fits_of_faultless furnished.faultless) entails)

/-- Everything that is reached from a type with a debug type has one, and has no fault. -/
lemma Saturated.of_reaches (hs : s.Saturated) (h : s.types.Reaches a v)
    (ha : ∃ d, s.resolve? a = some d) : ∃ d, s.resolve? v = some d := by
  induction h with
  | refl => exact ha
  | step hx entails _ ih => exact ih (hs.exists_resolve?_of_entails hx ha entails)

lemma Saturated.faultless (hs : s.Saturated) (hx : s.types.shape? a = some x)
    (ha : ∃ d, s.resolve? a = some d) : ¬ s.Faulty x fault := by
  intro hfault
  obtain ⟨d, hd⟩ := ha
  have described : x.isDescribed = true ∧ x.isPointer = false := by
    cases hfault with
    | method made enum => exact ⟨by simp [Shape.isDescribed, made, enum], rfl⟩
    | misfit made enum => exact ⟨by simp [Shape.isDescribed, made, enum], rfl⟩
  rw [resolve?_of_shape? hx described.2, described.1] at hd
  obtain ⟨y, hy, furnished⟩ := hs _ _ hd
  obtain rfl := Option.some.inj (hx.symm.trans hy)
  exact furnished.faultless fault hfault

/-! ### What one lowering lists -/

namespace Covers

/-- A store with the same registry lists nothing anew. -/
lemma of_eq (h : t.debugTypes = s.debugTypes) : Covers a s t where
  reached := by
    intro key n hn hs
    cases (h ▸ hs).symm.trans hn
  furnished := by
    intro v n hn hs
    rw [debugType?, h] at hn
    cases hs.symm.trans hn

/-- From one store to another with the same registry. -/
lemma of_left (h : t.debugTypes = s.debugTypes) (hc : Covers a t u) : Covers a s u where
  reached := fun hn hs => hc.reached hn (by rwa [h])
  furnished := fun hn hs => hc.furnished hn (by rwa [debugType?, h])

variable {keys : Store → TypeId → Prop} {base : Nat}

/-- One lowering after the other. -/
lemma trans (h : Covers a s t) (h' : Covers a t u) (sound : t.Sound) (known : a.index < t.types.size)
    (after : Lowering.Changes b keys base t u) : Covers a s u where
  reached := by
    intro key n hn hs
    rcases ht : t.debugTypes.get? key with _ | m
    · exact h'.reached hn ht
    · exact (h.reached ht hs).mono sound.types.wellFormed after.grows.shapes_le known
  furnished := by
    intro v n hn hs
    rcases ht : t.debugType? v with _ | m
    · exact h'.furnished hn ht
    obtain ⟨x, hx, furnished⟩ := h.furnished ht hs
    have kept := sustains_of_changes after
    refine ⟨x, TypeTable.shape?_mono kept.shapes hx, ?_⟩
    refine furnished.mono kept.shapes kept.keyed ?_ (sound.operand_lt hx)
    intro id hid
    rwa [function?_of_changes after] at hid

/-- What a part lists is listed by the whole. -/
lemma raise (h : Covers v s t) (hx : t.types.shape? a = some x) (entails : t.types.Entails x v) :
    Covers a s t where
  reached := fun hn hs => (h.reached hn hs).raise (TypeTable.reaches_of_entails hx entails)
  furnished := h.furnished

/-- A store that lists one more key, which is reached and has all that it needs. -/
lemma insert {listed : Option TypeId} (h : Covers a r t)
    (others : ∀ key, key ≠ listed → r.debugTypes.get? key = s.debugTypes.get? key)
    (reached : t.types.ReachesKey a listed)
    (furnished : ∀ v, listed = some v → ∃ x, t.types.shape? v = some x ∧ t.Furnishes x) :
    Covers a s t where
  reached := by
    intro key n hn hs
    by_cases hkey : key = listed
    · exact hkey ▸ reached
    · exact h.reached hn ((others key hkey).trans hs)
  furnished := by
    intro v n hn hs
    by_cases hkey : some v = listed
    · exact furnished v hkey.symm
    · exact h.furnished hn ((others _ hkey).trans hs)

end Covers

end Store

namespace Lowering

open Store

variable {b : BuilderId} {s t : Store} {a u : TypeId} {n : NodeId} {x : Shape}

/-- A lowering of a type of a regular store covers what it lists. -/
abbrev Covering (b : BuilderId) : TypeId → TypeId → Store → NodeId → Store → Prop :=
  Lowered b fun a s _ t => s.Regular → a.index < s.types.size → Covers a s t

section Parts

variable (hs : s.Regular) (hx : s.types.shape? a = some x)
include hs hx

/-- Lowering a part leaves a regular store in which what the whole entails is the same, resolves the
part and covers what it lists. -/
lemma Lowered.covers (h : Covering b a u s n t) (entails : s.types.Entails x u) :
    t.Regular ∧ t.types.shape? a = some x ∧ (∀ v, s.types.Entails x v → t.types.Entails x v) ∧
      t.resolve? u = some n ∧ Covers a s t := by
  have changes := lower_changes h.run
  have kept := sustains_of_changes changes
  have hx' := TypeTable.shape?_mono kept.shapes hx
  have entails' (v : TypeId) (hv : s.types.Entails x v) : t.types.Entails x v :=
    (TypeTable.entails_iff kept.shapes (hs.sound.operand_lt hx)).2 hv
  refine ⟨hs.of_changes changes, hx', entails', hs.resolve?_of_lower h.run, ?_⟩
  exact (h.kept hs (hs.sound.operand_lt hx u entails.mem_operands)).raise hx' (entails' u entails)

lemma Chain.covers {as : List TypeId} {ns : List NodeId} (h : Chain (Covering b a) as s ns t)
    (entails : ∀ u ∈ as, s.types.Entails x u) :
    Covers a s t ∧ ∀ u ∈ as, ∃ d, t.resolve? u = some d := by
  induction h with
  | nil => exact ⟨.of_eq rfl, by simp⟩
  | @cons u as n ns s s' t head tail ih =>
    obtain ⟨hu, has⟩ := List.forall_mem_cons.1 entails
    obtain ⟨hs', hx', entails', resolved, covers⟩ := head.covers hs hx hu
    obtain ⟨htail, hresolved⟩ := ih hs' hx' fun v hv => entails' v (has v hv)
    have after := tail.changes_of_below
    refine ⟨covers.trans htail hs'.sound (TypeTable.shape?_lt hx') after, ?_⟩
    refine List.forall_mem_cons.2 ⟨?_, hresolved⟩
    exact ⟨n, (sustains_of_changes after).resolve? resolved⟩

lemma Filling.covers {slots : List Slot} {extent extent' : Extent}
    (h : Filling (Covering b a) b n slots extent s extent' t)
    (entails : ∀ decl field, .data decl field ∈ slots → s.types.Entails x field.type) :
    Covers a s t ∧ (∀ decl field, .data decl field ∈ slots → ∃ d, t.resolve? field.type = some d) ∧
      ∀ m, .method m ∈ slots → t.function? m.id ≠ none := by
  induction h with
  | nil => exact ⟨.of_eq rfl, by simp, by simp⟩
  | @method decl slots extent extent' function s t saved tail ih =>
    have push : Changes b (Listable a.index) 0 s (s.pushMember n function) := changes_pushMember
    have after := push.trans tail.changes_of_below
    obtain ⟨covers, resolved, functions⟩ := ih (hs.of_changes push) hx fun d f hslot =>
      entails d f (List.mem_cons_of_mem _ hslot)
    refine ⟨.of_left ?_ covers, fun d f hslot => ?_, fun m hm => ?_⟩
    · rfl
    · exact resolved d f (by simpa using hslot)
    · rcases List.mem_cons.1 hm with heq | hm
      · cases heq
        rw [function?_of_changes after, saved]
        simp
      · exact functions m hm
  | @data decl field slots extent extent' type s s' t head tail ih =>
    obtain ⟨hs', hx', entails', resolved, covers⟩ :=
      head.covers hs hx (entails decl field List.mem_cons_self)
    have member : Changes b (Listable a.index) 0 s' (addMember b s' n extent decl field type).2 :=
      changes_addMember (Nat.zero_le _) (Nat.zero_le _)
    have kept := sustains_of_changes member
    have after := member.trans tail.changes_of_below
    have entails'' (d : Decl.Field) (f : Field) (hslot : .data d f ∈ slots) :
        (addMember b s' n extent decl field type).2.types.Entails x f.type :=
      (TypeTable.entails_iff kept.shapes (hs'.sound.operand_lt hx')).2
        (entails' _ (entails d f (List.mem_cons_of_mem _ hslot)))
    obtain ⟨htail, hresolved, functions⟩ :=
      ih (hs'.of_changes member) (TypeTable.shape?_mono kept.shapes hx') entails''
    refine ⟨?_, fun d f hslot => ?_, fun m hm => functions m (by simpa using hm)⟩
    · exact covers.trans (htail.of_left debugTypes_addMember) hs'.sound (TypeTable.shape?_lt hx')
        after
    · rcases List.mem_cons.1 hslot with heq | hslot
      · cases heq
        exact ⟨type, (sustains_of_changes after).resolve? resolved⟩
      · exact hresolved d f hslot

end Parts

/-- A composed struct has all that it needs in the end, and so has what was listed by the way. -/
lemma Composing.covers {struct : Struct} {record : Decl.Record}
    (h : Composing (Covering b a) b a struct record s n t) (hs : s.Regular)
    (made : struct.record = some record) (ha : s.debugType? a = none)
    (hx : s.types.shape? a = some (.struct struct)) : Covers a s (t.stamp n b) := by
  have described := h.isDescribed made
  have hkey : Listable (a.index + 1) (s.openFile record.location.file).2 a := by
    refine ⟨Nat.lt_succ_self _, _, ?_, described⟩
    rw [types_openFile]
    exact hx
  cases h with
  | found _ hc members =>
    -- A composite that is made now has no members yet.
    rw [isEmpty_members_openComposite ha hc] at members
    cases members
  | @filled tag c extent r htag hc members fault slots =>
    have opened : Changes b (Listable (a.index + 1)) 0 s (openComposite s a struct record tag).2 :=
      changes_openComposite hkey
    have kept := sustains_of_changes opened
    have hs₁ := hs.of_changes opened
    have hx₁ := TypeTable.shape?_mono kept.shapes hx
    have hparts {types : TypeTable} := TypeTable.parts_struct (t := types) made described
    obtain ⟨covers, resolved, functions⟩ := slots.covers hs₁ hx₁ fun decl field hslot => by
      refine TypeTable.entails_of_mem_parts ?_
      rw [hparts]
      exact List.mem_filterMap.2 ⟨_, hslot, rfl⟩
    have filled := slots.changes_of_below
    have hr := hs₁.of_changes filled
    have hxr := TypeTable.shape?_mono filled.grows.shapes_le hx₁
    have after : Changes b (Listable (a.index + 1)) 0 r
        ((r.setSize (openComposite s a struct record tag).1 extent.size).stamp
          (openComposite s a struct record tag).1 b) := changes_setSize.trans changes_stamp
    have kept' := sustains_of_changes after
    have hx' := TypeTable.shape?_mono kept'.shapes hxr
    refine Covers.insert (covers.trans (.of_eq rfl) hr.sound
      (TypeTable.shape?_lt hxr) after) (fun key hne => get?_debugTypes_openComposite hne) ?_ ?_
    · exact .refl
    rintro v ⟨⟩
    refine ⟨_, hx', fun u hu => ?_, fun fault => ?_⟩
    · rw [hparts] at hu
      obtain ⟨slot, hslot, htype⟩ := List.mem_filterMap.1 hu
      cases slot with
      | method => cases htype
      | data decl field =>
        cases htype
        obtain ⟨d, hd⟩ := resolved decl field hslot
        exact ⟨d, kept'.resolve? hd⟩
    · refine faultless_of_pair made ‹_› fun m hm => ?_
      rw [function?_of_changes after]
      exact functions m hm

end Lowering

open Lowering Store

variable {b : BuilderId} {s t : Store} {a : TypeId} {n : NodeId} {x : Shape}

/-- A node that is listed under a key that is reached. -/
lemma covers_keyedNode {key : Option TypeId} {e : Debug.Entry} (hs : s.Regular)
    (untyped : e.type? = none) (hx : s.types.shape? a = some x) (reached : s.types.ReachesKey a key)
    (furnished : ∀ v, key = some v → ∃ x, s.types.shape? v = some x ∧ s.Furnishes x) :
    Covers a s ((s.keyedNode key e).2.stamp (s.keyedNode key e).1 b) := by
  have listing : Changes b (fun _ _ => True) 0 s
      ((s.keyedNode key e).2.stamp (s.keyedNode key e).1 b) :=
    (Change.keyedNode (fun _ _ => trivial) untyped).changes.trans changes_stamp
  have kept := sustains_of_changes listing
  refine Covers.insert (.of_eq (t := (s.keyedNode key e).2.stamp (s.keyedNode key e).1 b) rfl)
    (fun k hne => get?_debugTypes_keyedNode_of_ne hne) ?_ ?_
  · exact reached.mono hs.sound.types.wellFormed kept.shapes (TypeTable.shape?_lt hx)
  · intro v hv
    obtain ⟨y, hy, hfurnished⟩ := furnished v hv
    refine ⟨y, TypeTable.shape?_mono kept.shapes hy, ?_⟩
    refine hfurnished.mono kept.shapes kept.keyed (fun hid => ?_) (hs.sound.operand_lt hy)
    rwa [function?_of_changes listing] at hid

/-- What a lowering lists anew is reached from its type, and has all that it needs. -/
theorem covers_lower (h : lower b a s = .ok (n, t)) (hs : s.Regular)
    (known : a.index < s.types.size) : Covers a s t := by
  refine lower_induction (P := fun a s _ t => s.Regular → a.index < s.types.size → Covers a s t)
    ?_ h hs known
  intro a s n t _ hstep hs known
  cases hstep with
  | listed => exact .of_eq rfl
  | pointer _ hx pointee => exact (pointee.covers hs hx .pointee).2.2.2.2
  | @basic _ x name bits encoding ha hx hb =>
    have word : Change b (Listable 0) 0 s (s.internType (.integer 32 false)).2 := .internType rfl
    have hx' := TypeTable.shape?_mono word.grows.shapes_le hx
    refine .of_left ?_ (covers_keyedNode (hs.of_changes word.changes) rfl hx' .refl ?_)
    · rfl
    · rintro v ⟨⟩
      refine ⟨x, hx', ?_, fun fault => faultless_of_ne_struct ?_⟩
      · simp [TypeTable.parts_of_basic? (Option.isSome_of_eq_some hb)]
      · rintro struct rfl
        cases hb
  | @built _ s' x nodes e ha hx parts he =>
    obtain ⟨covers, resolved⟩ := parts.covers hs hx fun u => TypeTable.entails_of_mem_parts
    have changes := parts.changes_of_below
    have kept := sustains_of_changes changes
    have hx' := TypeTable.shape?_mono kept.shapes hx
    have listing : Changes b (fun _ _ => True) 0 s'
        ((s'.keyedNode (some a) e).2.stamp (s'.keyedNode (some a) e).1 b) :=
      (Change.keyedNode (fun _ _ => trivial) he.type?_eq_none).changes.trans changes_stamp
    have hs' := hs.of_changes changes
    refine covers.trans (covers_keyedNode hs' he.type?_eq_none hx' .refl ?_) hs'.sound
      (TypeTable.shape?_lt hx') listing
    rintro v ⟨⟩
    refine ⟨x, hx', fun u hu => ?_, fun fault => faultless_of_ne_struct ?_⟩
    · rw [TypeTable.parts_eq kept.shapes (hs.sound.operand_lt hx)] at hu
      exact resolved u hu
    · rintro struct rfl
      cases he
  | composite ha hx hr composing => exact composing.covers hs hr ha hx
  | placeholder ha hx described pointer =>
    refine covers_keyedNode hs rfl hx ⟨a, _, .refl, hx, described, pointer⟩ ?_
    rintro v ⟨⟩

/-! ### Sessions -/

namespace Store

variable {u : TypeId} {as : List TypeId} {key : Option TypeId}

lemma Regular.of_aside (hs : s.Regular) (h : Aside s t) : t.Regular where
  sound := h.edits.sound hs.sound
  described := by
    intro a n hn
    rw [debugType?, h.debugTypes] at hn
    obtain ⟨x, hx, described⟩ := hs.described hn
    exact ⟨x, TypeTable.shape?_mono h.edits.grows.shapes_le hx, described⟩

lemma Saturated.of_aside (hs : s.Saturated) (sound : s.Sound) (h : Aside s t) : t.Saturated := by
  intro a n hn
  have shapes := h.edits.grows.shapes_le
  rw [debugType?, h.debugTypes] at hn
  obtain ⟨x, hx, furnished⟩ := hs _ _ hn
  refine ⟨x, TypeTable.shape?_mono shapes hx, ?_⟩
  refine furnished.mono shapes (fun hkey => ?_) h.methods (sound.operand_lt hx)
  rwa [h.debugTypes]

lemma Saturated.of_lower (hs : s.Saturated) (regular : s.Regular) (known : a.index < s.types.size)
    (h : lower b a s = .ok (n, t)) : t.Saturated := by
  intro v m hm
  rcases hv : s.debugType? v with _ | m'
  · exact (covers_lower h regular known).furnished hm hv
  obtain ⟨x, hx, furnished⟩ := hs _ _ hv
  have changes := lower_changes h
  have kept := sustains_of_changes changes
  refine ⟨x, TypeTable.shape?_mono kept.shapes hx, ?_⟩
  refine furnished.mono kept.shapes kept.keyed (fun hid => ?_) (regular.sound.operand_lt hx)
  rwa [function?_of_changes changes] at hid

lemma regular_new (options : Options) : (Store.new options).Regular where
  sound := sound_new options
  described := by
    intro a n hn
    cases hn

lemma saturated_new (options : Options) : (Store.new options).Saturated := by
  intro a n hn
  cases hn

lemma Course.regular (h : Course s as t) (hs : s.Regular) : t.Regular := by
  induction h with
  | refl => exact hs
  | aside _ aside ih => exact ih.of_aside aside
  | lower _ _ run ih => exact ih.of_changes (lower_changes run)

lemma Course.saturated (h : Course s as t) (regular : s.Regular) (hs : s.Saturated) :
    t.Saturated := by
  induction h with
  | refl => exact hs
  | aside before aside ih => exact ih.of_aside (before.regular regular).sound aside
  | lower before known run ih => exact ih.of_lower (before.regular regular) known run

lemma LeftToLowering.saturated (h : s.LeftToLowering) : s.Saturated := by
  obtain ⟨options, as, course⟩ := h.exists_course
  exact course.saturated (regular_new options) (saturated_new options)

/-- The roots of a session are resolved. -/
lemma Course.exists_resolve? (h : Course s as t) (regular : s.Regular) :
    ∀ u ∈ as, u.index < t.types.size ∧ ∃ d, t.resolve? u = some d := by
  induction h with
  | refl => simp
  | aside _ aside ih =>
    intro u hu
    obtain ⟨hlt, d, hd⟩ := ih u hu
    have shapes := aside.edits.grows.shapes_le
    refine ⟨Nat.lt_of_lt_of_le hlt shapes.length_le, d, resolve?_mono shapes (fun hkey => ?_) hd⟩
    rwa [aside.debugTypes]
  | @lower as t u b a n before known run ih =>
    have changes := lower_changes run
    have kept := sustains_of_changes changes
    intro v hv
    rcases List.mem_append.1 hv with hv | hv
    · obtain ⟨hlt, d, hd⟩ := ih v hv
      exact ⟨Nat.lt_of_lt_of_le hlt kept.shapes.length_le, d, kept.resolve? hd⟩
    · obtain rfl := List.mem_singleton.1 hv
      refine ⟨Nat.lt_of_lt_of_le known kept.shapes.length_le, n, ?_⟩
      exact (before.regular regular).resolve?_of_lower run

/-- A key that was listed in a session is reached from one of its roots. -/
lemma Course.exists_reachesKey (h : Course s as t) (regular : s.Regular)
    (hn : t.debugTypes.get? key = some n) (hs : s.debugTypes.get? key = none) :
    ∃ u ∈ as, t.types.ReachesKey u key := by
  induction h with
  | refl => cases hs.symm.trans hn
  | aside before aside ih =>
    rw [aside.debugTypes] at hn
    obtain ⟨u, hu, hkey⟩ := ih hn
    refine ⟨u, hu, hkey.mono (before.regular regular).sound.types.wellFormed
      aside.edits.grows.shapes_le (before.exists_resolve? regular u hu).1⟩
  | @lower as t r b a m before known run ih =>
    rcases ht : t.debugTypes.get? key with _ | m'
    · have covers := covers_lower run (before.regular regular) known
      exact ⟨a, by simp, covers.reached hn ht⟩
    · obtain rfl : m' = n :=
        Option.some.inj (((sustains_of_changes (lower_changes run)).keyed ht).symm.trans hn)
      obtain ⟨u, hu, hkey⟩ := ih ht
      refine ⟨u, List.mem_append_left _ hu, hkey.mono (before.regular regular).sound.types.wellFormed
        (extends_lower run).types.shapes_le (before.exists_resolve? regular u hu).1⟩

/-- A key is listed exactly when something is found under it. -/
lemma mem_keys_iff : key ∈ s.debugTypes.keys ↔ ∃ n, s.debugTypes.get? key = some n := by
  rw [← not_iff_not, ← OrderedMap.get?_eq_none_iff, Option.eq_none_iff_forall_ne_some, not_exists]

/-- What a session lists that leaves the debug types to lowering: each key once, a type that can be
described exactly when it is reached from a root of the session, and the placeholder exactly when
something is reached that is no pointer and cannot be described. -/
theorem mem_keys_of_runAll {options : Options} {ops : List Operation} {replies : List Reply}
    (leaves : ∀ op ∈ ops, op.leavesDebugTypes = true)
    (h : (Store.new options).runAll ops = .ok (replies, s)) :
    s.debugTypes.keys.Nodup ∧
    (∀ a, some a ∈ s.debugTypes.keys ↔ (∃ op ∈ ops, ∃ r ∈ op.roots s, s.types.Reaches r a) ∧
      ∃ x, s.types.shape? a = some x ∧ x.isDescribed = true) ∧
    (none ∈ s.debugTypes.keys ↔ ∃ op ∈ ops, ∃ r ∈ op.roots s, ∃ a x, s.types.Reaches r a ∧
      s.types.shape? a = some x ∧ x.isDescribed = false ∧ x.isPointer = false) := by
  have course := course_of_runAll (sound_new options) leaves h
  have new := regular_new options
  have regular := course.regular new
  have saturated := course.saturated new (saturated_new options)
  -- Whatever is listed was listed in the session, and is reached from a root.
  have reached {key : Option TypeId} (hkey : key ∈ s.debugTypes.keys) :
      ∃ op ∈ ops, ∃ r ∈ op.roots s, s.types.ReachesKey r key := by
    obtain ⟨n, hn⟩ := mem_keys_iff.1 hkey
    obtain ⟨r, hr, hreaches⟩ := course.exists_reachesKey new hn rfl
    obtain ⟨op, hop, hroot⟩ := List.mem_flatMap.1 hr
    exact ⟨op, hop, r, hroot, hreaches⟩
  -- Whatever is reached from a root is resolved, so that its key is listed.
  have listed {op : Operation} {r a : TypeId} {x : Shape} (hop : op ∈ ops) (hr : r ∈ op.roots s)
      (hreaches : s.types.Reaches r a) (hx : s.types.shape? a = some x)
      (pointer : x.isPointer = false) :
      (if x.isDescribed then some a else none) ∈ s.debugTypes.keys := by
    have hroot := (course.exists_resolve? new r (List.mem_flatMap.2 ⟨op, hop, hr⟩)).2
    obtain ⟨d, hd⟩ := saturated.of_reaches hreaches hroot
    rw [resolve?_of_shape? hx pointer] at hd
    exact mem_keys_iff.2 ⟨d, hd⟩
  refine ⟨regular.sound.keys, fun a => ⟨fun ha => ?_, ?_⟩, fun hnone => ?_, ?_⟩
  · obtain ⟨n, hn⟩ := mem_keys_iff.1 ha
    exact ⟨reached ha, regular.described hn⟩
  · rintro ⟨⟨op, hop, r, hr, hreaches⟩, x, hx, described⟩
    have pointer : x.isPointer = false := by
      cases x <;> first | rfl | cases described
    simpa only [described, ↓reduceIte] using listed hop hr hreaches hx pointer
  · obtain ⟨op, hop, r, hr, a, x, hreaches⟩ := reached hnone
    exact ⟨op, hop, r, hr, a, x, hreaches⟩
  · rintro ⟨op, hop, r, hr, a, x, hreaches, hx, described, pointer⟩
    simpa only [described, Bool.false_eq_true, ↓reduceIte] using listed hop hr hreaches hx pointer

/-- A struct in which the field `x` is declared twice, the second time with a half number, and which
holds a sampler. -/
def repeatedStruct : Struct where
  name := "S"
  fields := [{ type := ⟨2⟩ }, { type := ⟨1⟩ }, { type := ⟨3⟩ }]
  record := some
    { id := ⟨0⟩, name := "S", keyword := .structKeyword, location := ⟨"a.hlsl", 1, 1⟩
      members := [.field { id := ⟨0⟩, name := "x", location := ⟨"a.hlsl", 2, 3⟩ },
        .field { id := ⟨1⟩, name := "s", location := ⟨"a.hlsl", 3, 3⟩ }, .record ⟨1⟩,
        .field { id := ⟨0⟩, name := "x", location := ⟨"a.hlsl", 2, 3⟩ }] }

/-- A module with a variable of a pointer to the struct is completed, and a function type over the
pointer is lowered. -/
def repeatedSession : List Operation :=
  [.type (.float 32), .type .sampler, .type (.array ⟨0⟩ 4 none), .type (.float 16),
    .type (.struct repeatedStruct), .type (.pointer ⟨4⟩ .uniform), .openFile "a.hlsl",
    .globalVariable
      { name := "g", site := ⟨⟨0⟩, 9, 1⟩, parent := ⟨1⟩, linkageName := "g", flags := .isPublic
        type := some ⟨5⟩ },
    .lowerModule ⟨0⟩ { instructions := [⟨2⟩] }, .type .void,
    .type (.function { result := ⟨6⟩, params := [⟨5⟩] }), .lower ⟨0⟩ ⟨7⟩]

/-- The half number is not listed, because nothing that is described comes to it. -/
theorem mem_keys_of_runAll_repeatedSession : ∃ replies s,
    (∀ op ∈ repeatedSession, op.leavesDebugTypes = true) ∧
    (Store.new {}).runAll repeatedSession = .ok (replies, s) ∧
    s.debugTypes.keys = [some ⟨4⟩, some ⟨0⟩, some ⟨2⟩, none, some ⟨7⟩] ∧
    (∃ op ∈ repeatedSession, ∃ r ∈ op.roots s, s.types.Reaches r ⟨0⟩) ∧
    ¬ ∃ op ∈ repeatedSession, ∃ r ∈ op.roots s, s.types.Reaches r ⟨3⟩ := by
  obtain ⟨replies, s, hsession, hkeys, hhalf⟩ := exists_of_runAll {} repeatedSession
    (fun s => s.debugTypes.keys = [some ⟨4⟩, some ⟨0⟩, some ⟨2⟩, none, some ⟨7⟩] ∧
      s.types.shape? ⟨3⟩ = some (.float 16)) (by decide +kernel)
  have leaves : ∀ op ∈ repeatedSession, op.leavesDebugTypes = true := by decide
  obtain ⟨-, typed, -⟩ := mem_keys_of_runAll leaves hsession
  refine ⟨replies, s, leaves, hsession, hkeys, ((typed ⟨0⟩).1 (by simp [hkeys])).1, fun reached => ?_⟩
  have hlisted := (typed ⟨3⟩).2 ⟨reached, _, hhalf, rfl⟩
  simp [hkeys] at hlisted

end Store

end ShaderTypes
