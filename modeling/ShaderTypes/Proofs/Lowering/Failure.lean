import ShaderTypes.Proofs.Lowering.Saturation
import ShaderTypes.Proofs.Lowering.Stability

/-!
# When lowering fails

The guard of the recursion is never met, so lowering is its recursion without it.  A lowering that
fails is taken apart like one that succeeds: it fails for a struct that it is about, or for a part,
in a store that differs from the first one by what was lowered before.  Methods stay as they are
saved meanwhile, and so does what is reached.  So a lowering that fails has come to a struct with a
fault.

Conversely a lowering that succeeds leaves a debug type for everything that is reached, and in a
saturated store no struct with a debug type has a fault.
-/

namespace ShaderTypes

/-! ### Failing computations -/

namespace Lower

variable {α β : Type} {s : Store} {fault : Fault}

/-- A sequence of computations fails in its first part or after it. -/
lemma bind_eq_error {x : Lower α} {f : α → Lower β} :
    (x >>= f) s = .error fault ↔
      x s = .error fault ∨ ∃ a s', x s = .ok (a, s') ∧ f a s' = .error fault := by
  change (x s >>= fun p => f p.1 p.2) = .error fault ↔ _
  cases x s with
  | error fault' => simp [bind, Except.bind]
  | ok p =>
    constructor
    · exact fun h => Or.inr ⟨p.1, p.2, rfl, h⟩
    · rintro (h | ⟨a, s', hp, h⟩)
      · cases h
      · cases hp
        exact h

lemma map_eq_error {x : Lower α} {f : α → β} :
    (f <$> x) s = .error fault ↔ x s = .error fault := by
  change (x s >>= fun p => .ok (f p.1, p.2)) = .error fault ↔ _
  cases x s <;> simp [bind, Except.bind]

lemma pure_ne_error {a : β} : (pure a : Lower β) s ≠ .error fault := by
  change Except.ok (a, s) ≠ .error fault
  simp

lemma get_ne_error : (get : Lower Store) s ≠ .error fault := by
  change Except.ok (s, s) ≠ .error fault
  simp

lemma modify_ne_error {f : Store → Store} : (modify f : Lower PUnit) s ≠ .error fault := by
  change Except.ok (PUnit.unit, f s) ≠ .error fault
  simp

lemma modifyGet_ne_error {f : Store → β × Store} : (modifyGet f : Lower β) s ≠ .error fault := by
  change Except.ok (f s) ≠ .error fault
  simp

lemma throw_eq_error {fault' : Fault} : (throw fault' : Lower β) s = .error fault ↔
    fault' = fault := by
  change Except.error fault' = .error fault ↔ _
  simp

lemma lift_eq_error {x : Except Fault β} : (liftM x : Lower β) s = .error fault ↔
    x = .error fault := by
  cases x with
  | error fault' => change Except.error fault' = .error fault ↔ _; simp
  | ok a => change Except.ok (a, s) = .error fault ↔ _; simp

end Lower

/-! ### The recursion without its guard -/

namespace Lowering

variable {b : BuilderId} {f g : TypeId → Lower NodeId} {s : Store} {a : TypeId} {x : Shape}

lemma mapM_congr {as : List TypeId} (h : ∀ u ∈ as, f u = g u) : as.mapM f = as.mapM g := by
  induction as with
  | nil => rfl
  | cons a as ih =>
    obtain ⟨ha, has⟩ := List.forall_mem_cons.1 h
    rw [List.mapM_cons, List.mapM_cons, ha, ih has]

lemma foldlM_addSlot_congr {record : String} {n : NodeId} {slots : List Slot} {extent : Extent}
    (h : ∀ decl field, .data decl field ∈ slots → f field.type = g field.type) :
    slots.foldlM (addSlot b f record n) extent = slots.foldlM (addSlot b g record n) extent := by
  induction slots generalizing extent with
  | nil => rfl
  | cons slot slots ih =>
    have hslot : addSlot b f record n extent slot = addSlot b g record n extent slot := by
      cases slot with
      | method => rfl
      | data decl field => rw [addSlot, addSlot, h decl field List.mem_cons_self]
    rw [List.foldlM_cons, List.foldlM_cons, hslot]
    refine congrArg _ (funext fun extent' => ih fun decl field hdata => ?_)
    exact h decl field (List.mem_cons_of_mem _ hdata)

/-- Describing a type asks for its operands only. -/
lemma describe_congr (h : ∀ u ∈ x.operands, f u = g u) : describe b f a x = describe b g a x := by
  cases x with
  | vector u count => rw [describe, describe, h u List.mem_cons_self]
  | array u count stride => rw [describe, describe, h u List.mem_cons_self]
  | function signature =>
    obtain ⟨hresult, hparams⟩ := List.forall_mem_cons.1 h
    rw [describe, describe, functionType, functionType, hresult, mapM_congr hparams]
  | struct struct =>
    rw [describe, describe]
    split
    · split
      · rfl
      · rw [compositeWith, compositeWith]
        have hpopulate (record : Decl.Record) (n : NodeId) :
            populate b f record struct n = populate b g record struct n := by
          rw [populate, populate, foldlM_addSlot_congr fun decl field hslot =>
            h field.type (Shape.mem_operands_of_mem_pair hslot)]
        simp only [hpopulate]
    · rfl
  | _ => rfl

lemma lowerWith_congr (h : ∀ x, s.types.shape? a = some x → ∀ u ∈ x.operands, f u = g u) :
    lowerWith b f a s = lowerWith b g a s := by
  change (lowerWith b f a).run s = (lowerWith b g a).run s
  simp only [lowerWith, StateT.run_bind, StateT.run_get, pure_bind]
  rcases s.debugType? a with _ | n
  · rcases hx : s.types.shape? a with _ | x
    · rfl
    · cases x with
      | pointer u c => simp only [h _ hx u List.mem_cons_self]
      | _ => simp only [describe_congr (h _ hx)]
  · rfl

end Lowering

open Lowering Store

variable {b : BuilderId} {s t : Store} {a : TypeId} {n : NodeId} {x : Shape} {fault : Fault}

/-- Operands stand before their type, so the guard of the recursion lets all of them pass. -/
lemma lower_eq (wf : s.types.WellFormed) : lower b a s = lowerWith b (lower b) a s := by
  rw [lower]
  exact lowerWith_congr fun x hx u hu => dif_pos (wf a x hx u hu)

/-! ### Where lowering fails -/

namespace Lowering

/-- The changes that lowering may have made before it fails. -/
abbrev Meanwhile (b : BuilderId) : Store → Store → Prop :=
  Changes b (fun _ _ => True) 0

lemma meanwhile_of_lower (h : lower b a s = .ok (n, t)) : Meanwhile b s t :=
  (lower_changes h).mono (fun _ _ _ => trivial) (Nat.zero_le _)

/-- Lowering a part fails, after what was lowered before. -/
def FailsAt (b : BuilderId) (s : Store) (u : TypeId) (fault : Fault) : Prop :=
  ∃ s', Meanwhile b s s' ∧ lower b u s' = .error fault

lemma FailsAt.after {u : TypeId} (h : Meanwhile b s t) (ht : FailsAt b t u fault) :
    FailsAt b s u fault := by
  obtain ⟨s', changes, hfails⟩ := ht
  exact ⟨s', h.trans changes, hfails⟩

lemma failsAt_of_mapM {as : List TypeId} (h : as.mapM (lower b) s = .error fault) :
    ∃ u ∈ as, FailsAt b s u fault := by
  induction as generalizing s with
  | nil => exact absurd h Lower.pure_ne_error
  | cons a as ih =>
    rw [List.mapM_cons, Lower.bind_eq_error] at h
    rcases h with h | ⟨n, s', hhead, h⟩
    · exact ⟨a, List.mem_cons_self, s, .refl, h⟩
    rcases Lower.bind_eq_error.1 h with h | ⟨ns, s'', -, h⟩
    · obtain ⟨u, hu, hfails⟩ := ih h
      exact ⟨u, List.mem_cons_of_mem _ hu, hfails.after (meanwhile_of_lower hhead)⟩
    · exact absurd h Lower.pure_ne_error

/-- Making the members of a composite fails at a method for which no function is saved, or at a data
field of which the type cannot be lowered. -/
lemma failsAt_of_foldlM {record : String} {slots : List Slot} {extent : Extent}
    (h : slots.foldlM (addSlot b (lower b) record n) extent s = .error fault) :
    (∃ m, .method m ∈ slots ∧ s.function? m.id = none ∧ fault = .missingFunction record m.name) ∨
      ∃ decl field, .data decl field ∈ slots ∧ FailsAt b s field.type fault := by
  induction slots generalizing s extent with
  | nil => exact absurd h Lower.pure_ne_error
  | cons slot slots ih =>
    -- What fails behind the first slot fails after the changes made for it.
    have later {s' : Store} {extent' : Extent} (changes : Meanwhile b s s')
        (h : slots.foldlM (addSlot b (lower b) record n) extent' s' = .error fault) :
        (∃ m, .method m ∈ slot :: slots ∧ s.function? m.id = none ∧
          fault = .missingFunction record m.name) ∨
        ∃ decl field, .data decl field ∈ slot :: slots ∧ FailsAt b s field.type fault := by
      rcases ih h with ⟨m, hm, unsaved, rfl⟩ | ⟨decl, field, hslot, hfails⟩
      · rw [function?_of_changes changes] at unsaved
        exact Or.inl ⟨m, List.mem_cons_of_mem _ hm, unsaved, rfl⟩
      · exact Or.inr ⟨decl, field, List.mem_cons_of_mem _ hslot, hfails.after changes⟩
    rw [List.foldlM_cons, Lower.bind_eq_error] at h
    cases slot with
    | method decl =>
      rcases hsaved : s.function? decl.id with _ | function
      · refine Or.inl ⟨decl, List.mem_cons_self, hsaved, ?_⟩
        have hslot : addSlot b (lower b) record n extent (.method decl) s =
            .error (.missingFunction record decl.name) := by
          rw [addSlot]
          refine Lower.bind_eq_error.2 (Or.inr ⟨s, s, rfl, ?_⟩)
          rw [hsaved]
          exact Lower.throw_eq_error.2 rfl
        rcases h with h | ⟨extent', s', h, -⟩
        · exact Except.error.inj (h.symm.trans hslot)
        · cases h.symm.trans hslot
      · have hslot : addSlot b (lower b) record n extent (.method decl) s =
            .ok (extent, s.pushMember n function) := by
          rw [addSlot]
          refine Lower.bind_eq_ok.2 ⟨s, s, rfl, ?_⟩
          rw [hsaved]
          rfl
        rcases h with h | ⟨extent', s', h, hrest⟩
        · cases h.symm.trans hslot
        · cases h.symm.trans hslot
          exact later changes_pushMember hrest
    | data decl field =>
      rw [addSlot, Lower.bind_eq_error] at h
      rcases h with (h | ⟨type, s', -, h⟩) | ⟨extent', s', h, hrest⟩
      · exact Or.inr ⟨decl, field, List.mem_cons_self, s, .refl, h⟩
      · exact absurd h Lower.modifyGet_ne_error
      · obtain ⟨type, s'', htype, hmember⟩ := Lower.bind_eq_ok.1 h
        rw [Lower.modifyGet_eq_ok] at hmember
        have hsnd : (addMember b s'' n extent decl field type).2 = s' := by rw [hmember]
        subst hsnd
        refine later ((meanwhile_of_lower htype).trans ?_) hrest
        exact changes_addMember (Nat.zero_le _) (Nat.zero_le _)

/-- Filling a composite fails for a method, at a field, or because the struct and its record do not
fit together. -/
lemma failsAt_of_populate {struct : Struct} {record : Decl.Record}
    (h : populate b (lower b) record struct n s = .error fault) :
    (∃ m, .method m ∈ (pair record struct).slots ∧ s.function? m.id = none ∧
      fault = .missingFunction record.name m.name) ∨
    (∃ decl field, .data decl field ∈ (pair record struct).slots ∧
      FailsAt b s field.type fault) ∨
    (pair record struct).fault = some fault := by
  rw [populate, Lower.bind_eq_error] at h
  rcases h with h | ⟨extent, s', -, h⟩
  · rcases failsAt_of_foldlM h with method | field
    · exact Or.inl method
    · exact Or.inr (Or.inl field)
  · rcases hfault : (pair record struct).fault with _ | fault'
    · rw [hfault] at h
      exact absurd h Lower.modify_ne_error
    · rw [hfault, Lower.throw_eq_error] at h
      exact Or.inr (Or.inr (congrArg some h))

/-- Composing a struct fails for the kind of its record, for what is listed under the type, or while
the composite is filled. -/
lemma compositeWith_eq_error {struct : Struct} {record : Decl.Record}
    (h : compositeWith b f a struct record s = .error fault) :
    compositeTag record = .error fault ∨ ∃ tag,
      (openComposite s a struct record tag).2.nodes.composite?
          (openComposite s a struct record tag).1 = none ∧
        fault = .compositeExpected struct.name ∨
      populate b f record struct (openComposite s a struct record tag).1
        (openComposite s a struct record tag).2 = .error fault := by
  rw [compositeWith, Lower.bind_eq_error] at h
  rcases h with h | ⟨tag, s₁, htag, h⟩
  · exact Or.inl (Lower.lift_eq_error.1 h)
  obtain ⟨-, rfl⟩ := Lower.lift_eq_ok.1 htag
  rcases Lower.bind_eq_error.1 h with h | ⟨file, s₁, hfile, h⟩
  · exact absurd h Lower.modifyGet_ne_error
  rcases Lower.bind_eq_error.1 h with h | ⟨m, s₂, hcomposite, h⟩
  · exact absurd h Lower.modifyGet_ne_error
  rw [Lower.modifyGet_eq_ok] at hfile hcomposite
  have hopen : openComposite s a struct record tag = (m, s₂) := by
    rw [openComposite, hfile, ← hcomposite]
  refine Or.inr ⟨tag, ?_⟩
  rw [hopen]
  rcases Lower.bind_eq_error.1 h with h | ⟨_, _, hget, h⟩
  · exact absurd h Lower.get_ne_error
  obtain ⟨rfl, rfl⟩ := Lower.get_eq_ok.1 hget
  rcases hc : s₂.nodes.composite? m with _ | c
  · rw [hc, Lower.throw_eq_error] at h
    exact Or.inl ⟨rfl, h.symm⟩
  rw [hc] at h
  rcases empty : c.members.isEmpty with _ | _
  · simp only [empty, Bool.false_eq_true, ↓reduceIte] at h
    exact absurd h Lower.pure_ne_error
  · simp only [empty, ↓reduceIte, Lower.bind_eq_error] at h
    rcases h with h | ⟨_, _, -, h⟩
    · exact Or.inr h
    · exact absurd h Lower.pure_ne_error

/-- Composing a struct fails for a fault of it, or at a field that is described. -/
lemma failsAt_of_compositeWith {struct : Struct} {record : Decl.Record}
    (made : struct.record = some record) (enum : record.isEnum = false)
    (ha : s.debugType? a = none) (h : compositeWith b (lower b) a struct record s = .error fault) :
    s.Faulty (.struct struct) fault ∨
      ∃ u ∈ s.types.parts (.struct struct), FailsAt b s u fault := by
  rcases compositeWith_eq_error h with h | ⟨tag, ⟨hc, -⟩ | h⟩
  · -- Only an enumeration has no tag.
    rw [compositeTag] at h
    cases hkeyword : record.keyword <;> simp_all [Decl.Record.isEnum]
  · rw [Debug.NodeTable.composite?_eq_some.2 (entry?_openComposite ha)] at hc
    cases hc
  have changes : Meanwhile b s (openComposite s a struct record tag).2 :=
    changes_openComposite trivial
  rcases failsAt_of_populate h with ⟨method, hmethod, unsaved, rfl⟩ | ⟨decl, field, hslot, hfails⟩ |
    hfault
  · rw [function?_of_changes changes] at unsaved
    exact Or.inl (.method made enum (mem_members_of_method hmethod) unsaved)
  · refine Or.inr ⟨field.type, ?_, hfails.after changes⟩
    rw [TypeTable.parts_struct made (by simp [Shape.isDescribed, made, enum])]
    exact List.mem_filterMap.2 ⟨_, hslot, rfl⟩
  · exact Or.inl (.misfit made enum (misfit_of_fault hfault))

/-- Describing a type fails for a fault of its struct, or at a part. -/
lemma failsAt_of_describe (ha : s.debugType? a = none)
    (h : describe b (lower b) a x s = .error fault) :
    s.Faulty x fault ∨ ∃ u ∈ s.types.parts x, FailsAt b s u fault := by
  cases x with
  | vector u count =>
    rcases Lower.bind_eq_error.1 h with h | ⟨_, _, -, h⟩
    · exact Or.inr ⟨u, List.mem_cons_self, s, .refl, h⟩
    · exact absurd h Lower.modifyGet_ne_error
  | array u count stride =>
    rcases Lower.bind_eq_error.1 h with h | ⟨_, _, -, h⟩
    · exact Or.inr ⟨u, List.mem_cons_self, s, .refl, h⟩
    · exact absurd h Lower.modifyGet_ne_error
  | function signature =>
    rw [describe, functionType, Lower.bind_eq_error] at h
    rcases h with h | ⟨_, _, hget, h⟩
    · exact absurd h Lower.get_ne_error
    obtain ⟨rfl, rfl⟩ := Lower.get_eq_ok.1 hget
    rcases hvoid : s.types.has signature.result Shape.isVoid with _ | _
    · rw [if_neg (by simp [hvoid])] at h
      have hparts : s.types.parts (.function signature) = signature.result :: signature.params := by
        rw [TypeTable.parts, if_neg (by simp [hvoid])]
      rw [hparts]
      rcases Lower.bind_eq_error.1 h with h | ⟨_, s₁, hresult, h⟩
      · rw [Lower.map_eq_error] at h
        exact Or.inr ⟨_, List.mem_cons_self, s, .refl, h⟩
      obtain ⟨result, hresult, -⟩ := Lower.map_eq_ok.1 hresult
      rcases Lower.bind_eq_error.1 h with h | ⟨_, _, -, h⟩
      · obtain ⟨u, hu, hfails⟩ := failsAt_of_mapM h
        exact Or.inr ⟨u, List.mem_cons_of_mem _ hu, hfails.after (meanwhile_of_lower hresult)⟩
      · exact absurd h Lower.modifyGet_ne_error
    · rw [if_pos hvoid] at h
      have hparts : s.types.parts (.function signature) = signature.params := by
        rw [TypeTable.parts, if_pos hvoid]
      rw [hparts]
      rcases Lower.bind_eq_error.1 h with h | ⟨_, s₁, hresult, h⟩
      · exact absurd h Lower.pure_ne_error
      obtain ⟨-, rfl⟩ := Lower.pure_eq_ok.1 hresult
      rcases Lower.bind_eq_error.1 h with h | ⟨_, _, -, h⟩
      · exact Or.inr (failsAt_of_mapM h)
      · exact absurd h Lower.modifyGet_ne_error
  | struct struct =>
    rcases made : struct.record with _ | record
    · rw [describe, made] at h
      exact absurd h Lower.modifyGet_ne_error
    rcases enum : record.isEnum with _ | _
    · simp only [describe, made, enum, Bool.false_eq_true, ↓reduceIte] at h
      exact failsAt_of_compositeWith made enum ha h
    · simp only [describe, made, enum, ↓reduceIte, enumType] at h
      exact absurd h Lower.modifyGet_ne_error
  | _ => exact absurd h Lower.modifyGet_ne_error

/-- Lowering a known type fails for a fault of its struct, or at a part. -/
lemma failsAt_of_lower (wf : s.types.WellFormed) (hx : s.types.shape? a = some x)
    (h : lower b a s = .error fault) :
    s.Faulty x fault ∨ ∃ u ∈ s.types.parts x, FailsAt b s u fault := by
  rw [lower_eq wf, lowerWith, Lower.bind_eq_error] at h
  rcases h with h | ⟨_, _, hget, h⟩
  · exact absurd h Lower.get_ne_error
  obtain ⟨rfl, rfl⟩ := Lower.get_eq_ok.1 hget
  rcases ha : s.debugType? a with _ | m
  swap
  · rw [ha] at h
    exact absurd h Lower.pure_ne_error
  rw [ha, hx] at h
  rcases pointer : x.isPointer with _ | _
  · -- All shapes but pointers share one branch of the match.
    have h : (describe b (lower b) a x >>= fun n => do
        modify (·.stamp n b)
        return n : Lower NodeId) s = .error fault := by
      cases x <;> first | exact h | cases pointer
    rcases Lower.bind_eq_error.1 h with h | ⟨_, _, -, h⟩
    · exact failsAt_of_describe ha h
    rcases Lower.bind_eq_error.1 h with h | ⟨_, _, -, h⟩
    · exact absurd h Lower.modify_ne_error
    · exact absurd h Lower.pure_ne_error
  · cases x <;> simp only [Shape.isPointer, Bool.false_eq_true] at pointer
    exact Or.inr ⟨_, List.mem_cons_self, s, .refl, h⟩

end Lowering

/-! ### Faults and failures -/

/-- A lowering that fails has come to a struct with that fault, by induction on the type: it may be a
part of it that is lowered later. -/
theorem exists_faulty_of_lower (interned : s.types.Interned) (known : a.index < s.types.size)
    (h : lower b a s = .error fault) :
    ∃ u x, s.types.Reaches a u ∧ s.types.shape? u = some x ∧ s.Faulty x fault := by
  induction a using TypeId.strongInduction generalizing s with
  | _ a ih =>
  obtain ⟨x, hx⟩ := TypeTable.exists_shape? known
  have wf := interned.wellFormed
  rcases failsAt_of_lower wf hx h with hfaulty | ⟨u, hu, s', changes, hfails⟩
  · exact ⟨a, x, .refl, hx, hfaulty⟩
  have entails := TypeTable.entails_of_mem_parts hu
  have hlt := wf.operand_lt hx entails.mem_operands
  have shapes := changes.grows.shapes_le
  obtain ⟨v, y, hreaches, hy, hfaulty⟩ := ih u (wf a x hx u entails.mem_operands)
    (changes.grows.interned interned) (Nat.lt_of_lt_of_le hlt shapes.length_le) hfails
  -- What is reached, and what is wrong with it, was the same before.
  replace hreaches := (wf.reaches_iff shapes hlt).1 hreaches
  rw [TypeTable.shape?_eq_of_lt shapes (wf.lt_of_reaches hlt hreaches)] at hy
  refine ⟨v, y, .step hx entails hreaches, hy, hfaulty.mono fun hid => ?_⟩
  rwa [← function?_of_changes changes]

/-- A lowering that succeeds has come to no struct with a fault. -/
theorem faultless_of_lower (regular : s.Regular) (saturated : s.Saturated)
    (known : a.index < s.types.size) (h : lower b a s = .ok (n, t)) {u : TypeId}
    (hreaches : s.types.Reaches a u) (hx : s.types.shape? u = some x) : ¬ s.Faulty x fault := by
  have changes := lower_changes h
  have shapes := changes.grows.shapes_le
  have saturated' := saturated.of_lower regular known h
  have hreaches' := (regular.sound.types.wellFormed.reaches_iff shapes known).2 hreaches
  have resolved := saturated'.of_reaches hreaches' ⟨n, regular.resolve?_of_lower h⟩
  intro hfault
  refine saturated'.faultless (TypeTable.shape?_mono shapes hx) resolved (hfault.mono fun hid => ?_)
  rwa [function?_of_changes changes]

namespace Store

lemma run_lower_eq_error (known : a.index < s.types.size) :
    s.run (.lower b a) = .error fault ↔ ShaderTypes.lower b a s = .error fault := by
  have hknows : s.knows (.lower b a) = true := by
    simp [knows, Operation.types, Operation.subjects, Operation.nodes, Operation.targets,
      Operation.entry?, Operation.constant?, known]
  rw [Store.run, if_pos hknows, perform]
  rcases ShaderTypes.lower b a s with fault' | ⟨n, t⟩ <;>
    simp [bind, Except.bind, pure, Except.pure]

/-- In a session that leaves the debug types to lowering, the lowering of a type of the table is its
recursion without a guard, now and later, and it fails exactly when it comes to a struct with a
fault.  The fault that it fails with is the fault of such a struct. -/
theorem LeftToLowering.lower_fails_iff (hs : s.LeftToLowering) (known : a.index < s.types.size) :
    (∀ r u, s.types.Grows r.types →
      ShaderTypes.lower b u r = Lowering.lowerWith b (ShaderTypes.lower b) u r) ∧
    ((∃ fault, s.run (.lower b a) = .error fault) ↔
      ∃ u x fault, s.types.Reaches a u ∧ s.types.shape? u = some x ∧ s.Faulty x fault) ∧
    ∀ fault, s.run (.lower b a) = .error fault →
      ∃ u x, s.types.Reaches a u ∧ s.types.shape? u = some x ∧ s.Faulty x fault := by
  have interned := hs.reachable.sound.types
  have fails (fault : Fault) (h : s.run (.lower b a) = .error fault) :
      ∃ u x, s.types.Reaches a u ∧ s.types.shape? u = some x ∧ s.Faulty x fault :=
    exists_faulty_of_lower interned known ((run_lower_eq_error known).1 h)
  refine ⟨fun r u h => lower_eq (h.interned interned).wellFormed, ⟨?_, ?_⟩, fails⟩
  · rintro ⟨fault, h⟩
    obtain ⟨u, x, hreaches⟩ := fails fault h
    exact ⟨u, x, fault, hreaches⟩
  · rintro ⟨u, x, fault, hreaches, hx, hfaulty⟩
    rcases h : ShaderTypes.lower b a s with fault' | ⟨n, t⟩
    · exact ⟨fault', (run_lower_eq_error known).2 h⟩
    · exact absurd hfaulty (faultless_of_lower hs.regular hs.saturated known h hreaches hx)

/-- A struct made from a record with a method. -/
def unsavedStruct : Struct where
  name := "S"
  fields := [{ type := ⟨0⟩ }]
  record := some
    { id := ⟨0⟩, name := "S", keyword := .classKeyword, location := ⟨"a.hlsl", 1, 1⟩
      members := [.field { id := ⟨0⟩, name := "x", location := ⟨"a.hlsl", 2, 3⟩ },
        .method { id := ⟨0⟩, name := "f", location := ⟨"a.hlsl", 3, 3⟩ }] }

/-- A function type takes an array of pointers to the struct, and no function is saved for the
method. -/
def unsavedSession : List Operation :=
  [.type (.integer 32 false), .type (.struct unsavedStruct), .type (.pointer ⟨1⟩ .uniform),
    .type (.array ⟨2⟩ 4 none), .type .void, .type (.function { result := ⟨4⟩, params := [⟨3⟩] })]

/-- The function type cannot be lowered, because it comes to the struct.  The number can be. -/
theorem lower_fails_iff_of_unsaved : ∃ s : Store, s.LeftToLowering ∧
    s.run (.lower ⟨0⟩ ⟨5⟩) = .error (.missingFunction "S" "f") ∧
    (∃ u x, s.types.Reaches ⟨5⟩ u ∧ s.types.shape? u = some x ∧
      s.Faulty x (.missingFunction "S" "f")) ∧
    ¬ ∃ u x fault, s.types.Reaches ⟨0⟩ u ∧ s.types.shape? u = some x ∧ s.Faulty x fault := by
  obtain ⟨replies, s, hsession, hsize, hfails, hruns⟩ := exists_of_runAll {} unsavedSession
    (fun s => s.types.size = 6 ∧ s.run (.lower ⟨0⟩ ⟨5⟩) = .error (.missingFunction "S" "f") ∧
      (s.run (.lower ⟨0⟩ ⟨0⟩)).toOption.isSome = true) (by decide +kernel)
  have built : s.LeftToLowering := ⟨{}, unsavedSession, replies, by decide, hsession⟩
  refine ⟨s, built, hfails, ?_, fun faulty => ?_⟩
  · exact (built.lower_fails_iff (a := ⟨5⟩) (by simp [hsize])).2.2 _ hfails
  · obtain ⟨fault, h⟩ := (built.lower_fails_iff (b := ⟨0⟩) (a := ⟨0⟩) (by simp [hsize])).2.1.2 faulty
    simp [h, Except.toOption] at hruns

end Store

end ShaderTypes
