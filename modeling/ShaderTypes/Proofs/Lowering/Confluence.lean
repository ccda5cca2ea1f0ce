import ShaderTypes.Proofs.Lowering.Failure
import ShaderTypes.Proofs.Lowering.Renaming

/-!
# The order of lowerings does not matter

Whether a type can be lowered is settled by what it reaches, so a list of types can be lowered in one
order when it can be lowered in another, and when each of its types can be lowered alone.  What is
listed in the end is what was listed before and what the types reach.  So the stores after two orders
of a list are the same up to renaming.
-/

namespace ShaderTypes

/-- Known types reach the same keys in every longer table. -/
lemma TypeTable.WellFormed.reachesKey_iff {t t' : TypeTable} {a : TypeId} {key : Option TypeId}
    (wf : t.WellFormed) (h : t.shapes <+: t'.shapes) (known : a.index < t.size) :
    t'.ReachesKey a key ↔ t.ReachesKey a key := by
  refine ⟨fun hkey => ?_, fun hkey => hkey.mono wf h known⟩
  rcases key with _ | v
  · obtain ⟨v, x, hv, hx, described, pointer⟩ := hkey
    have hv' := (wf.reaches_iff h known).1 hv
    rw [shape?_eq_of_lt h (wf.lt_of_reaches known hv')] at hx
    exact ⟨v, x, hv', hx, described, pointer⟩
  · exact (wf.reaches_iff h known).1 hkey

namespace Store

variable {s r t t' : Store} {a : TypeId} {n : NodeId} {b : BuilderId} {key : Option TypeId}
  {as as' : List TypeId} {replies replies' : List Reply} {reply : Reply}

/-! ### Lowering a list of types -/

lemma lower_of_run (h : s.run (.lower b a) = .ok (reply, t)) :
    a.index < s.types.size ∧ ∃ n, ShaderTypes.lower b a s = .ok (n, t) := by
  obtain ⟨htypes, -, h⟩ := run_eq_ok h
  obtain ⟨n, -, hlower⟩ := perform_lower_eq_ok h
  exact ⟨htypes a (by simp [Operation.types, Operation.subjects]), n, hlower⟩

lemma Unfolds.refl (hs : s.LeftToLowering) : Unfolds b s s where
  before := hs
  after := hs
  changes := .refl
  depicted := .of_debugTypes_eq rfl
  accounted := .of_eq rfl rfl

/-- A store unfolds on when a type is lowered that was there in the beginning. -/
lemma Unfolds.lower (h : Unfolds b s r) (known : a.index < s.types.size)
    (hlower : ShaderTypes.lower b a r = .ok (n, t)) : Unfolds b s t where
  before := h.before
  after :=
    h.after.run rfl
      (run_lower_of_lt (Nat.lt_of_lt_of_le known h.extends.types.shapes_le.length_le) hlower)
  changes := by
    refine h.changes.trans ((lower_changes hlower).mono (fun r v hv => ⟨?_, hv.2⟩) h.extends.size_le)
    have := hv.1
    omega
  depicted :=
    h.depicted.trans_entries (listsDepicted_lower hlower h.after.regular) h.after.reachable.sound
      (extends_lower hlower).sustains (fun _ => function?_of_changes (lower_changes hlower))
      (extends_lower hlower).entries
  accounted :=
    h.accounted.trans (accounts_lower hlower) (sustains_of_changes h.changes) (lower_changes hlower)

/-- Lowering a list of types unfolds the store. -/
lemma Unfolds.runAll (h : Unfolds b s r) (known : ∀ a ∈ as, a.index < s.types.size)
    (hrun : r.runAll (as.map (.lower b)) = .ok (replies, t)) : Unfolds b s t := by
  induction as generalizing r replies with
  | nil =>
    cases hrun
    exact h
  | cons a as ih =>
    obtain ⟨reply, q, replies', hop, hops, -⟩ := runAll_cons_eq_ok hrun
    obtain ⟨-, n, hlower⟩ := lower_of_run hop
    obtain ⟨ha, has⟩ := List.forall_mem_cons.1 known
    exact ih (h.lower ha hlower) has hops

/-! ### What can be lowered -/

/-- A type can be lowered exactly when no struct with a fault is reached from it. -/
lemma LeftToLowering.exists_lower_iff (hs : s.LeftToLowering) (known : a.index < s.types.size) :
    (∃ n t, ShaderTypes.lower b a s = .ok (n, t)) ↔
      ∀ u x fault, s.types.Reaches a u → s.types.shape? u = some x → ¬ s.Faulty x fault := by
  constructor
  · rintro ⟨n, t, hlower⟩ u x fault hreaches hx
    exact faultless_of_lower hs.regular hs.saturated known hlower hreaches hx
  · intro faultless
    rcases hlower : ShaderTypes.lower b a s with fault | ⟨n, t⟩
    · obtain ⟨u, x, hreaches, hx, faulty⟩ :=
        exists_faulty_of_lower hs.reachable.sound.types known hlower
      exact absurd faulty (faultless u x fault hreaches hx)
    · exact ⟨n, t, rfl⟩

/-- What can be lowered in the beginning can be lowered later, and what can be lowered later could
be in the beginning. -/
lemma Unfolds.exists_lower_iff (h : Unfolds b s r) (known : a.index < s.types.size) :
    (∃ n t, ShaderTypes.lower b a r = .ok (n, t)) ↔ ∃ n t, ShaderTypes.lower b a s = .ok (n, t) := by
  have shapes := h.extends.types.shapes_le
  have wf := h.before.reachable.sound.types.wellFormed
  have function (id : Decl.MethodId) : r.function? id = s.function? id :=
    function?_of_changes h.changes
  rw [h.before.exists_lower_iff known,
    h.after.exists_lower_iff (Nat.lt_of_lt_of_le known shapes.length_le)]
  constructor
  · intro faultless u x fault hreaches hx faulty
    refine faultless u x fault ((wf.reaches_iff shapes known).2 hreaches)
      (TypeTable.shape?_mono shapes hx) (faulty.mono fun {id} hid => ?_)
    rwa [function id]
  · intro faultless u x fault hreaches hx faulty
    have hreaches' := (wf.reaches_iff shapes known).1 hreaches
    rw [TypeTable.shape?_eq_of_lt shapes (wf.lt_of_reaches known hreaches')] at hx
    refine faultless u x fault hreaches' hx (faulty.mono fun {id} hid => ?_)
    rwa [← function id]

/-- A list of types can be lowered exactly when each of them can be lowered alone. -/
lemma Unfolds.exists_runAll_iff (h : Unfolds b s r) (known : ∀ a ∈ as, a.index < s.types.size) :
    (∃ replies t, r.runAll (as.map (.lower b)) = .ok (replies, t)) ↔
      ∀ a ∈ as, ∃ n t, ShaderTypes.lower b a s = .ok (n, t) := by
  induction as generalizing r with
  | nil => simp [Store.runAll]
  | cons a as ih =>
    obtain ⟨ha, has⟩ := List.forall_mem_cons.1 known
    rw [List.forall_mem_cons, ← h.exists_lower_iff ha]
    constructor
    · rintro ⟨replies, t, hrun⟩
      obtain ⟨reply, q, replies', hop, hops, -⟩ := runAll_cons_eq_ok hrun
      obtain ⟨-, n, hlower⟩ := lower_of_run hop
      exact ⟨⟨n, q, hlower⟩, (ih (h.lower ha hlower) has).1 ⟨replies', t, hops⟩⟩
    · rintro ⟨⟨n, q, hlower⟩, hrest⟩
      obtain ⟨replies, t, hops⟩ := (ih (h.lower ha hlower) has).2 hrest
      have hop := run_lower_of_lt
        (Nat.lt_of_lt_of_le ha h.extends.types.shapes_le.length_le) hlower
      exact ⟨.node n :: replies, t, by
        simp [Store.runAll, hop, hops, bind, Except.bind, pure, Except.pure]⟩

/-! ### What is listed in the end -/

/-- A key is listed in a saturated store if it is reached from a type with a debug type. -/
lemma Saturated.exists_of_reachesKey (hs : s.Saturated) (hkey : s.types.ReachesKey a key)
    (ha : ∃ d, s.resolve? a = some d)
    (described : ∀ v, key = some v → ∃ x, s.types.shape? v = some x ∧ x.isDescribed = true) :
    ∃ n, s.debugTypes.get? key = some n := by
  cases key with
  | none =>
    obtain ⟨v, x, hreaches, hx, undescribed, pointer⟩ := hkey
    obtain ⟨d, hd⟩ := hs.of_reaches hreaches ha
    rw [resolve?_of_shape? hx pointer, undescribed] at hd
    exact ⟨d, hd⟩
  | some v =>
    obtain ⟨x, hx, hdescribed⟩ := described v rfl
    have pointer : x.isPointer = false := by
      cases x <;> first | rfl | cases hdescribed
    obtain ⟨d, hd⟩ := hs.of_reaches hkey ha
    rw [resolve?_of_shape? hx pointer, hdescribed] at hd
    exact ⟨d, hd⟩

/-- The keys that are listed in the end do not depend on the order of the types, nor on how often
they are lowered. -/
lemma exists_key_of_runAll (hs : s.LeftToLowering) (known : ∀ a ∈ as, a.index < s.types.size)
    (subset : as ⊆ as') (known' : ∀ a ∈ as', a.index < s.types.size)
    (h : s.runAll (as.map (.lower b)) = .ok (replies, t))
    (h' : s.runAll (as'.map (.lower b)) = .ok (replies', t'))
    (hn : t.debugTypes.get? key = some n) : ∃ n', t'.debugTypes.get? key = some n' := by
  have left := (Unfolds.refl hs).runAll known h
  have right := (Unfolds.refl hs).runAll known' h'
  rcases hkey : s.debugTypes.get? key with _ | m
  swap
  · exact ⟨m, right.extends.get?_debugTypes hkey⟩
  have sound := hs.reachable.sound
  have wf := sound.types.wellFormed
  have roots {as : List TypeId} {t : Store} :
      (as.map (Operation.lower b)).flatMap (·.roots t) = as := by
    simp [List.flatMap_map, Operation.roots]
  have leaves {as : List TypeId} :
      ∀ op ∈ as.map (Operation.lower b), op.leavesDebugTypes = true := by
    simp [Operation.leavesDebugTypes]
  have course := course_of_runAll sound leaves h
  have course' := course_of_runAll sound leaves h'
  rw [roots] at course course'
  obtain ⟨a, ha, hreaches⟩ := course.exists_reachesKey hs.regular hn hkey
  refine right.after.saturated.exists_of_reachesKey (a := a) ?_
    (course'.exists_resolve? hs.regular a (subset ha)).2 ?_
  · rw [wf.reachesKey_iff left.extends.types.shapes_le (known a ha)] at hreaches
    rwa [wf.reachesKey_iff right.extends.types.shapes_le (known a ha)]
  · rintro v rfl
    obtain ⟨x, hx, described⟩ := left.after.regular.described hn
    obtain ⟨-, y, e, hy, -⟩ := left.depicts hkey hn
    obtain rfl := Option.some.inj ((left.extends.shape? hy).symm.trans hx)
    exact ⟨y, right.extends.shape? hy, described⟩

/-! ### Confluence -/

/-- In a session that leaves the debug types to lowering, types of the table can be lowered one after
the other exactly when each of them can be lowered alone, and the stores after lowering them in two
orders are the same up to renaming the nodes and types that were made. -/
theorem LeftToLowering.runAll_perm (hs : s.LeftToLowering)
    (known : ∀ a ∈ as, a.index < s.types.size) (perm : as.Perm as') :
    ((∃ replies t, s.runAll (as.map (.lower b)) = .ok (replies, t)) ↔
      ∀ a ∈ as, ∃ reply t, s.run (.lower b a) = .ok (reply, t)) ∧
    ∀ replies t, s.runAll (as.map (.lower b)) = .ok (replies, t) →
      ∃ replies' t' τ ρ, s.runAll (as'.map (.lower b)) = .ok (replies', t') ∧
        Renamed s t t' τ ρ := by
  have known' : ∀ a ∈ as', a.index < s.types.size := fun a ha => known a (perm.mem_iff.2 ha)
  have start : Unfolds b s s := .refl hs
  constructor
  · rw [start.exists_runAll_iff known]
    refine forall₂_congr fun a ha => ⟨?_, ?_⟩
    · rintro ⟨n, t, hlower⟩
      exact ⟨_, t, run_lower_of_lt (known a ha) hlower⟩
    · rintro ⟨reply, t, hrun⟩
      obtain ⟨-, n, hlower⟩ := lower_of_run hrun
      exact ⟨n, t, hlower⟩
  · intro replies t h
    have lowerable := (start.exists_runAll_iff known).1 ⟨replies, t, h⟩
    obtain ⟨replies', t', h'⟩ := (start.exists_runAll_iff known').2 fun a ha =>
      lowerable a (perm.mem_iff.2 ha)
    have keys (key : Option TypeId) :
        (∃ n, t.debugTypes.get? key = some n) ↔ ∃ n, t'.debugTypes.get? key = some n :=
      ⟨fun ⟨_, hn⟩ => exists_key_of_runAll hs known perm.subset known' h h' hn,
        fun ⟨_, hn⟩ => exists_key_of_runAll hs known' perm.symm.subset known h' h hn⟩
    obtain ⟨τ, ρ, renamed⟩ := (start.runAll known h).exists_renamed (start.runAll known' h') keys
    exact ⟨replies', t', τ, ρ, h', renamed⟩

/-- A struct with one static field, a sampler of which the initializer is a number. -/
def initializedStruct : Struct where
  name := "S"
  fields := [{ type := ⟨1⟩ }]
  record := some
    { id := ⟨0⟩, name := "S", keyword := .structKeyword, location := ⟨"a.hlsl", 1, 1⟩
      members := [.field
        { id := ⟨0⟩, name := "x", location := ⟨"b.hlsl", 2, 3⟩, value := some (.int 7) }] }

/-- The struct is made, and nothing is lowered yet. -/
def initializedSession : List Operation :=
  [.type .bool, .type .sampler, .type (.struct initializedStruct)]

/-- A truth value is lowered after the struct, and before it.  The keys are listed in another order
then, and the types of the constants are made in another one, but the stores are the same up to
renaming. -/
theorem runAll_perm_of_initialized : ∃ (s t t' : Store) (replies replies' : List Reply)
    (τ : TypeId → TypeId) (ρ : NodeId → NodeId), s.LeftToLowering ∧
    (∀ a ∈ [(⟨2⟩ : TypeId), ⟨0⟩], a.index < s.types.size) ∧
    s.runAll ([⟨2⟩, ⟨0⟩].map (.lower ⟨0⟩)) = .ok (replies, t) ∧
    s.runAll ([⟨0⟩, ⟨2⟩].map (.lower ⟨0⟩)) = .ok (replies', t') ∧
    t.debugTypes.keys = [some ⟨2⟩, none, some ⟨0⟩] ∧
    t'.debugTypes.keys = [some ⟨0⟩, some ⟨2⟩, none] ∧
    t.types.shape? ⟨4⟩ = some (.integer 32 true) ∧ t'.types.shape? ⟨3⟩ = some (.integer 32 false) ∧
    Renamed s t t' τ ρ := by
  obtain ⟨replies, s, hsession, hsize, hone, hother⟩ := exists_of_runAll {} initializedSession
    (fun s => s.types.size = 3 ∧
      ((s.runAll ([⟨2⟩, ⟨0⟩].map (.lower ⟨0⟩))).toOption.any fun p =>
        p.2.debugTypes.keys = [some ⟨2⟩, none, some ⟨0⟩] &&
        p.2.types.shape? ⟨4⟩ = some (.integer 32 true)) = true ∧
      ((s.runAll ([⟨0⟩, ⟨2⟩].map (.lower ⟨0⟩))).toOption.any fun p =>
        p.2.debugTypes.keys = [some ⟨0⟩, some ⟨2⟩, none] &&
        p.2.types.shape? ⟨3⟩ = some (.integer 32 false)) = true) (by decide +kernel)
  have built : s.LeftToLowering := ⟨{}, initializedSession, replies, by decide, hsession⟩
  have known : ∀ a ∈ [(⟨2⟩ : TypeId), ⟨0⟩], a.index < s.types.size := by simp [hsize]
  simp only [Option.any_eq_true, Bool.and_eq_true, decide_eq_true_eq, Prod.exists] at hone hother
  obtain ⟨replies₁, t, h₁, keys, shape⟩ := hone
  obtain ⟨replies₂, t', h₂, keys', shape'⟩ := hother
  have h₁ := eq_ok_of_toOption h₁
  have h₂ := eq_ok_of_toOption h₂
  obtain ⟨replies₃, t'', τ, ρ, h₃, renamed⟩ :=
    (built.runAll_perm known (List.Perm.swap (⟨0⟩ : TypeId) ⟨2⟩ [])).2 replies₁ t h₁
  cases h₂.symm.trans h₃
  exact ⟨s, t, t', replies₁, replies₂, τ, ρ, built, known, h₁, h₂, keys, keys', shape, shape',
    renamed⟩

end Store

end ShaderTypes
