import ShaderTypes.Proofs.Lowering.Description
import ShaderTypes.Proofs.Store.Advance

/-!
# Stability of debug types

Debug types are remembered by the identity of types, while types are compared by what they look
like.  The two fit together all the same: types that look alike without being the same are pointers,
which are described as what they point to, and hybrid types, which share the placeholder.  So in a
session that leaves the debug types to lowering, types that look alike get one debug type, whenever
and through whatever pointers they are lowered.
-/

namespace ShaderTypes

/-- A type leads to another one through pointers. -/
inductive TypeTable.Leads (t : TypeTable) : TypeId → TypeId → Prop
  | refl {a : TypeId} : Leads t a a
  | pointer {p q a : TypeId} {c : Storage} (hp : t.shape? p = some (.pointer q c))
      (tail : Leads t q a) : Leads t p a

namespace Store

variable {s r t : Store} {a u p q : TypeId} {n : NodeId} {b b' : BuilderId} {x : Shape}

/-! ### Resolution of types that look alike -/

/-- A type is resolved to the debug type of what it leads to. -/
lemma resolve?_eq_of_leads (wf : s.types.WellFormed) (h : s.types.Leads p a) :
    s.resolve? p = s.resolve? a := by
  induction h with
  | refl => rfl
  | pointer hp _ ih =>
    rw [resolve?_of_pointer hp (wf _ _ hp _ List.mem_cons_self)]
    exact ih

lemma resolve?_of_isHybrid (hx : s.types.shape? a = some x) (hybrid : x.isHybrid = true) :
    s.resolve? a = s.debugTypes.get? none := by
  rw [resolve?_of_shape? hx (by cases x <;> first | rfl | cases hybrid)]
  cases x <;> first | rfl | cases hybrid

/-- Types that look alike are resolved to one debug type, by induction on the position: what two
pointers point to stands before them. -/
lemma resolve?_eq_of_alike (interned : s.types.Interned) (checked : s.types.Checked)
    (h : s.types.alike a u = true) : s.resolve? a = s.resolve? u := by
  induction a using TypeId.strongInduction generalizing u with
  | _ a ih =>
  have wf := interned.wellFormed
  rcases interned.alike_cases checked h with
    rfl | ⟨p, q, c, ha, hu, hpq⟩ | ⟨x, y, ha, hu, hybrid, hybrid'⟩
  · rfl
  · have hp := wf a _ ha p List.mem_cons_self
    have hq := wf u _ hu q List.mem_cons_self
    rw [resolve?_of_pointer ha hp, resolve?_of_pointer hu hq]
    exact ih p hp hpq
  · rw [resolve?_of_isHybrid ha hybrid, resolve?_of_isHybrid hu hybrid']

/-! ### What holds in a session -/

namespace LeftToLowering

/-- All types obey the rules. -/
lemma checked (h : s.LeftToLowering) : s.types.Checked := by
  refine h.induction (P := fun s => s.types.Checked) (fun _ => TypeTable.checked_empty) ?_
  intro s t advance hs
  cases advance with
  | internType _ checked => exact hs.intern checked
  | keyedNode => rwa [types_keyedNode]
  | _ => exact hs

/-- No type is listed that cannot be described. -/
lemma described (h : s.LeftToLowering) : ∀ {a n}, s.debugType? a = some n →
    ∃ x, s.types.shape? a = some x ∧ x.isDescribed = true := by
  refine h.induction (P := fun s => ∀ {a n}, s.debugType? a = some n →
    ∃ x, s.types.shape? a = some x ∧ x.isDescribed = true) ?_ ?_
  · intro options a n hn
    cases hn
  · intro s t advance hs a n hn
    have hgrows := advance.grows.shapes_le
    cases advance with
    | @keyedNode key e described _ _ =>
      by_cases hkey : some a = key
      · obtain ⟨x, hx, hdescribed⟩ := described a hkey.symm
        exact ⟨x, TypeTable.shape?_mono hgrows hx, hdescribed⟩
      · obtain ⟨x, hx, hdescribed⟩ :=
          hs ((get?_debugTypes_keyedNode_of_ne hkey).symm.trans hn)
        exact ⟨x, TypeTable.shape?_mono hgrows hx, hdescribed⟩
    | _ =>
      obtain ⟨x, hx, hdescribed⟩ := hs hn
      exact ⟨x, TypeTable.shape?_mono hgrows hx, hdescribed⟩

lemma regular (h : s.LeftToLowering) : s.Regular :=
  ⟨h.reachable.sound, h.described⟩

lemma found?_eq_resolve? (h : s.LeftToLowering) (a : TypeId) : s.found? a = s.resolve? a :=
  h.regular.found?_eq_resolve? a

end LeftToLowering

/-! ### Stability -/

/-- A type that is resolved is one of the table. -/
lemma lt_of_resolve? (h : s.resolve? a = some n) : a.index < s.types.size := by
  rcases resolve?_cases h with ⟨p, c, hx, -⟩ | ⟨x, hx, -⟩
  · exact TypeTable.shape?_lt hx
  · exact TypeTable.shape?_lt hx

/-- A known type that lowering gives a debug type can be lowered by an operation. -/
lemma run_lower_of_lt (known : a.index < s.types.size) (h : ShaderTypes.lower b a s = .ok (n, t)) :
    s.run (.lower b a) = .ok (.node n, t) := by
  have hknows : s.knows (.lower b a) = true := by
    simp [knows, Operation.types, Operation.subjects, Operation.nodes, Operation.targets,
      Operation.entry?, Operation.constant?, known]
  rw [Store.run, if_pos hknows, perform, h]
  rfl

/-- Once a type was lowered in a session that leaves the debug types to lowering, every later
lowering of a type that looks like it gives the same debug type, whatever happened in between.  Both
may be lowered through any pointers, and for any builders. -/
theorem LeftToLowering.lower_of_alike {ops : List Operation} {replies : List Reply}
    (hs : s.LeftToLowering) (hlower : s.run (.lower b p) = .ok (.node n, r))
    (leaves : ∀ op ∈ ops, op.leavesDebugTypes = true) (hops : r.runAll ops = .ok (replies, t))
    (hp : t.types.Leads p a) (hq : t.types.Leads q u) (alike : t.types.alike a u = true) :
    ∃ t', t.run (.lower b' q) = .ok (.node n, t') := by
  have hr : r.LeftToLowering := hs.run rfl hlower
  have ht : t.LeftToLowering := hr.runAll leaves hops
  have interned := ht.reachable.sound.types
  have later := runAll_advances leaves hops
  have hfound : r.found? p = some n := by
    obtain ⟨-, -, hperform⟩ := run_eq_ok hlower
    obtain ⟨_, h, hreply⟩ := perform_bind_eq_ok hperform
    cases hreply
    exact found?_of_lower h
  have hresolved : t.resolve? q = some n :=
    calc t.resolve? q = t.resolve? u := resolve?_eq_of_leads interned.wellFormed hq
      _ = t.resolve? a := (resolve?_eq_of_alike interned ht.checked alike).symm
      _ = t.resolve? p := (resolve?_eq_of_leads interned.wellFormed hp).symm
      _ = some n := by
        rw [hr.found?_eq_resolve?] at hfound
        exact resolve?_mono later.grows.shapes_le later.get?_debugTypes hfound
  obtain ⟨t', ht'⟩ := lower_of_found? ((ht.found?_eq_resolve? q).trans hresolved) b'
  exact ⟨t', run_lower_of_lt (lt_of_resolve? hresolved) ht'⟩

/-- The same unresolved image is asked for twice, with a pointer to the one and a pointer to a
pointer to the other. -/
def pointerSession : List Operation :=
  [.type (.hybridSampledImage (.named "Texture2D")),
    .type (.hybridSampledImage (.named "Texture2D")), .type (.pointer ⟨0⟩ .functionLocal),
    .type (.pointer ⟨1⟩ .uniform), .type (.pointer ⟨3⟩ .functionLocal)]

/-- The two pointers get one debug type, though they point to two types, and though another type is
asked for and lowered in between. -/
theorem lower_of_alike_of_pointers : ∃ (s r t : Store) (n : NodeId) (replies : List Reply),
    s.LeftToLowering ∧ s.run (.lower ⟨0⟩ ⟨2⟩) = .ok (.node n, r) ∧
    r.runAll [.type (.float 32), .lower ⟨0⟩ ⟨6⟩] = .ok (replies, t) ∧
    t.types.shape? ⟨2⟩ = some (.pointer ⟨0⟩ .functionLocal) ∧
    t.types.shape? ⟨4⟩ = some (.pointer ⟨3⟩ .functionLocal) ∧
    t.types.shape? ⟨3⟩ = some (.pointer ⟨1⟩ .uniform) ∧ t.types.alike ⟨0⟩ ⟨1⟩ = true ∧
    ∃ t', t.run (.lower ⟨0⟩ ⟨4⟩) = .ok (.node n, t') := by
  obtain ⟨replies, s, hsession, hrun⟩ := exists_of_runAll {} pointerSession
    (fun s => ((s.run (.lower ⟨0⟩ ⟨2⟩)).toOption.any fun p => p.1 = .node ⟨0⟩ &&
      (p.2.runAll [.type (.float 32), .lower ⟨0⟩ ⟨6⟩]).toOption.any fun q =>
        q.2.types.shape? ⟨2⟩ = some (.pointer ⟨0⟩ .functionLocal) &&
        q.2.types.shape? ⟨4⟩ = some (.pointer ⟨3⟩ .functionLocal) &&
        q.2.types.shape? ⟨3⟩ = some (.pointer ⟨1⟩ .uniform) &&
        q.2.types.alike ⟨0⟩ ⟨1⟩) = true) (by decide +kernel)
  have built : s.LeftToLowering := ⟨{}, pointerSession, replies, by decide, hsession⟩
  simp only [Option.any_eq_true, Bool.and_eq_true, decide_eq_true_eq, Prod.exists] at hrun
  obtain ⟨_, r, hlower, rfl, replies', t, hops, ⟨⟨htwo, hfour⟩, hthree⟩, halike⟩ := hrun
  have hlower := eq_ok_of_toOption hlower
  have hops := eq_ok_of_toOption hops
  refine ⟨s, r, t, ⟨0⟩, replies', built, hlower, hops, htwo, hfour, hthree, halike, ?_⟩
  exact built.lower_of_alike hlower (by decide) hops (.pointer htwo .refl)
    (.pointer hfour (.pointer hthree .refl)) halike

end Store

end ShaderTypes
