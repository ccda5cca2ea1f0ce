import ShaderTypes.Proofs.Store.Requests

/-!
# Where structs come from

A struct is in the table because it was asked for.  Declarations take no part in the keys of
structs, so many requests may share one struct of the table, and the one that is kept is the struct
that was asked for first, with its record and the declarations of its fields.

That no struct comes into the table in another way is told operation by operation: whatever gives no
type adds `void` and the types of constants at most, and the two buffers are structs over types that
are none.
-/

namespace ShaderTypes

/-- The shape `x` is what the first of the operations asks for that asks for a shape with the key of
`y`. -/
inductive TypeTable.FirstRequest (t : TypeTable) (y : Shape) : List Operation → Shape → Prop
  | here {op : Operation} {ops : List Operation} {x : Shape} (asks : op.Asks t x)
      (same : t.SameKey x y) : FirstRequest t y (op :: ops) x
  | there {op : Operation} {ops : List Operation} {x : Shape}
      (other : ∀ z, op.Asks t z → ¬ t.SameKey z y) (tail : FirstRequest t y ops x) :
      FirstRequest t y (op :: ops) x

namespace TypeTable

variable {t u : TypeTable} {x y z : Shape} {a v : TypeId} {ops : List Operation}

/-- Only the key matters of what is looked for. -/
lemma FirstRequest.congr (wf : t.WellFormed) (same : t.SameKey y z) (h : t.FirstRequest y ops x) :
    t.FirstRequest z ops x := by
  induction h with
  | here asks key => exact .here asks (key.trans wf same)
  | there other _ ih => exact .there (fun w hw key => other w hw (key.trans wf (same.symm wf))) ih

/-- The only new type after an interning is the one it gives. -/
lemma shape?_of_intern_cases (h : t.intern x = (a, u)) (hv : u.shape? v = some y) :
    t.shape? v = some y ∨ v = a ∧ y = x := by
  rw [intern] at h
  rcases hfind : t.find? x with _ | b
  · rw [hfind] at h
    cases h
    rcases shape?_push_cases hv with hold | ⟨hindex, rfl⟩
    · exact Or.inl hold
    · exact Or.inr ⟨congrArg TypeId.mk hindex, rfl⟩
  · rw [hfind] at h
    cases h
    exact Or.inl hv

end TypeTable

namespace Store

variable {s t : Store} {op : Operation} {ops : List Operation} {reply : Reply}
  {replies : List Reply} {a : TypeId} {b : BuilderId} {struct : Struct} {x : Shape}

/-! ### What operations add to the types -/

lemma gains_of_walk {instructions : List NodeId} (h : Lowering.Walk b instructions s t) :
    s.types.Gains Shape.isIncidental t.types := by
  have stamp {r : Store} {n : NodeId} : r.types.Gains Shape.isIncidental (r.stamp n b).types :=
    (TypeTable.Gains.refl _).intern rfl
  induction h with
  | nil => exact .refl _
  | untyped _ _ ih => exact stamp.trans ih
  | typed _ lowered _ ih => exact (stamp.trans (lower_changes lowered).gains).trans ih

/-- An operation that gives no type adds none but `void` and those of constants. -/
theorem gains_of_run (h : s.run op = .ok (reply, t)) (untyped : ∀ a, reply ≠ .type a) :
    s.types.Gains Shape.isIncidental t.types := by
  have same (types : t.types = s.types) : s.types.Gains Shape.isIncidental t.types := by
    rw [types]
    exact .refl _
  cases effect_of_run h with
  | idle => exact same rfl
  | types => exact absurd rfl (untyped _)
  | add => exact same rfl
  | keyed => exact same types_keyedNode
  | unkeyed => exact same rfl
  | fill fills => cases fills <;> exact same rfl
  | opened => exact same types_openFile
  | pushScope => exact same types_openFile
  | popScope popped =>
    obtain ⟨file, scope, -, rfl⟩ := popScope_eq_ok popped
    exact same types_openFile
  | saveFunction => exact same rfl
  | recordDebugType => exact same rfl
  | template _ attached => rcases template_eq_ok attached with rfl | ⟨n, rfl⟩ <;> exact same rfl
  | lower _ lowered => exact (lower_changes lowered).gains
  | lowerComposite _ lowered => exact (lowerComposite_changes lowered).gains
  | lowerModule _ walk => exact gains_of_walk walk

/-- An operation that asks for a shape gives a type. -/
lemma exists_type_of_asks {types : TypeTable} (asks : op.Asks types x)
    (h : s.run op = .ok (reply, t)) : ∃ a, reply = .type a := by
  obtain ⟨-, -, h⟩ := run_eq_ok h
  cases asks with
  | type =>
    obtain ⟨a, types, -, rfl, -⟩ := perform_type_eq_ok h
    exact ⟨a, rfl⟩
  | columns =>
    obtain ⟨a, types, -, rfl, -⟩ := perform_type_eq_ok h
    exact ⟨a, rfl⟩
  | byteAddressBuffer => cases h; exact ⟨_, rfl⟩
  | counterBuffer => cases h; exact ⟨_, rfl⟩

/-- A struct that an operation adds is the one that the operation asks for. -/
lemma asks_of_new (hs : s.Sound) (h : s.run op = .ok (reply, t))
    (hx : t.types.shape? a = some (.struct struct)) (new : s.types.size ≤ a.index) {u : TypeTable}
    (hu : t.types.Grows u) : op.Asks u (.struct struct) := by
  by_cases typed : ∃ v, reply = .type v
  · obtain ⟨v, rfl⟩ := typed
    obtain ⟨r, x, ⟨-, gains⟩, hintern, -, hasks⟩ := exists_gains_of_run hs h
    rcases TypeTable.shape?_of_intern_cases hintern hx with hr | ⟨-, rfl⟩
    · rcases gains.shape?_cases hr with hold | ⟨-, hstruct⟩
      · exact absurd (TypeTable.shape?_lt hold) (Nat.not_lt.2 new)
      · cases hstruct
    · exact (hasks u hu _).2 rfl
  · rcases (gains_of_run h fun v hv => typed ⟨v, hv⟩).shape?_cases hx with hold | ⟨-, hincidental⟩
    · exact absurd (TypeTable.shape?_lt hold) (Nat.not_lt.2 new)
    · cases hincidental

/-- An operation that asks for a shape leaves a type of its key. -/
lemma exists_sameKey_of_asks (hs : s.Sound) (h : s.run op = .ok (reply, t)) {u : TypeTable}
    (hu : t.types.Grows u) (asks : op.Asks u x) (hybrid : x.isHybrid = false) :
    ∃ a y, reply = .type a ∧ a.index < t.types.size ∧ u.shape? a = some y ∧ u.SameKey x y := by
  obtain ⟨a, rfl⟩ := exists_type_of_asks asks h
  obtain ⟨r, x', hgrows, hintern, known, hasks⟩ := exists_intern_of_run hs h
  obtain rfl : x = x' := (hasks u hu x).1 asks
  obtain ⟨y, hy, same⟩ :=
    (hgrows.interned hs.types).exists_sameKey_of_intern hintern known hybrid hu
  exact ⟨a, y, rfl, (TypeTable.grows_of_intern hintern known).2, hy, same⟩

/-! ### Structs in sessions -/

/-- A struct that a session adds to the table is what the first request with its key asks for. -/
theorem firstRequest_of_runAll (hs : s.Sound) (h : s.runAll ops = .ok (replies, t))
    (hx : t.types.shape? a = some (.struct struct)) (new : s.types.size ≤ a.index) :
    t.types.FirstRequest (.struct struct) ops (.struct struct) := by
  induction ops generalizing s replies with
  | nil =>
    cases h
    exact absurd (TypeTable.shape?_lt hx) (Nat.not_lt.2 new)
  | cons op ops ih =>
    obtain ⟨reply, r, replies', hop, hops, -⟩ := runAll_cons_eq_ok h
    have hr := (run_edits hop).sound hs
    have hgrows : r.types.Grows t.types := (runAll_edits hops).grows
    have ht := hgrows.interned hr.types
    rcases Nat.lt_or_ge a.index r.types.size with hlt | hge
    · rw [TypeTable.shape?_eq_of_lt hgrows.shapes_le hlt] at hx
      exact .here (asks_of_new hs hop hx new hgrows) (.refl rfl)
    · refine .there (fun z asks same => ?_) (ih hr hops hge)
      -- Otherwise the operation left a type of this key, which cannot be a later one.
      obtain ⟨v, y, -, hv, hy, same'⟩ :=
        exists_sameKey_of_asks hs hop hgrows asks same.isHybrid_left
      obtain rfl := ht.eq_of_sameKey hy hx ((same'.symm ht.wellFormed).trans ht.wellFormed same)
      omega

end Store

end ShaderTypes
