import ShaderTypes.Proofs.Lowering.Failure
import ShaderTypes.Proofs.Store.FirstRequest

/-!
# What a struct keeps of its request

A struct of the table is as a whole what one operation asked for: its fields with their types and
declarations, and its record.  That operation is the first of the session that asks for a struct
with an equal key.  The struct comes into the table with it and stays there as it is.

Lowering compares the record of a struct with the declarations of its fields.  As both are those of
one request, a comparison goes wrong only for a struct that was asked for with fields which do not
fit the record that it was asked for with.  The exception is a struct and a record that one
operation hands over for composing them.
-/

namespace ShaderTypes

/-- Whether a fault says that a struct and a record do not fit together. -/
def Fault.isMisfit : Fault → Bool
  | .missingField _ | .declarationMismatch _ => true
  | _ => false

namespace TypeTable

/-- A struct of the table does not fit the record that it remembers. -/
def HasMisfit (t : TypeTable) (fault : Fault) : Prop :=
  ∃ a struct record, t.shape? a = some (.struct struct) ∧ struct.record = some record ∧
    Lowering.Misfit struct.name record.dataFields struct.fields fault

variable {t u : TypeTable} {x y : Shape} {struct : Struct} {op : Operation} {ops : List Operation}
  {fault : Fault}

/-- The first request stands somewhere in the session, and none of those before it is for the same
key. -/
lemma FirstRequest.exists_place (h : t.FirstRequest y ops x) :
    ∃ before op after, ops = before ++ op :: after ∧ op.Asks t x ∧
      ∀ earlier ∈ before, ∀ z, earlier.Asks t z → ¬ t.SameKey z y := by
  induction h with
  | @here op ops x asks => exact ⟨[], op, ops, rfl, asks, by simp⟩
  | @there op ops x other _ ih =>
    obtain ⟨before, op', after, rfl, asks, others⟩ := ih
    exact ⟨op :: before, op', after, rfl, asks, List.forall_mem_cons.2 ⟨other, others⟩⟩

/-- What is asked for as a struct is asked for over a longer table, too. -/
lemma asks_struct_mono (h : t.shapes <+: u.shapes) (asks : op.Asks t (.struct struct)) :
    op.Asks u (.struct struct) := by
  cases asks with
  | type => exact .type (by simp)
  | byteAddressBuffer hword hwords =>
    exact .byteAddressBuffer (shape?_mono h hword) (shape?_mono h hwords)
  | counterBuffer hint => exact .counterBuffer (shape?_mono h hint)

/-- What is interned by the way is no struct. -/
lemma HasMisfit.of_gains (gains : t.Gains Shape.isIncidental u) (h : u.HasMisfit fault) :
    t.HasMisfit fault := by
  obtain ⟨a, struct, record, hx, made, misfit⟩ := h
  rcases gains.shape?_cases hx with hold | ⟨-, hincidental⟩
  · exact ⟨a, struct, record, hold, made, misfit⟩
  · cases hincidental

end TypeTable

/-! ### Other faults -/

/-- The rules of the type system are about other things. -/
lemma TypeTable.isMisfit_of_check {t : TypeTable} {x : Shape} {fault : Fault}
    (h : t.check x = .error fault) : fault.isMisfit = false := by
  cases x <;> first
    | cases h
    | simp only [check, checkWidth] at h
      split_ifs at h <;> cases h <;> rfl

namespace Store

variable {s : Store} {x : Shape} {n type : NodeId} {block : Block} {fault : Fault}

lemma isMisfit_of_requestType (h : s.requestType x = .error fault) : fault.isMisfit = false := by
  rw [requestType, TypeTable.request] at h
  rcases hcheck : s.types.check x with fault' | _
  · rw [hcheck] at h
    cases h
    exact TypeTable.isMisfit_of_check hcheck
  · rw [hcheck] at h
    cases h

lemma isMisfit_of_allocate (h : allocate block = .error fault) : fault.isMisfit = false := by
  rw [allocate] at h
  split_ifs at h <;> cases h <;> rfl

lemma isMisfit_of_setDebugType (h : s.setDebugType n type = .error fault) :
    fault.isMisfit = false := by
  rw [setDebugType] at h
  split_ifs at h
  cases h
  rfl

end Store

/-! ### Comparisons that go wrong -/

namespace Lowering

open Store

variable {b : BuilderId} {s t : Store} {a u : TypeId} {n : NodeId} {fault : Fault}

/-- A lowering that fails at a type for a misfit has come to a struct of the table that does not fit
its own record. -/
lemma FailsAt.hasMisfit (hs : s.Sound) (known : u.index < s.types.size)
    (h : FailsAt b s u fault) (misfit : fault.isMisfit = true) : s.types.HasMisfit fault := by
  obtain ⟨r, changes, hfails⟩ := h
  have grows := changes.grows
  obtain ⟨v, x, -, hx, hfaulty⟩ := exists_faulty_of_lower (grows.interned hs.types)
    (Nat.lt_of_lt_of_le known grows.shapes_le.length_le) hfails
  cases hfaulty with
  | method => cases misfit
  | misfit made _ h => exact .of_gains changes.gains ⟨v, _, _, hx, made, h⟩

/-- Composing a struct from a record fails for a misfit if they do not fit together, or at a
field. -/
lemma hasMisfit_of_lowerComposite {struct : Struct} {record : Decl.Record} (hs : s.Sound)
    (known : ∀ u ∈ struct.fields.map Field.type, u.index < s.types.size)
    (h : lowerComposite b a struct record s = .error fault) (misfit : fault.isMisfit = true) :
    Misfit struct.name record.dataFields struct.fields fault ∨ s.types.HasMisfit fault := by
  rcases compositeWith_eq_error h with h | ⟨tag, ⟨-, rfl⟩ | h⟩
  · rw [compositeTag] at h
    cases hkeyword : record.keyword <;> rw [hkeyword] at h <;> cases h
    cases misfit
  · cases misfit
  have changes : Meanwhile b s (openComposite s a struct record tag).2 :=
    changes_openComposite trivial
  rcases failsAt_of_populate h with ⟨method, -, -, rfl⟩ | ⟨decl, field, hslot, hfails⟩ | hfault
  · cases misfit
  · exact Or.inr ((hfails.after changes).hasMisfit hs
      (known _ (Shape.mem_operands_of_mem_pair hslot)) misfit)
  · exact Or.inl (misfit_of_fault hfault)

/-- Showing instructions to the pass fails at one of them, after a walk over those before. -/
lemma exists_of_visitAll_eq_error {instructions : List NodeId}
    (h : (pass b).visitAll instructions s = .error fault) :
    ∃ before n r, Walk b before s r ∧ visit b n r = .error fault := by
  induction instructions generalizing s with
  | nil => cases h
  | cons n rest ih =>
    rcases hshow : (pass b).onInstruction n s with fault' | ⟨goOn, s'⟩
    · cases (Pass.visitAll_cons_of_error hshow).symm.trans h
      exact ⟨[], n, s, .nil, onInstruction_eq_error hshow⟩
    · obtain ⟨rfl, hvisit⟩ := onInstruction_eq_ok hshow
      rw [Pass.visitAll_cons_of_goOn hshow] at h
      obtain ⟨before, m, r, walk, hfails⟩ := ih h
      rcases visit_cases hvisit with ⟨htype, rfl⟩ | ⟨a, d, r', htype, lowered, rfl⟩
      · exact ⟨n :: before, m, r, .untyped htype walk, hfails⟩
      · exact ⟨n :: before, m, r, .typed htype lowered walk, hfails⟩

/-- Showing an instruction to the pass fails for a misfit only where its type is lowered. -/
lemma failsAt_of_visit (h : visit b n s = .error fault) (misfit : fault.isMisfit = true) :
    ∃ a, (s.stamp n b).type? n = some a ∧ FailsAt b (s.stamp n b) a fault := by
  rw [visit, Lower.bind_eq_error] at h
  rcases h with h | ⟨_, r, hstamp, h⟩
  · exact absurd h Lower.modify_ne_error
  rw [Lower.modify_eq_ok] at hstamp
  subst hstamp
  rcases Lower.bind_eq_error.1 h with h | ⟨_, _, hget, h⟩
  · exact absurd h Lower.get_ne_error
  obtain ⟨rfl, rfl⟩ := Lower.get_eq_ok.1 hget
  rcases htype : ((s.stamp n b).nodes.entry? n).bind Debug.Entry.type? with _ | a
  · rw [htype] at h
    exact absurd h Lower.pure_ne_error
  rw [htype] at h
  rcases Lower.bind_eq_error.1 h with h | ⟨d, s', -, h⟩
  · exact ⟨a, htype, _, .refl, h⟩
  rcases Lower.bind_eq_error.1 h with h | ⟨_, _, hget, h⟩
  · exact absurd h Lower.get_ne_error
  obtain ⟨rfl, rfl⟩ := Lower.get_eq_ok.1 hget
  rcases Lower.bind_eq_error.1 h with h | ⟨r, _, -, h⟩
  · cases misfit.symm.trans (isMisfit_of_setDebugType (Lower.lift_eq_error.1 h))
  · cases h

end Lowering

/-- A pass over a module fails for a misfit only at a struct of the table that does not fit its own
record. -/
lemma hasMisfit_of_lowerModule {b : BuilderId} {m : Module} {s : Store} {fault : Fault}
    (hs : s.Sound) (h : lowerModule b m s = .error fault) (misfit : fault.isMisfit = true) :
    s.types.HasMisfit fault := by
  have hvisit : (Lowering.pass b).visitAll m.instructions s = .error fault := by
    rw [Lowering.lowerModule_eq] at h
    rcases hvisit : (Lowering.pass b).visitAll m.instructions s with fault' | ⟨_ | _, r⟩ <;>
      rw [hvisit] at h <;> cases h
    rfl
  obtain ⟨before, n, r, walk, hfails⟩ := Lowering.exists_of_visitAll_eq_error hvisit
  obtain ⟨a, htype, hfails⟩ := Lowering.failsAt_of_visit hfails misfit
  have stamped : (r.stamp n b).Sound := Store.edits_stamp.sound ((Store.edits_of_walk walk).sound hs)
  -- Nothing but what instructions need was interned on the way.
  have gains : s.types.Gains Shape.isIncidental (r.stamp n b).types :=
    (Store.gains_of_walk walk).intern rfl
  exact (hfails.hasMisfit stamped (stamped.typed htype) misfit).of_gains gains

namespace Store

variable {s t : Store} {op : Operation} {ops ops' : List Operation} {reply : Reply}
  {replies : List Reply} {a : TypeId} {struct : Struct} {fault : Fault}

lemma perform_bind_eq_error {α : Type} {x : Except Fault α} {f : α → Except Fault (Reply × Store)}
    (h : (x >>= f) = .error fault) : x = .error fault ∨ ∃ r, f r = .error fault := by
  cases x with
  | error fault' =>
    cases h
    exact Or.inl rfl
  | ok r => exact Or.inr ⟨r, h⟩

/-- An operation fails for a misfit if it hands over a struct and a record that do not fit together,
or at a struct of the table that does not fit its own record. -/
lemma hasMisfit_of_run (hs : s.Sound) (h : s.run op = .error fault)
    (misfit : fault.isMisfit = true) :
    (∃ b a struct record, op = .lowerComposite b a struct record ∧
      Lowering.Misfit struct.name record.dataFields struct.fields fault) ∨
    s.types.HasMisfit fault := by
  rw [run] at h
  rcases known : s.knows op with _ | _
  · simp only [known, Bool.false_eq_true, ↓reduceIte, Except.error.injEq] at h
    subst h
    cases misfit
  simp only [known, ↓reduceIte] at h
  have htypes : ∀ u ∈ op.types, u.index < s.types.size := by
    simp only [knows, Bool.and_eq_true, List.all_eq_true, decide_eq_true_eq] at known
    exact known.1.1
  cases op with
  | allocate block =>
    rcases perform_bind_eq_error h with h | ⟨_, h⟩
    · cases misfit.symm.trans (isMisfit_of_allocate h)
    · cases h
  | type shape =>
    rcases perform_bind_eq_error h with h | ⟨_, h⟩
    · cases misfit.symm.trans (isMisfit_of_requestType h)
    · cases h
  | popScope name => simp only [perform] at h; split at h <;> cases h
  | template a target => simp only [perform] at h; split at h <;> cases h
  | setDebugType n type =>
    rcases perform_bind_eq_error h with h | ⟨_, h⟩
    · cases misfit.symm.trans (isMisfit_of_setDebugType h)
    · cases h
  | lower b a =>
    rcases perform_bind_eq_error h with h | ⟨_, h⟩
    · have fails : Lowering.FailsAt b s a fault := ⟨s, .refl, h⟩
      exact Or.inr (fails.hasMisfit hs (htypes a List.mem_cons_self) misfit)
    · cases h
  | lowerComposite b a struct record =>
    rcases perform_bind_eq_error h with h | ⟨_, h⟩
    · have known (u : TypeId) (hu : u ∈ struct.fields.map Field.type) : u.index < s.types.size :=
        htypes u (List.mem_append_left _ (List.mem_cons_of_mem _ hu))
      rcases Lowering.hasMisfit_of_lowerComposite hs known h misfit with handed | own
      · exact Or.inl ⟨b, a, struct, record, rfl, handed⟩
      · exact Or.inr own
    · cases h
  | lowerModule b m =>
    rcases perform_bind_eq_error h with h | ⟨_, h⟩
    · exact Or.inr (hasMisfit_of_lowerModule hs h misfit)
    · cases h
  | _ => cases h

/-! ### Sessions -/

/-- A session runs its first part and then the second. -/
lemma runAll_append_eq_ok (h : s.runAll (ops ++ ops') = .ok (replies, t)) :
    ∃ replies₁ r replies₂, s.runAll ops = .ok (replies₁, r) ∧ r.runAll ops' = .ok (replies₂, t) ∧
      replies = replies₁ ++ replies₂ := by
  induction ops generalizing s replies with
  | nil => exact ⟨[], s, replies, rfl, h, rfl⟩
  | cons op ops ih =>
    obtain ⟨reply, r, replies', hop, hops, rfl⟩ := runAll_cons_eq_ok h
    obtain ⟨replies₁, r', replies₂, hfirst, hsecond, rfl⟩ := ih hops
    refine ⟨reply :: replies₁, r', replies₂, ?_, hsecond, rfl⟩
    simp [runAll, hop, hfirst, bind, Except.bind, pure, Except.pure]

/-- Every operation of a session is answered. -/
lemma length_of_runAll (h : s.runAll ops = .ok (replies, t)) : replies.length = ops.length := by
  induction ops generalizing s replies with
  | nil =>
    cases h
    rfl
  | cons op ops ih =>
    obtain ⟨reply, r, replies', -, hops, rfl⟩ := runAll_cons_eq_ok h
    rw [List.length_cons, List.length_cons, ih hops]

/-- A struct of the table stands under the type that its first request was answered with.  There is
no such type until then, and from then on it is that struct. -/
lemma exists_request_of_runAll {options : Options}
    (h : (Store.new options).runAll ops = .ok (replies, s))
    (hx : s.types.shape? a = some (.struct struct)) :
    ∃ before op after, ops = before ++ op :: after ∧ op.Asks s.types (.struct struct) ∧
      replies[before.length]? = some (.type a) ∧
      (∀ earlier ∈ before, ∀ x, earlier.Asks s.types x → ¬ s.types.SameKey x (.struct struct)) ∧
      (∀ sooner, sooner <+: before → ∃ replies' r,
        (Store.new options).runAll sooner = .ok (replies', r) ∧ r.types.shape? a = none) ∧
      ∀ later, later <+: after → ∃ replies' r,
        (Store.new options).runAll (before ++ op :: later) = .ok (replies', r) ∧
          r.types.shape? a = some (.struct struct) := by
  have first := firstRequest_of_runAll (sound_new options) h hx (Nat.zero_le _)
  obtain ⟨before, op, after, rfl, asks, others⟩ := first.exists_place
  obtain ⟨replies₁, r, replies₂, hbefore, hrest, rfl⟩ := runAll_append_eq_ok h
  obtain ⟨reply, u, replies₃, hop, hafter, rfl⟩ := runAll_cons_eq_ok hrest
  have hr : r.Sound := (runAll_edits hbefore).sound (sound_new options)
  have hs : s.Sound := (runAll_edits h).sound (sound_new options)
  have hu : u.types.Grows s.types := (runAll_edits hafter).grows
  -- The request gives a type of its key, and there is only one.
  obtain ⟨v, y, rfl, hlt, hv, same⟩ := exists_sameKey_of_asks hr hop hu asks rfl
  obtain rfl := hs.types.eq_of_sameKey hx hv same
  have hnew : r.types.shape? a = none := by
    rcases hold : r.types.shape? a with _ | z
    · rfl
    -- Otherwise an operation before would have asked for the struct.
    have shapes := (runAll_edits hrest).grows.shapes_le
    obtain rfl := Option.some.inj ((TypeTable.shape?_mono shapes hold).symm.trans hx)
    obtain ⟨before', op', after', hsplit, asks', -⟩ :=
      (firstRequest_of_runAll (sound_new options) hbefore hold (Nat.zero_le _)).exists_place
    have hmem : op' ∈ before := by
      rw [hsplit]
      exact List.mem_append_right _ List.mem_cons_self
    exact absurd (.refl rfl) (others op' hmem _ (TypeTable.asks_struct_mono shapes asks'))
  refine ⟨before, op, after, rfl, asks, ?_, others, ?_, ?_⟩
  · rw [← length_of_runAll hbefore, List.getElem?_append_right (Nat.le_refl _), Nat.sub_self]
    rfl
  · rintro sooner ⟨rest, rfl⟩
    obtain ⟨replies', r', _, hsooner, hrest', -⟩ := runAll_append_eq_ok hbefore
    refine ⟨replies', r', hsooner, ?_⟩
    rcases hold : r'.types.shape? a with _ | z
    · rfl
    · have shapes := (runAll_edits hrest').grows.shapes_le
      cases (TypeTable.shape?_mono shapes hold).symm.trans hnew
  · rintro later ⟨rest, rfl⟩
    obtain ⟨replies', u', _, hlater, hrest', -⟩ := runAll_append_eq_ok hafter
    refine ⟨replies₁ ++ .type a :: replies', u', ?_, ?_⟩
    · simp [runAll_append, hbefore, runAll, hop, hlater, bind, Except.bind, pure, Except.pure]
    · have hlt' : a.index < u'.types.size :=
        Nat.lt_of_lt_of_le hlt (runAll_edits hlater).grows.shapes_le.length_le
      rwa [← TypeTable.shape?_eq_of_lt (runAll_edits hrest').grows.shapes_le hlt']

/-- A struct of the table is as a whole what one operation of the session asked for, the first one
that asked for a struct with an equal key.  Until that operation there is no such type, and from then
on it is the struct.  If an operation fails because a struct and a record do not fit together, they
are what it hands over for composing them, or they were asked for together. -/
theorem struct_of_runAll {options : Options}
    (h : (Store.new options).runAll ops = .ok (replies, s)) :
    (∀ a struct, s.types.shape? a = some (.struct struct) →
      ∃ before op after, ops = before ++ op :: after ∧ op.Asks s.types (.struct struct) ∧
        replies[before.length]? = some (.type a) ∧
        (∀ earlier ∈ before, ∀ x, earlier.Asks s.types x →
          ¬ s.types.SameKey x (.struct struct)) ∧
        (∀ sooner, sooner <+: before → ∃ replies' r,
          (Store.new options).runAll sooner = .ok (replies', r) ∧ r.types.shape? a = none) ∧
        ∀ later, later <+: after → ∃ replies' r,
          (Store.new options).runAll (before ++ op :: later) = .ok (replies', r) ∧
            r.types.shape? a = some (.struct struct)) ∧
    ∀ op fault, s.run op = .error fault → fault.isMisfit = true →
      (∃ b a struct record, op = .lowerComposite b a struct record ∧
        Lowering.Misfit struct.name record.dataFields struct.fields fault) ∨
      ∃ request ∈ ops, ∃ struct record, request.Asks s.types (.struct struct) ∧
        struct.record = some record ∧
        Lowering.Misfit struct.name record.dataFields struct.fields fault := by
  have hs : s.Sound := Reachable.sound ⟨options, ops, replies, h⟩
  refine ⟨fun a struct hx => exists_request_of_runAll h hx, fun op fault hfails misfit => ?_⟩
  rcases hasMisfit_of_run hs hfails misfit with handed | ⟨a, struct, record, hx, made, hmisfit⟩
  · exact Or.inl handed
  · obtain ⟨before, request, after, rfl, asks, -⟩ := exists_request_of_runAll h hx
    exact Or.inr ⟨request, List.mem_append_right _ List.mem_cons_self, struct, record, asks, made,
      hmisfit⟩

/-- The declaration of a field. -/
def numberedField (id : Nat) : Decl.Field where
  id := ⟨id⟩
  name := "x"
  location := ⟨"a.hlsl", 2, 3⟩

/-- A struct with a field of one declaration, made from a record that lists another one. -/
def numberedStruct (name : String) (made listed : Nat) : Struct where
  name
  fields := [{ type := ⟨0⟩, name := some "x", decl := some (numberedField made) }]
  record := some
    { id := ⟨listed⟩, name, keyword := .structKeyword, location := ⟨"a.hlsl", 1, 1⟩
      members := [.field (numberedField listed)] }

/-- A struct is asked for twice, with two records that each list the declaration of its field.  Then
one is asked for that does not fit the record it is asked for with. -/
def redeclaredSession : List Operation :=
  [.type (.integer 32 true), .type (.struct (numberedStruct "S" 0 0)),
    .type (.struct (numberedStruct "S" 1 1)), .type (.struct (numberedStruct "T" 0 1))]

/-- The first of the three is kept as it was asked for, and is lowered.  Lowering the last one fails,
for what was asked for with it. -/
theorem struct_of_runAll_redeclared : ∃ (replies : List Reply) (s : Store),
    (Store.new {}).runAll redeclaredSession = .ok (replies, s) ∧
    s.types.shape? ⟨1⟩ = some (.struct (numberedStruct "S" 0 0)) ∧
    (∃ before op after, redeclaredSession = before ++ op :: after ∧
      op.Asks s.types (.struct (numberedStruct "S" 0 0)) ∧
      replies[before.length]? = some (.type ⟨1⟩)) ∧
    (s.run (.lower ⟨0⟩ ⟨1⟩)).toOption.isSome = true ∧
    s.run (.lower ⟨0⟩ ⟨2⟩) = .error (.declarationMismatch "x") ∧
    ∃ request ∈ redeclaredSession, ∃ struct record, request.Asks s.types (.struct struct) ∧
      struct.record = some record ∧ Lowering.Misfit struct.name record.dataFields struct.fields
        (.declarationMismatch "x") := by
  obtain ⟨replies, s, hsession, hx, lowered, hfails⟩ := exists_of_runAll {} redeclaredSession
    (fun s => s.types.shape? ⟨1⟩ = some (.struct (numberedStruct "S" 0 0)) ∧
      (s.run (.lower ⟨0⟩ ⟨1⟩)).toOption.isSome = true ∧
      s.run (.lower ⟨0⟩ ⟨2⟩) = .error (.declarationMismatch "x")) (by decide +kernel)
  obtain ⟨placed, fails⟩ := struct_of_runAll hsession
  obtain ⟨before, op, after, hsplit, asks, answer, -⟩ := placed _ _ hx
  refine ⟨replies, s, hsession, hx, ⟨before, op, after, hsplit, asks, answer⟩, lowered, hfails, ?_⟩
  rcases fails _ _ hfails rfl with ⟨b, a, struct, record, handed, -⟩ | requested
  · cases handed
  · exact requested

end Store

end ShaderTypes
