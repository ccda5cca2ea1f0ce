import ShaderTypes.Proofs.Lowering.Completion

/-!
# Repeated passes over a module

Each pass appends the whole registry to the module, whatever earlier passes appended and whatever
the registry lists twice.  `Store.Passes` runs a number of passes over one module, and the main
result says exactly when no instruction is repeated after them: before any pass, after one pass if
the registry had no node twice and none of the module, and after more of them only if there is
nothing to append.
-/

namespace ShaderTypes.Store

/-- Passes over one module with one builder, each over what the one before it made of the module. -/
inductive Passes (b : BuilderId) (m : Module) (s : Store) : Nat → Module → Store → Prop
  | start : Passes b m s 0 m s
  | next {k : Nat} {m' m'' : Module} {r t : Store} {completed : Bool} (h : Passes b m s k m' r)
      (hrun : r.run (.lowerModule b m') = .ok (.module completed m'', t)) :
      Passes b m s (k + 1) m'' t

variable {b : BuilderId} {m m' : Module} {s r t : Store} {k : Nat} {n : NodeId} {completed : Bool}
  {instructions : List NodeId}

/-! ### One pass -/

/-- What a pass over known instructions does to the store and to the module. -/
lemma lowerModule_of_run (h : s.run (.lowerModule b m) = .ok (.module completed m', t)) :
    (∀ n ∈ m.instructions, n.index < s.nodes.size) ∧ m' = m.append t.emitted ∧
      Lowering.Walk b m.instructions s t := by
  obtain ⟨-, known, hperform⟩ := run_eq_ok h
  obtain ⟨completed', m'', hreply, hpass⟩ := perform_lowerModule_eq_ok hperform
  cases hreply
  obtain ⟨-, hm', hwalk⟩ := lowerModule_eq_ok hpass
  exact ⟨fun n hn => known n (List.mem_append_left _ hn), hm', hwalk⟩

/-- A pass over instructions without a type lists nothing. -/
lemma emitted_of_untyped (h : Lowering.Walk b instructions s t)
    (known : ∀ n ∈ instructions, n.index < s.nodes.size)
    (untyped : ∀ n ∈ instructions, s.type? n = none) : t.emitted = s.emitted := by
  induction h with
  | nil => rfl
  | @untyped n rest s t _ _ ih =>
    have hext : s.Extends (s.stamp n b) := extends_stamp
    refine ih (fun i hi => ?_) fun i hi => ?_
    · exact Nat.lt_of_lt_of_le (known i (List.mem_cons_of_mem _ hi)) hext.size_le
    · rw [hext.type? (known i (List.mem_cons_of_mem _ hi))]
      exact untyped i (List.mem_cons_of_mem _ hi)
  | @typed n _ _ _ s _ _ htype =>
    have hext : s.Extends (s.stamp n b) := extends_stamp
    rw [hext.type? (known n List.mem_cons_self), untyped n List.mem_cons_self] at htype
    cases htype

/-- If a pass lists nothing then nothing was listed before it, and its instructions have no type. -/
lemma untyped_of_emitted_eq_nil (h : Lowering.Walk b instructions s t)
    (known : ∀ n ∈ instructions, n.index < s.nodes.size) (hnil : t.emitted = []) :
    s.emitted = [] ∧ ∀ n ∈ instructions, s.type? n = none := by
  constructor
  · rw [← List.sublist_nil, ← hnil]
    exact (extends_of_walk h).emitted_sublist
  · intro n hn
    rw [Option.eq_none_iff_forall_ne_some]
    intro a ha
    obtain ⟨d, -, hfound⟩ := h.completed (known n hn) ha (Or.inl hn)
    simpa [hnil] using mem_emitted_of_found? hfound

/-- After one pass no instruction is repeated if and only if none was, also counting what the
registry listed before. -/
lemma nodup_append_emitted_iff (hs : s.Sound) (h : Lowering.Walk b instructions s t)
    (known : ∀ n ∈ instructions, n.index < s.nodes.size) :
    (instructions ++ t.emitted).Nodup ↔ (instructions ++ s.emitted).Nodup := by
  have hext := extends_of_walk h
  constructor
  · exact fun hnodup => hnodup.sublist ((List.Sublist.refl _).append hext.emitted_sublist)
  · intro hnodup
    obtain ⟨distinct, hlisted, hdisjoint⟩ := List.nodup_append.1 hnodup
    refine List.nodup_append.2 ⟨distinct, nodup_emitted_of_walk h hs hlisted, ?_⟩
    rintro n hn d hd rfl
    rcases hext.mem_emitted_cases hd with hd | hnew
    · exact hdisjoint n hn n hd rfl
    · have := known n hn
      omega

/-! ### Many passes -/

lemma Passes.extends (h : Passes b m s k m' t) : s.Extends t := by
  induction h with
  | start => exact .refl _
  | next _ hrun ih => exact ih.trans (extends_of_walk (lowerModule_of_run hrun).2.2)

/-- No pass takes an instruction away. -/
lemma Passes.instructions_subset (h : Passes b m s k m' t) (hn : n ∈ m.instructions) :
    n ∈ m'.instructions := by
  induction h with
  | start => exact hn
  | next _ hrun ih =>
    obtain ⟨-, rfl, -⟩ := lowerModule_of_run hrun
    exact List.mem_append_left _ ih

/-- As long as there is nothing to append the module stays as it is. -/
lemma Passes.eq_of_untyped (h : Passes b m s k m' t) (hnil : s.emitted = [])
    (untyped : ∀ n ∈ m.instructions, s.type? n = none) :
    m' = m ∧ t.emitted = [] ∧ ∀ n ∈ m.instructions, t.type? n = none := by
  induction h with
  | start => exact ⟨rfl, hnil, untyped⟩
  | next _ hrun ih =>
    obtain ⟨rfl, hnil', untyped'⟩ := ih
    obtain ⟨known, rfl, hwalk⟩ := lowerModule_of_run hrun
    have hemitted := (emitted_of_untyped hwalk known untyped').trans hnil'
    refine ⟨?_, hemitted, fun n hn => ?_⟩
    · rw [Module.append, hemitted, List.append_nil]
    · exact ((extends_of_walk hwalk).type? (known n hn)).trans (untyped' n hn)

/-- If two passes leave no instruction repeated then there is nothing to append, now or before. -/
lemma Passes.untyped_of_nodup (h : Passes b m s (k + 2) m' t) (hnodup : m'.instructions.Nodup) :
    s.emitted = [] ∧ ∀ n ∈ m.instructions, s.type? n = none := by
  rcases h with _ | ⟨h, hlast⟩
  rcases h with _ | ⟨h, hfirst⟩
  obtain ⟨known, rfl, hwalk⟩ := lowerModule_of_run hfirst
  obtain ⟨-, rfl, hwalk'⟩ := lowerModule_of_run hlast
  -- What the first of the two appended is appended again by the second.
  have hnil := List.eq_nil_iff_forall_not_mem.2 fun n hn =>
    (List.nodup_append.1 hnodup).2.2 n (List.mem_append_right _ hn) n
      ((extends_of_walk hwalk').emitted_subset hn) rfl
  obtain ⟨hempty, untyped⟩ := untyped_of_emitted_eq_nil hwalk known hnil
  constructor
  · rw [← List.sublist_nil, ← hempty]
    exact h.extends.emitted_sublist
  · intro n hn
    rw [Option.eq_none_iff_forall_ne_some]
    intro a ha
    have htype := h.extends.type?_mono ha
    rw [untyped n (h.instructions_subset hn)] at htype
    cases htype

/-- After passes over a module without repeated instructions none is repeated if and only if there
was no pass; or there was one, and the registry listed no node twice and none of the module; or
there is nothing to append, since the registry is empty and no instruction of the module has a
type. -/
theorem Reachable.nodup_of_passes_iff (hs : s.Reachable) (distinct : m.instructions.Nodup)
    (h : Passes b m s k m' t) :
    m'.instructions.Nodup ↔ k = 0 ∨ k = 1 ∧ (m.instructions ++ s.emitted).Nodup ∨
      s.emitted = [] ∧ ∀ n ∈ m.instructions, s.type? n = none := by
  have quiet (hnil : s.emitted = []) (untyped : ∀ n ∈ m.instructions, s.type? n = none) :
      m'.instructions.Nodup := by
    rw [(h.eq_of_untyped hnil untyped).1]
    exact distinct
  match k with
  | 0 =>
    rcases h with _ | _
    simp [distinct]
  | 1 =>
    rcases h with _ | ⟨h, hrun⟩
    rcases h with _ | _
    obtain ⟨known, rfl, hwalk⟩ := lowerModule_of_run hrun
    have honce := nodup_append_emitted_iff hs.sound hwalk known
    constructor
    · intro hnodup
      exact Or.inr (Or.inl ⟨rfl, honce.1 hnodup⟩)
    · rintro (hzero | ⟨-, hlisted⟩ | ⟨hnil, untyped⟩)
      · cases hzero
      · exact honce.2 hlisted
      · exact quiet hnil untyped
  | k + 2 =>
    constructor
    · intro hnodup
      exact Or.inr (Or.inr (h.untyped_of_nodup hnodup))
    · rintro (hzero | ⟨hone, -⟩ | ⟨hnil, untyped⟩)
      · cases hzero
      · cases hone
      · exact quiet hnil untyped

/-- The type of the variable is lowered before the variable is shown to a pass. -/
theorem nodup_of_one_pass : ∃ (s t : Store) (m' : Module), s.Reachable ∧
    s.emitted = [⟨3⟩] ∧ [(⟨2⟩ : NodeId)].Nodup ∧ Passes ⟨0⟩ ⟨[⟨2⟩]⟩ s 1 m' t ∧
    m'.instructions.Nodup := by
  obtain ⟨replies, s, hsession, listed, hrun⟩ := exists_of_runAll {}
    (variableSession ++ [.lower ⟨0⟩ ⟨0⟩]) (fun s => s.emitted = [⟨3⟩] ∧
      ((s.run (.lowerModule ⟨0⟩ ⟨[⟨2⟩]⟩)).toOption.any
        (·.1 = .module true ⟨[⟨2⟩, ⟨3⟩]⟩)) = true) (by decide +kernel)
  have reachable : s.Reachable := ⟨{}, variableSession ++ [.lower ⟨0⟩ ⟨0⟩], replies, hsession⟩
  simp only [Option.any_eq_true, decide_eq_true_eq, Prod.exists] at hrun
  obtain ⟨_, t, hrun, rfl⟩ := hrun
  have once : Passes ⟨0⟩ ⟨[⟨2⟩]⟩ s 1 ⟨[⟨2⟩, ⟨3⟩]⟩ t := .next .start (eq_ok_of_toOption hrun)
  have distinct : [(⟨2⟩ : NodeId)].Nodup := by decide
  refine ⟨s, t, _, reachable, listed, distinct, once, ?_⟩
  refine (reachable.nodup_of_passes_iff distinct once).2 (Or.inr (Or.inl ⟨rfl, ?_⟩))
  rw [listed]
  decide

/-- After two passes over one variable its debug type is an instruction of the module twice. -/
theorem exists_repeated_of_two_passes : ∃ (s t : Store) (m' : Module), s.Reachable ∧
    [(⟨2⟩ : NodeId)].Nodup ∧ (s.nodes.entry? ⟨2⟩).any (!·.isDebugType) = true ∧
    Passes ⟨0⟩ ⟨[⟨2⟩]⟩ s 2 m' t ∧ m'.instructions = [⟨2⟩, ⟨3⟩, ⟨3⟩] ∧
    ¬ m'.instructions.Nodup := by
  obtain ⟨replies, s, hsession, untagged, hrun⟩ := exists_of_runAll {} variableSession
    (fun s => (s.nodes.entry? ⟨2⟩).any (!·.isDebugType) = true ∧
      ((s.run (.lowerModule ⟨0⟩ ⟨[⟨2⟩]⟩)).toOption.any fun p =>
        p.1 = .module true ⟨[⟨2⟩, ⟨3⟩]⟩ &&
          (p.2.run (.lowerModule ⟨0⟩ ⟨[⟨2⟩, ⟨3⟩]⟩)).toOption.any
            (·.1 = .module true ⟨[⟨2⟩, ⟨3⟩, ⟨3⟩]⟩)) = true) (by decide +kernel)
  simp only [Option.any_eq_true, Bool.and_eq_true, decide_eq_true_eq, Prod.exists] at hrun
  obtain ⟨_, r, hfirst, rfl, _, t, hlast, rfl⟩ := hrun
  have once : Passes ⟨0⟩ ⟨[⟨2⟩]⟩ s 1 ⟨[⟨2⟩, ⟨3⟩]⟩ r := .next .start (eq_ok_of_toOption hfirst)
  exact ⟨s, t, _, ⟨{}, variableSession, replies, hsession⟩, by decide, untagged,
    once.next (eq_ok_of_toOption hlast), rfl, by decide⟩

end ShaderTypes.Store
