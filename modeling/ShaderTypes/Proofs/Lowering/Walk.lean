import ShaderTypes.Lowering.Pass
import ShaderTypes.Proofs.Lowering.Recursion

/-!
# The walk over a module

A successful pass is taken apart into its steps.  `Lowering.Walk` says what showing instructions to
the pass does to the store, one constructor for each way an instruction can be treated.  The walk
never breaks off, so a pass that succeeds comes to its end.
-/

namespace ShaderTypes

namespace Store

/-- The type of the variable or the function at a node, if it is known. -/
def type? (s : Store) (n : NodeId) : Option TypeId :=
  (s.nodes.entry? n).bind Debug.Entry.type?

/-- The store with the debug type of a node, which is a variable or a function, set. -/
def withDebugType (s : Store) (n type : NodeId) : Store :=
  s.modifyNode n ({ · with debugType := some type })

variable {s t : Store} {n type : NodeId}

lemma setDebugType_eq_ok (h : s.setDebugType n type = .ok t) : t = s.withDebugType n type := by
  rw [setDebugType] at h
  split at h
  · cases h
    rfl
  · cases h

end Store

namespace Lowering

/-- Instructions shown to the pass one after the other. -/
inductive Walk (b : BuilderId) : List NodeId → Store → Store → Prop
  | nil {s : Store} : Walk b [] s s
  | untyped {n : NodeId} {rest : List NodeId} {s t : Store} (h : (s.stamp n b).type? n = none)
      (tail : Walk b rest (s.stamp n b) t) : Walk b (n :: rest) s t
  | typed {n d : NodeId} {a : TypeId} {rest : List NodeId} {s s' t : Store}
      (h : (s.stamp n b).type? n = some a) (lowered : lower b a (s.stamp n b) = .ok (d, s'))
      (tail : Walk b rest (s'.withDebugType n d) t) : Walk b (n :: rest) s t

variable {b : BuilderId} {s t : Store} {n : NodeId}

/-- Showing an instruction to the pass stamps it and completes it if it has a type. -/
lemma visit_cases {u : PUnit} (h : visit b n s = .ok (u, t)) :
    (s.stamp n b).type? n = none ∧ t = s.stamp n b ∨
      ∃ a d s', (s.stamp n b).type? n = some a ∧ lower b a (s.stamp n b) = .ok (d, s') ∧
        t = s'.withDebugType n d := by
  rw [visit, Lower.bind_eq_ok] at h
  obtain ⟨_, r, hstamp, h⟩ := h
  rw [Lower.modify_eq_ok] at hstamp
  subst hstamp
  obtain ⟨_, _, hget, h⟩ := Lower.bind_eq_ok.1 h
  obtain ⟨rfl, rfl⟩ := Lower.get_eq_ok.1 hget
  cases htype : ((s.stamp n b).nodes.entry? n).bind Debug.Entry.type? with
  | none =>
    rw [htype] at h
    obtain ⟨-, rfl⟩ := Lower.pure_eq_ok.1 h
    exact Or.inl ⟨htype, rfl⟩
  | some a =>
    rw [htype] at h
    obtain ⟨d, s', hlower, h⟩ := Lower.bind_eq_ok.1 h
    obtain ⟨_, _, hget, h⟩ := Lower.bind_eq_ok.1 h
    obtain ⟨rfl, rfl⟩ := Lower.get_eq_ok.1 hget
    obtain ⟨r, _, hlift, h⟩ := Lower.bind_eq_ok.1 h
    obtain ⟨hset, rfl⟩ := Lower.lift_eq_ok.1 hlift
    rw [Lower.set_eq_ok] at h
    subst h
    exact Or.inr ⟨a, d, s', htype, hlower, Store.setDebugType_eq_ok hset⟩

lemma onInstruction_eq_ok {goOn : Bool} (h : (pass b).onInstruction n s = .ok (goOn, t)) :
    goOn = true ∧ visit b n s = .ok (PUnit.unit, t) := by
  change (visit b n s >>= fun p => .ok (true, p.2)) = .ok (goOn, t) at h
  cases hvisit : visit b n s with
  | error fault => simp [hvisit, bind, Except.bind] at h
  | ok p =>
    rw [hvisit] at h
    cases h
    exact ⟨rfl, rfl⟩

lemma onInstruction_eq_error {fault : Fault} (h : (pass b).onInstruction n s = .error fault) :
    visit b n s = .error fault := by
  change (visit b n s >>= fun p => .ok (true, p.2)) = .error fault at h
  rcases hvisit : visit b n s with fault' | p
  · rw [hvisit] at h
    cases h
    rfl
  · rw [hvisit] at h
    cases h

lemma walk_of_visitAll {instructions : List NodeId} {goOn : Bool}
    (h : (pass b).visitAll instructions s = .ok (goOn, t)) :
    goOn = true ∧ Walk b instructions s t := by
  induction instructions generalizing s with
  | nil =>
    cases h
    exact ⟨rfl, .nil⟩
  | cons n rest ih =>
    rcases hshow : (pass b).onInstruction n s with fault | ⟨goOn', s'⟩
    · cases (Pass.visitAll_cons_of_error hshow).symm.trans h
    obtain ⟨rfl, hvisit⟩ := onInstruction_eq_ok hshow
    rw [Pass.visitAll_cons_of_goOn hshow] at h
    obtain ⟨hgoOn, hrest⟩ := ih h
    refine ⟨hgoOn, ?_⟩
    rcases visit_cases hvisit with ⟨htype, rfl⟩ | ⟨a, d, r, htype, hlower, rfl⟩
    · exact .untyped htype hrest
    · exact .typed htype hlower hrest

/-- A pass shows the instructions of the module and adds all debug types to it then. -/
lemma lowerModule_eq {m : Module} : lowerModule b m s =
    ((pass b).visitAll m.instructions s >>= fun r =>
      if r.1 then .ok (true, m.append r.2.emitted, r.2) else .ok (false, m, r.2)) :=
  Pass.walk_of_goOn rfl

end Lowering

/-- A pass that succeeds comes to its end, and adds all debug types to the module then. -/
theorem lowerModule_eq_ok {b : BuilderId} {m m' : Module} {s t : Store} {completed : Bool}
    (h : lowerModule b m s = .ok (completed, m', t)) :
    completed = true ∧ m' = m.append t.emitted ∧ Lowering.Walk b m.instructions s t := by
  rw [Lowering.lowerModule_eq] at h
  rcases hvisit : (Lowering.pass b).visitAll m.instructions s with fault | ⟨goOn, r⟩
  · rw [hvisit] at h
    cases h
  · obtain ⟨rfl, hwalk⟩ := Lowering.walk_of_visitAll hvisit
    rw [hvisit] at h
    cases h
    exact ⟨rfl, rfl, hwalk⟩

end ShaderTypes
