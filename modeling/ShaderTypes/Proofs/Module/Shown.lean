import ShaderTypes.Proofs.Lowering.Walk

/-!
# What a walk shows

A walk shows the instructions that the module has once the pass was told of its beginning.  What the
pass adds at that moment stands behind the instructions of the module and is shown after them; what
it adds at the end is never shown.

`Pass.shown` is the list of what is shown, up to the instruction at which the pass ends the walk or
fails.  That it is this list is told by a pass that watches another one: it does the same and writes
down every instruction that it is handed.  The pass that lowers the types of a module adds to it at
the end only, so it is shown the instructions that were there before.
-/

namespace ShaderTypes

namespace Pass

variable {σ : Type} (p : Pass σ)

/-- The instructions of a list that the pass is shown, up to the one at which it ends the walk or
fails. -/
def shownOf : List NodeId → σ → List NodeId
  | [], _ => []
  | n :: rest, s =>
    n :: match p.onInstruction n s with
      | .ok (true, s) => shownOf rest s
      | _ => []

/-- The instructions that a walk over a module shows to the pass, in order. -/
def shown (m : Module) (s : σ) : List NodeId :=
  match p.onModule .init m s with
  | .ok (true, m, s) => p.shownOf m.instructions s
  | _ => []

/-- The pass that does the same and writes down the instructions that it is shown.  Where the other
pass fails it ends the walk, so that what is written down is kept. -/
def watched : Pass (σ × List NodeId) where
  onModule phase m r :=
    match p.onModule phase m r.1 with
    | .ok (goOn, m, s) => .ok (goOn, m, s, r.2)
    | .error _ => .ok (false, m, r)
  onInstruction n r :=
    match p.onInstruction n r.1 with
    | .ok (goOn, s) => .ok (goOn, s, r.2 ++ [n])
    | .error _ => .ok (false, r.1, r.2 ++ [n])

variable {p} {m m' : Module} {s s' : σ} {n : NodeId} {nodes : List NodeId} {goOn : Bool}

/-! ### Instructions one by one -/

/-- What is shown of a list stands at its beginning. -/
lemma shownOf_isPrefix : p.shownOf nodes s <+: nodes := by
  induction nodes generalizing s with
  | nil => exact List.prefix_refl _
  | cons n rest ih =>
    rw [shownOf]
    refine List.cons_prefix_cons.2 ⟨rfl, ?_⟩
    split
    · exact ih
    · exact List.nil_prefix

/-- If the pass goes on at every instruction, all of them are shown. -/
lemma shownOf_of_visitAll (h : p.visitAll nodes s = .ok (true, s')) : p.shownOf nodes s = nodes := by
  induction nodes generalizing s with
  | nil => rfl
  | cons n rest ih =>
    rcases hshow : p.onInstruction n s with fault | ⟨_ | _, r⟩
    · cases (visitAll_cons_of_error hshow).symm.trans h
    · cases (visitAll_cons_of_stop hshow).symm.trans h
    · rw [visitAll_cons_of_goOn hshow] at h
      simp only [shownOf, hshow, ih h]

/-- The watched pass writes down what the pass is shown, also where that fails. -/
lemma visitAll_watched (p : Pass σ) (nodes : List NodeId) (s : σ) (log : List NodeId) :
    ∃ goOn r, p.watched.visitAll nodes (s, log) = .ok (goOn, r, log ++ p.shownOf nodes s) ∧
      ∀ answer, p.visitAll nodes s = .ok answer → answer = (goOn, r) := by
  induction nodes generalizing s log with
  | nil =>
    refine ⟨true, s, by simp [shownOf], fun answer h => ?_⟩
    cases h
    rfl
  | cons n rest ih =>
    rcases hshow : p.onInstruction n s with fault | ⟨_ | _, r⟩
    · have ends : p.watched.onInstruction n (s, log) = .ok (false, s, log ++ [n]) := by
        simp only [watched, hshow]
      refine ⟨false, s, ?_, fun answer h => ?_⟩
      · rw [visitAll_cons_of_stop ends, shownOf, hshow]
      · cases (visitAll_cons_of_error hshow).symm.trans h
    · have ends : p.watched.onInstruction n (s, log) = .ok (false, r, log ++ [n]) := by
        simp only [watched, hshow]
      refine ⟨false, r, ?_, fun answer h => ?_⟩
      · rw [visitAll_cons_of_stop ends, shownOf, hshow]
      · exact Except.ok.inj (h.symm.trans (visitAll_cons_of_stop hshow))
    · have goesOn : p.watched.onInstruction n (s, log) = .ok (true, r, log ++ [n]) := by
        simp only [watched, hshow]
      obtain ⟨goOn, r', hwatched, hsame⟩ := ih r (log ++ [n])
      refine ⟨goOn, r', ?_, fun answer h => hsame answer ?_⟩
      · rw [visitAll_cons_of_goOn goesOn, hwatched, shownOf, hshow, List.append_assoc,
          List.singleton_append]
      · rwa [visitAll_cons_of_goOn hshow] at h

/-! ### Walks -/

/-- What a walk shows stands at the beginning of the module as the pass left it at first. -/
lemma shown_isPrefix (h : p.onModule .init m s = .ok (goOn, m', s')) :
    p.shown m s <+: m'.instructions := by
  rw [shown, h]
  rcases goOn with _ | _
  · exact List.nil_prefix
  · exact shownOf_isPrefix

/-- A walk that is watched writes down what is shown, and is the walk itself where that succeeds. -/
lemma walk_watched (p : Pass σ) (m : Module) (s : σ) (log : List NodeId) :
    ∃ goOn m' r, p.watched.walk m (s, log) = .ok (goOn, m', r, log ++ p.shown m s) ∧
      ∀ answer, p.walk m s = .ok answer → answer = (goOn, m', r) := by
  rcases hinit : p.onModule .init m s with fault | ⟨_ | _, m₁, s₁⟩
  · have ends : p.watched.onModule .init m (s, log) = .ok (false, m, s, log) := by
      simp only [watched, hinit]
    refine ⟨false, m, s, ?_, fun answer h => ?_⟩
    · rw [walk_of_stop ends, shown, hinit, List.append_nil]
    · cases (walk_of_error hinit).symm.trans h
  · have ends : p.watched.onModule .init m (s, log) = .ok (false, m₁, s₁, log) := by
      simp only [watched, hinit]
    refine ⟨false, m₁, s₁, ?_, fun answer h => ?_⟩
    · rw [walk_of_stop ends, shown, hinit, List.append_nil]
    · exact Except.ok.inj (h.symm.trans (walk_of_stop hinit))
  have goesOn : p.watched.onModule .init m (s, log) = .ok (true, m₁, s₁, log) := by
    simp only [watched, hinit]
  obtain ⟨goOn, s₂, hwatched, hsame⟩ := p.visitAll_watched m₁.instructions s₁ log
  have hwalk : p.watched.walk m (s, log) =
      if goOn then p.watched.onModule .done m₁ (s₂, log ++ p.shown m s)
      else .ok (false, m₁, s₂, log ++ p.shown m s) := by
    rw [walk_of_goOn goesOn, hwatched, shown, hinit]
    rfl
  -- A walk that succeeds got through the instructions with the same answer.
  have through (answer : Bool × Module × σ) (h : p.walk m s = .ok answer) :
      (if goOn then p.onModule .done m₁ s₂ else .ok (false, m₁, s₂)) = .ok answer := by
    rw [walk_of_goOn hinit] at h
    rcases hvisit : p.visitAll m₁.instructions s₁ with fault | visited
    · rw [hvisit] at h
      cases h
    · obtain rfl := hsame visited hvisit
      rwa [hvisit] at h
  rw [hwalk]
  rcases goOn with _ | _
  · refine ⟨false, m₁, s₂, rfl, fun answer h => ?_⟩
    exact (Except.ok.inj (through answer h)).symm
  rcases hdone : p.onModule .done m₁ s₂ with fault | ⟨last, m₂, s₃⟩
  · refine ⟨false, m₁, s₂, by simp [watched, hdone], fun answer h => ?_⟩
    cases hdone.symm.trans (through answer h)
  · refine ⟨last, m₂, s₃, by simp [watched, hdone], fun answer h => ?_⟩
    exact Except.ok.inj ((through answer h).symm.trans hdone)

/-- The watched pass hands to the pass, one after the other, the instructions that are shown, and the
walk comes to the same answer.  What is shown stands at the beginning of the module as the pass left
it when it was told of the beginning, so nothing that it adds at the end is shown.  If it has added
instructions to the module by then, all that is shown was in the module before the walk if and only
if the added ones that are shown were. -/
theorem shown_old_iff (p : Pass σ) (m : Module) (s : σ) :
    (∃ goOn m' r, p.watched.walk m (s, []) = .ok (goOn, m', r, p.shown m s) ∧
      ∀ answer, p.walk m s = .ok answer → answer = (goOn, m', r)) ∧
    (∀ fault, p.onModule .init m s = .error fault → p.shown m s = []) ∧
    ∀ goOn m' r, p.onModule .init m s = .ok (goOn, m', r) →
      p.shown m s <+: m'.instructions ∧
      ∀ added, m' = m.append added →
        ((∀ n ∈ p.shown m s, n ∈ m.instructions) ↔
          ∀ n ∈ added.take ((p.shown m s).length - m.instructions.length), n ∈ m.instructions) := by
  refine ⟨by simpa using p.walk_watched m s [],
    fun fault h => by simp only [shown, h], fun goOn m' r h => ?_⟩
  have front := shown_isPrefix h
  refine ⟨front, ?_⟩
  rintro added rfl
  have hshown : p.shown m s = m.instructions.take (p.shown m s).length ++
      added.take ((p.shown m s).length - m.instructions.length) := by
    rw [← List.take_append]
    exact List.prefix_iff_eq_take.1 front
  constructor
  · intro old n hn
    refine old n ?_
    rw [hshown]
    exact List.mem_append_right _ hn
  · intro old n hn
    rw [hshown] at hn
    rcases List.mem_append.1 hn with hn | hn
    · exact List.mem_of_mem_take hn
    · exact old n hn

/-- Of a module with two instructions nothing but these is shown, if the pass adds two more at the
beginning and ends the walk before it comes to them. -/
theorem shown_old_of_limit :
    let r : Recorder := { limit := some 1, addedFirst := [⟨2⟩, ⟨3⟩], addedLast := [⟨4⟩] }
    r.pass.shown ⟨[⟨0⟩, ⟨1⟩]⟩ [] <+: [⟨0⟩, ⟨1⟩, ⟨2⟩, ⟨3⟩] ∧
      ∀ n ∈ r.pass.shown ⟨[⟨0⟩, ⟨1⟩]⟩ [], n ∈ [(⟨0⟩ : NodeId), ⟨1⟩] := by
  intro r
  obtain ⟨-, -, told⟩ := shown_old_iff r.pass ⟨[⟨0⟩, ⟨1⟩]⟩ []
  obtain ⟨front, old⟩ := told true _ _ rfl
  exact ⟨front, (old [⟨2⟩, ⟨3⟩] rfl).2 (by decide)⟩

/-- A walk that comes to its end may show an instruction that was not in the module before: here the
only one there is, which the pass adds at the beginning. -/
theorem exists_shown_added : ∃ (p : Pass (List Call)) (m m' : Module) (n : NodeId),
    n ∉ m.instructions ∧ n ∈ p.shown m [] ∧
      p.walk m [] = .ok (true, m', [.phase .init, .instruction n, .phase .done]) :=
  ⟨({ addedFirst := [⟨0⟩] } : Recorder).pass, ⟨[]⟩, ⟨[⟨0⟩]⟩, ⟨0⟩, by decide, by decide, rfl⟩

end Pass

namespace Lowering

variable {b : BuilderId} {m m' : Module} {s t : Store} {completed : Bool}

/-- The pass that completes a module is shown instructions that the module had before it, and all of
them if it succeeds. -/
theorem shown_pass : (pass b).shown m s <+: m.instructions ∧
    (lowerModule b m s = .ok (completed, m', t) → (pass b).shown m s = m.instructions) := by
  have begins : (pass b).onModule .init m s = .ok (true, m, s) := rfl
  refine ⟨Pass.shown_isPrefix begins, fun h => ?_⟩
  rcases hvisit : (pass b).visitAll m.instructions s with fault | ⟨goOn, r⟩
  · rw [lowerModule_eq, hvisit] at h
    cases h
  · obtain ⟨rfl, -⟩ := walk_of_visitAll hvisit
    exact Pass.shownOf_of_visitAll hvisit

end Lowering

end ShaderTypes
